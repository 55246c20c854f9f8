import AxonaBridge.AnchorPasses

/-!
# The contract of the selection

Among the eligible candidates the anchors are as many as there are slots, the bound ones first, with
the newcomer's own region served up to half, as many regions covered as the slots allow, and the
better scored of a region preferred.
-/

open JsText

namespace AxonaBridge

namespace AnchorSelect

variable (o : Options)

/-- A candidate of the newcomer's own region, where that is known. -/
def isMate (c : Candidate) : Bool :=
  (regionOf c.region).isSome ∧ regionOf c.region = regionOf o.newRegion

/-- The anchors the newcomer's own region gets: up to half of the slots. -/
def mateQuota (pool : List Candidate) : Nat := min (max 1 (o.k / 2)).toNat (pool.countP (isMate o))

structure Contract (pool : List Candidate) (anchors : List JsString) : Prop where
  distinct : anchors.Nodup
  among : ∀ x ∈ anchors, x ∈ pool.map Candidate.id
  count : (anchors.length : Int) = min o.k pool.length
  /-- An unbound candidate is chosen only if every bound one is. -/
  boundChosen : ∀ u ∈ pool, regionOf u.region = none → u.id ∈ anchors →
    ∀ b ∈ pool, regionOf b.region ≠ none → b.id ∈ anchors
  boundFirst : ∀ u ∈ pool, regionOf u.region = none → u.id ∈ anchors →
    ∀ b ∈ pool, regionOf b.region ≠ none → b.id ∈ anchors →
      anchors.idxOf b.id < anchors.idxOf u.id
  affinity : mateQuota o pool ≤ pool.countP fun c => isMate o c ∧ c.id ∈ anchors
  /-- Where a region is not covered, no region gets two anchors beyond the newcomer's quota. -/
  coverage : ∀ r ∈ pool, regionOf r.region ≠ none →
    (∀ c ∈ pool, c.id ∈ anchors → regionOf c.region ≠ regionOf r.region) →
    ∀ c ∈ pool, c.id ∈ anchors.drop (mateQuota o pool) →
      regionOf c.region ≠ none ∧
        ∀ d ∈ pool, d.id ∈ anchors → regionOf d.region = regionOf c.region → d = c
  /-- Nobody left out scores better than a chosen one of the same region. -/
  preferred : ∀ u ∈ pool, u.id ∉ anchors → ∀ v ∈ pool, v.id ∈ anchors →
    regionOf u.region = regionOf v.region →
    (score o (maxUses pool) u).s ≤ (score o (maxUses pool) v).s

/-! ### The picks among the ranked -/

def Outranks (a b : Scored) : Prop := b.s ≤ a.s

/-- Candidates ranked by their score, each once. -/
structure Ranked (ranked : List Scored) : Prop where
  ids : (ranked.map Scored.id).Nodup
  order : ranked.Pairwise Outranks

variable {o} {newR : Option JsString} {ranked : List Scored}

theorem Ranked.bound (h : Ranked ranked) : Ranked (bound ranked) where
  ids := h.ids.sublist (List.filter_sublist.map _)
  order := h.order.sublist List.filter_sublist

theorem mem_bound {c : Scored} : c ∈ bound ranked ↔ c ∈ ranked ∧ c.region.isSome := List.mem_filter

theorem mem_opening {c : Scored} (hc : c ∈ opening o newR ranked) : c ∈ bound ranked := by
  rw [mem_bound]
  rcases List.mem_append.mp hc with hc | hc
  · obtain ⟨hmem, hsome, -⟩ := mem_mates o hc
    exact ⟨hmem, hsome⟩
  · obtain ⟨region, hregion, -⟩ := List.key_of_mem_firsts (mem_regionHeads o hc)
    exact ⟨List.firsts_sublist.subset (mem_regionHeads o hc), Option.isSome_of_eq_some hregion⟩

theorem nodup_opening (h : Ranked ranked) : ((opening o newR ranked).map Scored.id).Nodup := by
  have hheads := diverse_eq o h.ids (mates o newR ranked) (usedRegions o newR ranked)
    fun c hc region hregion hunused => not_mem_mates_of_unused o h.ids hc hregion hunused
  have hmates : ((mates o newR ranked).map Scored.id).Nodup :=
    h.ids.sublist (((List.take_sublist _ _).trans List.filter_sublist).map _)
  rw [opening, regionHeads, ← hheads]
  exact nodup_diverse o _ _ hmates

theorem length_mates_le (hk : 1 ≤ o.k) : (mates o newR ranked).length ≤ o.slots := by
  have htake : (mates o newR ranked).length ≤ o.quota := List.length_take_le _ _
  unfold Options.quota at htake
  unfold Options.slots
  omega

theorem length_opening_le (hk : 1 ≤ o.k) : (opening o newR ranked).length ≤ o.slots := by
  have hmates := @length_mates_le o newR ranked hk
  have hheads : (regionHeads o newR ranked).length ≤ o.slots - (mates o newR ranked).length :=
    List.length_take_le _ _
  rw [opening, List.length_append]
  omega

theorem mem_boundPicks {c : Scored} (hc : c ∈ boundPicks o newR ranked) : c ∈ bound ranked :=
  (of_mem_topUp o hc).elim mem_opening id

theorem mem_picks {c : Scored} (hc : c ∈ picks o newR ranked) : c ∈ ranked :=
  (of_mem_topUp o hc).elim (fun h => (mem_bound.mp (mem_boundPicks h)).1) id

theorem nodup_boundPicks (h : Ranked ranked) : ((boundPicks o newR ranked).map Scored.id).Nodup :=
  nodup_topUp o h.bound.ids (nodup_opening h)

theorem nodup_picks (h : Ranked ranked) : ((picks o newR ranked).map Scored.id).Nodup :=
  nodup_topUp o h.ids (nodup_boundPicks h)

theorem length_boundPicks (h : Ranked ranked) (hk : 1 ≤ o.k) :
    (boundPicks o newR ranked).length = min o.slots (bound ranked).length :=
  length_topUp o h.bound.ids (nodup_opening h) (fun _ hc => mem_opening hc) (length_opening_le hk)

theorem length_picks (h : Ranked ranked) (hk : 1 ≤ o.k) :
    (picks o newR ranked).length = min o.slots ranked.length := by
  refine length_topUp o h.ids (nodup_boundPicks h) (fun c hc => (mem_bound.mp (mem_boundPicks hc)).1) ?_
  rw [length_boundPicks h hk]
  exact Nat.min_le_left _ _

/-- Nobody unbound is picked while somebody bound is left. -/
theorem mem_boundPicks_of_unbound {u b : Scored}
    (hu : u ∈ picks o newR ranked) (hunbound : u.region = none) (hb : b ∈ bound ranked) :
    b.id ∈ (boundPicks o newR ranked).map Scored.id := by
  by_contra hleft
  have hfull := slots_le_length_topUp o hb hleft
  change o.slots ≤ (boundPicks o newR ranked).length at hfull
  rw [picks, topUp_of_full o hfull] at hu
  have hbound := (mem_bound.mp (mem_boundPicks hu)).2
  rw [hunbound] at hbound
  cases hbound

/-- Where a region is left uncovered, the first two passes fill the slots. -/
theorem picks_of_uncovered {r : Scored} {region : JsString} (hr : r ∈ ranked)
    (hregion : r.region = some region)
    (huncovered : ∀ c ∈ picks o newR ranked, c.region ≠ some region) :
    picks o newR ranked = opening o newR ranked := by
  have hopening : ∀ c ∈ opening o newR ranked, c.region ≠ some region :=
    fun c hc => huncovered c (mem_topUp o (mem_topUp o hc))
  have hunused : region ∉ usedRegions o newR ranked := by
    intro hused
    obtain ⟨c, hc, hcregion⟩ := (mem_usedRegions o).mp hused
    exact hopening c (List.mem_append_left _ hc) hcregion
  obtain ⟨c, hc, hcregion⟩ := List.exists_mem_firsts hr hregion hunused
  have hleft : c ∉ regionHeads o newR ranked := fun h => hopening c (List.mem_append_right _ h) hcregion
  have hlength := List.length_take_of_mem_of_not_mem hc hleft
  have hfull : o.slots ≤ (opening o newR ranked).length := by
    rw [opening, List.length_append, regionHeads, hlength]
    omega
  rw [picks, boundPicks, topUp_of_full o hfull, topUp_of_full o hfull]

/-- A region that the second pass serves has no other anchor from the first two. -/
theorem eq_of_mem_regionHeads {c d : Scored} (hc : c ∈ regionHeads o newR ranked) (hd : d ∈ opening o newR ranked)
    (h : d.region = c.region) : d = c := by
  rcases List.mem_append.mp hd with hd | hd
  · obtain ⟨region, hregion, hunused⟩ := List.key_of_mem_firsts (mem_regionHeads o hc)
    exact absurd ((mem_usedRegions o).mpr ⟨d, hd, h.trans hregion⟩) hunused
  · exact List.eq_of_mem_firsts (mem_regionHeads o hd) (mem_regionHeads o hc) h

/-- Nobody left out ranks before one of the same region that was picked. -/
theorem picks_preferred {u v : Scored} (h : Ranked ranked) (hu : u ∈ ranked)
    (hleft : u.id ∉ (picks o newR ranked).map Scored.id) (hv : v ∈ picks o newR ranked)
    (hregion : u.region = v.region) : Outranks v u := by
  have hleftBound : u.id ∉ (boundPicks o newR ranked).map Scored.id :=
    fun hin => hleft (List.map_subset _ (fun _ => mem_topUp o) hin)
  have hleftOpening : u ∉ opening o newR ranked :=
    fun hin => hleftBound (List.mem_map_of_mem (mem_topUp o hin))
  by_cases hvbound : v ∈ boundPicks o newR ranked
  · have hubound : u ∈ bound ranked := by
      rw [mem_bound, hregion]
      exact ⟨hu, (mem_bound.mp (mem_boundPicks hvbound)).2⟩
    by_cases hvopening : v ∈ opening o newR ranked
    · rcases List.mem_append.mp hvopening with hvmate | hvhead
      · obtain ⟨-, hsome, hnew⟩ := mem_mates o hvmate
        have humate : u ∈ ranked.filter fun c => c.region.isSome ∧ c.region = newR := by
          refine List.mem_filter.mpr ⟨hu, decide_eq_true ?_⟩
          rw [hregion]
          exact ⟨hsome, hnew⟩
        exact List.rel_of_mem_take (h.order.sublist List.filter_sublist) hvmate humate
          fun hin => hleftOpening (List.mem_append_left _ hin)
      · refine List.rel_of_mem_firsts h.order (mem_regionHeads o hvhead) hu hregion ?_
        exact fun heq => hleftOpening (heq ▸ hvopening)
    · exact rel_of_mem_topUp o h.bound.order hvbound hvopening hubound hleftBound
  · exact rel_of_mem_topUp o h.order hv hvbound hu hleft

/-! ### From the ranked back to the candidates -/

variable {candidates : List Candidate}

theorem perm_scored : (scored o candidates).Perm
    ((eligible o candidates).map (score o (maxUses (eligible o candidates)))) :=
  List.perm_insertionSort _ _

theorem ranked_scored (h : (candidates.map Candidate.id).Nodup) : Ranked (scored o candidates) where
  ids := nodup_scored o h
  order := by
    have htotal : Std.Total fun a b : Scored => b.s ≤ a.s := ⟨fun a b => le_total b.s a.s⟩
    have htrans : IsTrans Scored fun a b => b.s ≤ a.s := ⟨fun a b c hab hbc => hbc.trans hab⟩
    exact List.pairwise_insertionSort (fun a b : Scored => b.s ≤ a.s) _

theorem mem_scored_of_mem {c : Candidate} (hc : c ∈ eligible o candidates) :
    score o (maxUses (eligible o candidates)) c ∈ scored o candidates :=
  perm_scored.mem_iff.mpr (List.mem_map_of_mem hc)

theorem countP_scored (p : Scored → Bool) :
    (scored o candidates).countP p =
      (eligible o candidates).countP fun c => p (score o (maxUses (eligible o candidates)) c) := by
  rw [perm_scored.countP_eq, List.countP_map]
  rfl

theorem length_mates_scored :
    (mates o (regionOf o.newRegion) (scored o candidates)).length =
      mateQuota o (eligible o candidates) := by
  rw [mates, List.length_take, ← List.countP_eq_length_filter, countP_scored]
  rfl

/-- The newcomer's region gets its quota. -/
theorem mateQuota_le_countP : mateQuota o (eligible o candidates) ≤
    (eligible o candidates).countP fun c => isMate o c ∧
      c.id ∈ (picks o (regionOf o.newRegion) (scored o candidates)).map Scored.id := by
  have hchosen := @countP_scored o candidates fun c =>
    decide (c.region.isSome ∧ c.region = regionOf o.newRegion) = true ∧
      c.id ∈ (picks o (regionOf o.newRegion) (scored o candidates)).map Scored.id
  rw [← length_mates_scored]
  refine le_trans ?_ hchosen.le
  rw [List.countP_eq_length_filter]
  have hsub : (mates o (regionOf o.newRegion) (scored o candidates)).Sublist (scored o candidates) :=
    (List.take_sublist _ _).trans List.filter_sublist
  refine le_trans (le_of_eq ?_) (hsub.filter _).length_le
  rw [List.filter_eq_self.mpr]
  intro c hc
  obtain ⟨-, hmate⟩ := mem_mates o hc
  refine decide_eq_true ⟨decide_eq_true hmate, List.mem_map_of_mem ?_⟩
  exact mem_topUp o (mem_topUp o (List.mem_append_left _ hc))

theorem contract_picks (h : (candidates.map Candidate.id).Nodup) (hk : 1 ≤ o.k) :
    Contract o (eligible o candidates)
      ((picks o (regionOf o.newRegion) (scored o candidates)).map Scored.id) := by
  have hranked := @ranked_scored o candidates h
  have hpick : ∀ c ∈ eligible o candidates,
      c.id ∈ (picks o (regionOf o.newRegion) (scored o candidates)).map Scored.id →
        score o (maxUses (eligible o candidates)) c ∈
          picks o (regionOf o.newRegion) (scored o candidates) :=
    fun c hc hid => mem_of_id_mem hranked.ids (fun _ hd => mem_picks hd) (mem_scored_of_mem hc) hid
  have hbound : ∀ b ∈ eligible o candidates, regionOf b.region ≠ none →
      score o (maxUses (eligible o candidates)) b ∈ bound (scored o candidates) :=
    fun b hb hregion => mem_bound.mpr ⟨mem_scored_of_mem hb, Option.isSome_iff_ne_none.mpr hregion⟩
  constructor
  case distinct => exact nodup_picks hranked
  case among =>
    intro x hx
    obtain ⟨c, hc, rfl⟩ := List.mem_map.mp hx
    exact mem_scored o (List.mem_map_of_mem (mem_picks hc))
  case count =>
    rw [List.length_map, length_picks hranked hk, perm_scored.length_eq, List.length_map]
    unfold Options.slots
    omega
  case boundChosen =>
    intro u hu hunbound huid b hb hregion
    have hchosen := mem_boundPicks_of_unbound (hpick u hu huid) hunbound (hbound b hb hregion)
    exact List.map_subset _ (fun _ => mem_topUp o) hchosen
  case boundFirst =>
    intro u hu hunbound huid b hb hregion hbid
    have hchosen : b.id ∈ (boundPicks o (regionOf o.newRegion) (scored o candidates)).map Scored.id :=
      mem_boundPicks_of_unbound (hpick u hu huid) hunbound (hbound b hb hregion)
    have hlast : u.id ∉ (boundPicks o (regionOf o.newRegion) (scored o candidates)).map Scored.id := by
      intro hin
      have hmem := mem_of_id_mem hranked.ids (fun _ hd => (mem_bound.mp (mem_boundPicks hd)).1)
        (mem_scored_of_mem hu) hin
      have hsome : (regionOf u.region).isSome := (mem_bound.mp (mem_boundPicks hmem)).2
      rw [hunbound] at hsome
      cases hsome
    rw [picks, topUp, List.map_append, List.idxOf_append_of_mem hchosen,
      List.idxOf_append_of_notMem hlast]
    exact (List.idxOf_lt_length_of_mem hchosen).trans_le (Nat.le_add_right _ _)
  case affinity => exact mateQuota_le_countP
  case coverage =>
    intro r hr hregion huncovered c hc hbeyond
    obtain ⟨region, hregion⟩ := Option.ne_none_iff_exists'.mp hregion
    have hopening : picks o (regionOf o.newRegion) (scored o candidates) =
        opening o (regionOf o.newRegion) (scored o candidates) := by
      refine picks_of_uncovered (mem_scored_of_mem hr) hregion fun s hs => ?_
      obtain ⟨c, hc, rfl⟩ := List.mem_map.mp (perm_scored.mem_iff.mp (mem_picks hs))
      exact hregion ▸ huncovered c hc (List.mem_map_of_mem hs)
    rw [← length_mates_scored, hopening, opening, ← List.map_drop, List.drop_left] at hbeyond
    have hheads : score o (maxUses (eligible o candidates)) c ∈
        regionHeads o (regionOf o.newRegion) (scored o candidates) :=
      mem_of_id_mem hranked.ids (fun _ hd => List.firsts_sublist.subset (mem_regionHeads o hd))
        (mem_scored_of_mem hc) hbeyond
    constructor
    · obtain ⟨region, hcregion, -⟩ := List.key_of_mem_firsts (mem_regionHeads o hheads)
      exact Option.ne_none_iff_exists'.mpr ⟨region, hcregion⟩
    · intro d hd hdid hsame
      have heq := eq_of_mem_regionHeads hheads (hopening ▸ hpick d hd hdid) hsame
      exact List.inj_on_of_nodup_map ((nodup_admitted o h).sublist (List.filter_sublist.map _)) hd hc
        (congrArg Scored.id heq)
  case preferred =>
    intro u hu hleft v hv hvid hregion
    exact picks_preferred hranked (mem_scored_of_mem hu) hleft (hpick v hv hvid) hregion

/-- A pool below the threshold is handed out whole. -/
theorem selectAnchors_of_lt (h : ((eligible o candidates).length : Int) < o.minPool) :
    selectAnchors o candidates =
      { anchors := (admitted o candidates).map Candidate.id
        fellBack := true
        eligibleCount := (eligible o candidates).length } := if_pos h

theorem contract_of_le (hids : (candidates.map Candidate.id).Nodup) (hk : 1 ≤ o.k)
    (h : o.minPool ≤ (eligible o candidates).length) :
    Contract o (eligible o candidates) (selectAnchors o candidates).anchors := by
  rw [selectAnchors_eq o hids h]
  exact contract_picks hids hk

/-- The selection keeps its contract, or hands out the whole of a small pool. -/
theorem selectAnchors_contract (o : Options) (candidates : List Candidate)
    (hids : (candidates.map Candidate.id).Nodup) (hk : 1 ≤ o.k) :
    (((eligible o candidates).length : Int) < o.minPool →
      (selectAnchors o candidates).anchors = (admitted o candidates).map Candidate.id ∧
        (selectAnchors o candidates).fellBack = true) ∧
    (o.minPool ≤ (eligible o candidates).length →
      (selectAnchors o candidates).fellBack = false ∧
        Contract o (eligible o candidates) (selectAnchors o candidates).anchors) := by
  rw [fellBack_eq, decide_eq_true_iff, decide_eq_false_iff_not]
  constructor
  · intro hfew
    rw [selectAnchors_of_lt hfew]
    exact ⟨rfl, hfew⟩
  · exact fun hmany => ⟨not_lt.mpr hmany, contract_of_le hids hk hmany⟩

def coldDoor : Options where
  newId := js "c9"
  newRegion := some (js "a0")
  now := 200000
  k := 4
  minPool := 5

/-- Three bound candidates of two regions, two that have not said who they are, and a newcomer. -/
def coldPool : List Candidate :=
  [{ id := js "c1", admitted := true, since := 0, anchorUses := 0, region := none },
    { id := js "c2", admitted := true, since := 0, anchorUses := 2, region := none },
    { id := js "c3", admitted := true, since := 170000, anchorUses := 0, region := some (js "a0") },
    { id := js "c4", admitted := true, since := 150000, anchorUses := 1, region := some (js "a0") },
    { id := js "c5", admitted := true, since := 150000, anchorUses := 2, region := some (js "b1") },
    { id := js "c6", admitted := true, since := 199000, anchorUses := 0, region := some (js "c2") }]

theorem selectAnchors_contract_coldPool :
    (selectAnchors coldDoor coldPool).anchors = [js "c3", js "c4", js "c5", js "c1"] ∧
      (selectAnchors coldDoor coldPool).fellBack = false ∧
      Contract coldDoor (eligible coldDoor coldPool) (selectAnchors coldDoor coldPool).anchors :=
  ⟨by decide +kernel,
    (selectAnchors_contract coldDoor coldPool (by decide) (by decide)).2 (by decide)⟩

end AnchorSelect

end AxonaBridge
