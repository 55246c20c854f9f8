import AxonaBridge.AnchorSelect
import AxonaBridge.Picks

/-!
# The four passes of the selection

What each pass of `selectAnchors` adds to the chosen, in closed form over the ranked candidates: the
region-mates, then the best of each region not yet used, then whoever is left, the bound ones first.
-/

open JsText

namespace AxonaBridge

namespace AnchorSelect

variable (o : Options) (newR : Option JsString) (ranked : List Scored)

/-- How many of the newcomer's own region go first. -/
def Options.quota (o : Options) : Nat := (max 1 (o.k / 2)).toNat

def Options.slots (o : Options) : Nat := o.k.toNat

def mates : List Scored :=
  (ranked.filter fun c => c.region.isSome ∧ c.region = newR).take o.quota

def usedRegions : List JsString := if (mates o newR ranked).isEmpty then [] else newR.toList

def regionHeads : List Scored :=
  (List.firsts Scored.region (usedRegions o newR ranked) ranked).take
    (o.slots - (mates o newR ranked).length)

/-- The chosen, filled up from those that are not chosen yet. -/
def topUp (ranked chosen : List Scored) : List Scored :=
  chosen ++ (ranked.filter fun c => c.id ∉ chosen.map Scored.id).take (o.slots - chosen.length)

def bound : List Scored := ranked.filter fun c => c.region.isSome

/-- The first two passes. -/
def opening : List Scored := mates o newR ranked ++ regionHeads o newR ranked

def boundPicks : List Scored := topUp o (bound ranked) (opening o newR ranked)

def picks : List Scored := topUp o ranked (boundPicks o newR ranked)

/-! ### The folds compute the passes -/

variable {ranked}

theorem sameRegion_eq (newR : JsString) :
    sameRegion o newR ranked = (mates o (some newR) ranked).map Scored.id := by
  have hfold := List.foldl_until o.quota (fun _ c => c.region = some newR) Scored.id
    (List.pairwise_of_forall (l := ranked) fun _ _ _ => Iff.rfl) []
  rw [List.nil_append, List.length_nil, Nat.sub_zero] at hfold
  have hmates : ranked.filter (fun c => c.region.isSome ∧ c.region = some newR) =
      ranked.filter fun c => c.region = some newR := by
    refine List.filter_congr fun c _ => decide_eq_decide.mpr (and_iff_right_of_imp fun h => ?_)
    rw [h]
    rfl
  rw [mates, hmates, ← hfold, sameRegion]
  simp only [Options.quota, Int.toNat_le]

theorem fill_eq (h : (ranked.map Scored.id).Nodup) (chosen : List Scored) :
    fill o ranked (chosen.map Scored.id) = (topUp o ranked chosen).map Scored.id := by
  have hnew : ranked.Pairwise fun a b =>
      ∀ taken : List JsString, b.id ∉ taken ++ [a.id] ↔ b.id ∉ taken := by
    refine (List.pairwise_map.mp h).imp fun {a b} hne taken => ?_
    rw [List.mem_append, List.mem_singleton, or_iff_left (Ne.symm hne)]
  have hfold := List.foldl_until o.slots (fun taken c => c.id ∉ taken) Scored.id hnew
    (chosen.map Scored.id)
  rw [topUp, List.map_append, ← List.length_map Scored.id, ← hfold, fill]
  simp only [Options.slots, Int.toNat_le]

theorem diverse_eq (h : (ranked.map Scored.id).Nodup) (chosen : List Scored) (used : List JsString)
    (hnew : ∀ c ∈ ranked, ∀ region, c.region = some region → region ∉ used →
      c.id ∉ chosen.map Scored.id) :
    (diverse o ranked (chosen.map Scored.id, used)).1 =
      (chosen ++ (List.firsts Scored.region used ranked).take (o.slots - chosen.length)).map
        Scored.id := by
  induction ranked generalizing chosen used with
  | nil => rw [List.firsts, List.take_nil, List.append_nil]; rfl
  | cons c ranked ih =>
      obtain ⟨hc, hids⟩ := List.nodup_cons.mp (List.map_cons ▸ h)
      have hrest := fun d hd => hnew d (List.mem_cons_of_mem c hd)
      unfold diverse at ih ⊢
      rw [List.foldl_cons]
      by_cases hfull : o.k ≤ ((chosen.map Scored.id).length : Int)
      · have hroom : o.slots - chosen.length = 0 := by
          rw [List.length_map, ← Int.toNat_le] at hfull
          exact Nat.sub_eq_zero_of_le hfull
        rw [if_pos hfull, ih hids chosen used hrest, hroom, List.take_zero, List.take_zero]
      · rw [if_neg hfull]
        have hslots : o.slots - chosen.length = o.slots - (chosen ++ [c]).length + 1 := by
          rw [List.length_map, ← Int.toNat_le] at hfull
          rw [List.length_append, List.length_singleton]
          unfold Options.slots
          omega
        cases hregion : c.region with
        | none =>
            dsimp only
            rw [ih hids chosen used hrest, List.firsts_cons_of_none hregion]
        | some region =>
            dsimp only
            by_cases hused : region ∈ used
            · rw [if_neg fun h => h.1 hused, ih hids chosen used hrest,
                List.firsts_cons_of_used hregion hused]
            · rw [if_pos ⟨hused, hnew c List.mem_cons_self region hregion hused⟩,
                List.firsts_cons_of_new hregion hused, hslots, List.take_succ_cons]
              have hchosen : chosen.map Scored.id ++ [c.id] = (chosen ++ [c]).map Scored.id := by
                rw [List.map_append, List.map_singleton]
              rw [hchosen, ih hids, List.append_assoc, List.singleton_append]
              intro d hd region' hregion' hunused hmem
              rw [← hchosen, List.mem_append, List.mem_singleton] at hmem
              rcases hmem with hmem | heq
              · refine hrest d hd region' hregion' (fun hin => hunused ?_) hmem
                exact List.mem_append_left _ hin
              · exact hc (heq ▸ List.mem_map_of_mem hd)

/-! ### The first two passes -/

variable {newR} {c : Scored}

theorem mem_of_id_mem (h : (ranked.map Scored.id).Nodup) {chosen : List Scored}
    (hsub : ∀ d ∈ chosen, d ∈ ranked) (hc : c ∈ ranked) (hid : c.id ∈ chosen.map Scored.id) :
    c ∈ chosen := by
  obtain ⟨d, hd, heq⟩ := List.mem_map.mp hid
  rwa [List.inj_on_of_nodup_map h (hsub d hd) hc heq] at hd

theorem mem_mates (hc : c ∈ mates o newR ranked) :
    c ∈ ranked ∧ c.region.isSome ∧ c.region = newR := by
  obtain ⟨hmem, hregion⟩ := List.mem_filter.mp (List.mem_of_mem_take hc)
  exact ⟨hmem, of_decide_eq_true hregion⟩

theorem mem_regionHeads (hc : c ∈ regionHeads o newR ranked) :
    c ∈ List.firsts Scored.region (usedRegions o newR ranked) ranked := List.mem_of_mem_take hc

/-- A region is used when a region-mate was chosen. -/
theorem mem_usedRegions {region : JsString} :
    region ∈ usedRegions o newR ranked ↔ ∃ c ∈ mates o newR ranked, c.region = some region := by
  unfold usedRegions
  cases hmates : mates o newR ranked with
  | nil => exact ⟨fun h => absurd h List.not_mem_nil, fun ⟨_, h, _⟩ => absurd h List.not_mem_nil⟩
  | cons d rest =>
      have hall : ∀ c ∈ d :: rest, c.region = newR := fun c hc => (mem_mates o (hmates ▸ hc)).2.2
      rw [List.isEmpty_cons, if_neg Bool.false_ne_true, Option.mem_toList]
      constructor
      · exact fun h => ⟨d, List.mem_cons_self, (hall d List.mem_cons_self).trans h⟩
      · rintro ⟨c, hc, hregion⟩
        exact (hall c hc).symm.trans hregion

/-- Nobody whose region is not used yet is chosen yet. -/
theorem not_mem_mates_of_unused (h : (ranked.map Scored.id).Nodup) {region : JsString}
    (hc : c ∈ ranked) (hregion : c.region = some region)
    (hunused : region ∉ usedRegions o newR ranked) : c.id ∉ (mates o newR ranked).map Scored.id := by
  intro hid
  have hmate := mem_of_id_mem h (fun d hd => (mem_mates o hd).1) hc hid
  exact hunused ((mem_usedRegions o).mpr ⟨c, hmate, hregion⟩)

theorem selectAnchors_eq {candidates : List Candidate} (h : (candidates.map Candidate.id).Nodup)
    (hpool : o.minPool ≤ (eligible o candidates).length) :
    (selectAnchors o candidates).anchors =
      (picks o (regionOf o.newRegion) (scored o candidates)).map Scored.id := by
  have hids := nodup_scored o h
  have hbound : ((bound (scored o candidates)).map Scored.id).Nodup :=
    hids.sublist (List.filter_sublist.map _)
  have hheads := diverse_eq o hids (mates o (regionOf o.newRegion) (scored o candidates))
    (usedRegions o (regionOf o.newRegion) (scored o candidates))
    fun c hc region hregion hunused => not_mem_mates_of_unused o hids hc hregion hunused
  unfold selectAnchors
  rw [if_neg (not_lt.mpr hpool)]
  dsimp only
  rw [picks, ← fill_eq o hids, boundPicks, ← fill_eq o hbound, opening, regionHeads, ← hheads]
  cases hnew : regionOf o.newRegion with
  | none =>
      have hnone : mates o none (scored o candidates) = [] := by
        refine List.eq_nil_iff_forall_not_mem.mpr fun c hc => ?_
        obtain ⟨-, hsome, hregion⟩ := mem_mates o hc
        rw [hregion] at hsome
        cases hsome
      dsimp only
      rw [usedRegions, hnone]
      rfl
  | some newR =>
      dsimp only
      rw [usedRegions, sameRegion_eq]
      cases mates o (some newR) (scored o candidates) <;> rfl

/-! ### Filling up -/

section TopUp

variable {chosen : List Scored}

theorem mem_topUp : c ∈ chosen → c ∈ topUp o ranked chosen := List.mem_append_left _

theorem of_mem_topUp (hc : c ∈ topUp o ranked chosen) : c ∈ chosen ∨ c ∈ ranked :=
  (List.mem_append.mp hc).imp_right fun h => List.mem_of_mem_filter (List.mem_of_mem_take h)

theorem nodup_topUp (h : (ranked.map Scored.id).Nodup) (hchosen : (chosen.map Scored.id).Nodup) :
    ((topUp o ranked chosen).map Scored.id).Nodup := by
  rw [← fill_eq o h]
  exact nodup_fill o _ _ hchosen

/-- The chosen are full once somebody is left out. -/
theorem slots_le_length_topUp (hc : c ∈ ranked) (hleft : c.id ∉ (topUp o ranked chosen).map Scored.id) :
    o.slots ≤ (topUp o ranked chosen).length := by
  unfold topUp at hleft ⊢
  rw [List.map_append, List.mem_append, not_or] at hleft
  have hnew : c ∈ ranked.filter fun c => c.id ∉ chosen.map Scored.id :=
    List.mem_filter.mpr ⟨hc, decide_eq_true hleft.1⟩
  rw [List.length_append, List.length_take_of_mem_of_not_mem hnew
    fun h => hleft.2 (List.mem_map_of_mem h)]
  omega

theorem topUp_of_full (h : o.slots ≤ chosen.length) : topUp o ranked chosen = chosen := by
  rw [topUp, Nat.sub_eq_zero_of_le h, List.take_zero, List.append_nil]

/-- Whoever is filled in goes before those who are left. -/
theorem rel_of_mem_topUp {r : Scored → Scored → Prop} (h : ranked.Pairwise r) {u v : Scored}
    (hv : v ∈ topUp o ranked chosen) (hvnew : v ∉ chosen) (hu : u ∈ ranked)
    (hleft : u.id ∉ (topUp o ranked chosen).map Scored.id) : r v u := by
  unfold topUp at hv hleft
  rw [List.map_append, List.mem_append, not_or] at hleft
  have hunew : u ∈ ranked.filter fun c => c.id ∉ chosen.map Scored.id :=
    List.mem_filter.mpr ⟨hu, decide_eq_true hleft.1⟩
  exact List.rel_of_mem_take (h.sublist List.filter_sublist)
    ((List.mem_append.mp hv).resolve_left hvnew) hunew fun h => hleft.2 (List.mem_map_of_mem h)

/-- As many are chosen as there are slots, or all. -/
theorem length_topUp (h : (ranked.map Scored.id).Nodup) (hchosen : (chosen.map Scored.id).Nodup)
    (hsub : ∀ c ∈ chosen, c ∈ ranked) (hslots : chosen.length ≤ o.slots) :
    (topUp o ranked chosen).length = min o.slots ranked.length := by
  have hold : (ranked.filter fun c => c.id ∈ chosen.map Scored.id).length = chosen.length := by
    refine (((List.perm_ext_iff_of_nodup ((h.of_map _).filter _) (hchosen.of_map _)).mpr ?_)).length_eq
    intro c
    rw [List.mem_filter, decide_eq_true_iff]
    constructor
    · exact fun ⟨hc, hid⟩ => mem_of_id_mem h hsub hc hid
    · exact fun hc => ⟨hsub c hc, List.mem_map_of_mem hc⟩
  have hsplit := (List.filter_append_perm (fun c => c.id ∈ chosen.map Scored.id) ranked).length_eq
  rw [List.length_append, hold] at hsplit
  simp only [← decide_not] at hsplit
  rw [topUp, List.length_append, List.length_take, ← hsplit]
  omega

end TopUp

end AnchorSelect

end AxonaBridge
