import AxonaBridge.JsText

/-!
# The anchors a newcomer is introduced to

`selectAnchors`, `claimedRegion` and `orderSameRegionFirst` of `anchor_select.js`, with scores in
exact arithmetic. A pass over the scored candidates is a fold that adds nothing once its limit is
reached.
-/

open JsText

namespace AxonaBridge

namespace AnchorSelect

structure Candidate where
  id : JsString
  admitted : Bool
  since : Int
  anchorUses : Nat
  region : Option JsString

structure Options where
  newId : JsString
  newRegion : Option JsString
  now : Int
  k : Int := 8
  minUptimeMs : Int := 15000
  wLoad : ℚ := 35 / 100
  minPool : Int := 24

structure Selection where
  anchors : List JsString
  fellBack : Bool
  eligibleCount : Nat

structure Scored where
  id : JsString
  region : Option JsString
  s : ℚ

/-- A region that is a string with something in it. -/
def regionOf (region : Option JsString) : Option JsString := region.filter (· ≠ [])

variable (o : Options)

def admitted (candidates : List Candidate) : List Candidate :=
  candidates.filter fun c => c.admitted && c.id ≠ o.newId

def eligible (candidates : List Candidate) : List Candidate :=
  (admitted o candidates).filter fun c => o.minUptimeMs ≤ o.now - c.since

def maxUses (eligible : List Candidate) : Nat := eligible.foldl (fun m c => max m c.anchorUses) 0

/-- The score of a candidate: saturating uptime less the load relative to the most used one. -/
def score (maxUses : Nat) (c : Candidate) : Scored where
  id := c.id
  region := regionOf c.region
  s :=
    let uptimeN : ℚ := min 1 ((o.now - c.since : Int) / (o.minUptimeMs * 10 : Int))
    let loadN : ℚ := if 0 < maxUses then c.anchorUses / maxUses else 0
    uptimeN - o.wLoad * loadN

def scored (candidates : List Candidate) : List Scored :=
  let eligible := eligible o candidates
  (eligible.map (score o (maxUses eligible))).insertionSort fun a b => b.s ≤ a.s

/-- Pass 0: up to half of the slots for the newcomer's own region. -/
def sameRegion (newRegion : JsString) (scored : List Scored) : List JsString :=
  scored.foldl (fun chosen c =>
    if max 1 (o.k / 2) ≤ chosen.length then chosen
    else if c.region = some newRegion then chosen ++ [c.id] else chosen) []

/-- Pass 1: the best of each region not yet used. -/
def diverse (scored : List Scored) (start : List JsString × List JsString) :
    List JsString × List JsString :=
  scored.foldl (fun acc c =>
    if o.k ≤ acc.1.length then acc
    else match c.region with
      | none => acc
      | some region =>
          if region ∉ acc.2 ∧ c.id ∉ acc.1 then (acc.1 ++ [c.id], acc.2 ++ [region]) else acc) start

/-- Passes 2 and 3: the next best, of the bound candidates and then of all. -/
def fill (scored : List Scored) (chosen : List JsString) : List JsString :=
  scored.foldl (fun chosen c =>
    if o.k ≤ chosen.length then chosen
    else if c.id ∉ chosen then chosen ++ [c.id] else chosen) chosen

def selectAnchors (candidates : List Candidate) : Selection :=
  let eligible := eligible o candidates
  if (eligible.length : Int) < o.minPool then
    { anchors := (admitted o candidates).map Candidate.id
      fellBack := true
      eligibleCount := eligible.length }
  else
    let scored := scored o candidates
    let start := match regionOf o.newRegion with
      | none => ([], [])
      | some newR =>
          let chosen := sameRegion o newR scored
          (chosen, if chosen = [] then [] else [newR])
    let chosen := (diverse o scored start).1
    let chosen := fill o (scored.filter fun c => c.region.isSome) chosen
    { anchors := fill o scored chosen, fellBack := false, eligibleCount := eligible.length }

/-- The fallback is decided by the number of eligible candidates alone. -/
theorem fellBack_eq (candidates : List Candidate) :
    (selectAnchors o candidates).fellBack =
      decide (((eligible o candidates).length : Int) < o.minPool) := by
  unfold selectAnchors
  dsimp only
  split
  · rename_i hfew
    exact (decide_eq_true hfew).symm
  · rename_i hmany
    exact (decide_eq_false hmany).symm

/-! ### Who is chosen -/

/-- What a fold has gathered comes from where it started or from a turn. -/
theorem mem_foldl {α β γ : Type} (view : β → List γ) (f : β → α → β) (origin : α → γ)
    (h : ∀ b a, ∀ x ∈ view (f b a), x ∈ view b ∨ x = origin a) (as : List α) (b : β) :
    ∀ x ∈ view (as.foldl f b), x ∈ view b ∨ x ∈ as.map origin := by
  induction as generalizing b with
  | nil => exact fun x hx => Or.inl hx
  | cons a as ih =>
      intro x hx
      rcases ih (f b a) x hx with hx | hx
      · rcases h b a x hx with hx | rfl
        · exact Or.inl hx
        · exact Or.inr List.mem_cons_self
      · exact Or.inr (List.mem_cons_of_mem _ hx)

theorem mem_sameRegion (newRegion : JsString) (cs : List Scored) :
    ∀ x ∈ sameRegion o newRegion cs, x ∈ cs.map Scored.id := by
  intro x hx
  refine (mem_foldl (fun l : List JsString => l) _ Scored.id ?_ cs [] x hx).resolve_left (by simp)
  intro chosen c x hx
  split_ifs at hx
  · exact Or.inl hx
  · simpa using hx
  · exact Or.inl hx

theorem mem_diverse (cs : List Scored) (start : List JsString × List JsString) :
    ∀ x ∈ (diverse o cs start).1, x ∈ start.1 ∨ x ∈ cs.map Scored.id := by
  refine mem_foldl Prod.fst _ Scored.id ?_ cs start
  intro acc c x hx
  split at hx
  · exact Or.inl hx
  · split at hx
    · exact Or.inl hx
    · split at hx
      · simpa using hx
      · exact Or.inl hx

theorem mem_fill (cs : List Scored) (chosen : List JsString) :
    ∀ x ∈ fill o cs chosen, x ∈ chosen ∨ x ∈ cs.map Scored.id := by
  refine mem_foldl (fun l : List JsString => l) _ Scored.id ?_ cs chosen
  intro chosen c x hx
  split_ifs at hx
  · exact Or.inl hx
  · exact Or.inl hx
  · simpa using hx

theorem mem_scored {candidates : List Candidate} {x : JsString}
    (hx : x ∈ (scored o candidates).map Scored.id) : x ∈ (eligible o candidates).map Candidate.id := by
  obtain ⟨e, he, rfl⟩ := List.mem_map.mp hx
  rw [scored, List.mem_insertionSort] at he
  obtain ⟨c, hc, rfl⟩ := List.mem_map.mp he
  exact List.mem_map.mpr ⟨c, hc, rfl⟩

/-- The candidates the anchors are drawn from. -/
def pool (candidates : List Candidate) : List Candidate :=
  if ((eligible o candidates).length : Int) < o.minPool then admitted o candidates
  else eligible o candidates

theorem mem_pool_of_mem_selectAnchors {candidates : List Candidate} {x : JsString}
    (hx : x ∈ (selectAnchors o candidates).anchors) : x ∈ (pool o candidates).map Candidate.id := by
  unfold selectAnchors at hx
  dsimp only at hx
  unfold pool
  split at hx
  · rename_i hfew
    rw [if_pos hfew]
    exact hx
  · rename_i hmany
    rw [if_neg hmany]
    rcases mem_fill o _ _ x hx with hx | hx
    · rcases mem_fill o _ _ x hx with hx | hx
      · rcases mem_diverse o _ _ x hx with hx | hx
        · split at hx
          · cases hx
          · exact mem_scored o (mem_sameRegion o _ _ x hx)
        · exact mem_scored o hx
      · refine mem_scored o ?_
        obtain ⟨c, hc, rfl⟩ := List.mem_map.mp hx
        exact List.mem_map.mpr ⟨c, List.mem_of_mem_filter hc, rfl⟩
    · exact mem_scored o hx

/-- An anchor is an admitted candidate other than the newcomer. -/
theorem mem_selectAnchors {candidates : List Candidate} {x : JsString}
    (hx : x ∈ (selectAnchors o candidates).anchors) :
    x ∈ (admitted o candidates).map Candidate.id := by
  have hpool := mem_pool_of_mem_selectAnchors o hx
  unfold pool at hpool
  split at hpool
  · exact hpool
  · obtain ⟨c, hc, rfl⟩ := List.mem_map.mp hpool
    exact List.mem_map_of_mem (List.mem_of_mem_filter hc)

/-! ### No one is chosen twice -/

theorem sublist_sameRegion (newRegion : JsString) (cs : List Scored) :
    (sameRegion o newRegion cs).Sublist (cs.map Scored.id) := by
  have hfold : ∀ (cs : List Scored) (chosen : List JsString),
      (cs.foldl (fun chosen c =>
        if max 1 (o.k / 2) ≤ chosen.length then chosen
        else if c.region = some newRegion then chosen ++ [c.id] else chosen) chosen).Sublist
          (chosen ++ cs.map Scored.id) := by
    intro cs
    induction cs with
    | nil => exact fun chosen => List.sublist_append_left _ _
    | cons c cs ih =>
        intro chosen
        have hskip : (chosen ++ cs.map Scored.id).Sublist (chosen ++ (c :: cs).map Scored.id) :=
          (List.Sublist.refl chosen).append (List.sublist_cons_self _ _)
        rw [List.foldl_cons]
        split_ifs
        · exact (ih chosen).trans hskip
        · have htake := ih (chosen ++ [c.id])
          rw [List.append_assoc] at htake
          exact htake
        · exact (ih chosen).trans hskip
  exact hfold cs []

theorem nodup_concat {chosen : List JsString} {id : JsString} (h : chosen.Nodup) (hid : id ∉ chosen) :
    (chosen ++ [id]).Nodup := by
  refine List.nodup_append'.mpr ⟨h, List.nodup_singleton id, fun x hx hx' => hid ?_⟩
  exact List.mem_singleton.mp hx' ▸ hx

theorem nodup_diverse (cs : List Scored) (start : List JsString × List JsString) (h : start.1.Nodup) :
    (diverse o cs start).1.Nodup := by
  unfold diverse
  induction cs generalizing start with
  | nil => exact h
  | cons c cs ih =>
      rw [List.foldl_cons]
      refine ih _ ?_
      split
      · exact h
      · split
        · exact h
        · split
          · rename_i hnew
            exact nodup_concat h hnew.2
          · exact h

theorem nodup_fill (cs : List Scored) (chosen : List JsString) (h : chosen.Nodup) :
    (fill o cs chosen).Nodup := by
  unfold fill
  induction cs generalizing chosen with
  | nil => exact h
  | cons c cs ih =>
      rw [List.foldl_cons]
      refine ih _ ?_
      split_ifs with hfull hold
      · exact h
      · exact h
      · exact nodup_concat h hold

variable {candidates : List Candidate}

theorem nodup_admitted (h : (candidates.map Candidate.id).Nodup) :
    ((admitted o candidates).map Candidate.id).Nodup := h.sublist (List.filter_sublist.map _)

theorem nodup_scored (h : (candidates.map Candidate.id).Nodup) :
    ((scored o candidates).map Scored.id).Nodup := by
  have hperm := (List.perm_insertionSort (fun a b : Scored => b.s ≤ a.s)
    ((eligible o candidates).map (score o (maxUses (eligible o candidates))))).map Scored.id
  refine hperm.nodup_iff.mpr ?_
  rw [List.map_map]
  exact (nodup_admitted o h).sublist (List.filter_sublist.map _)

theorem nodup_selectAnchors (h : (candidates.map Candidate.id).Nodup) :
    (selectAnchors o candidates).anchors.Nodup := by
  unfold selectAnchors
  dsimp only
  split
  · exact nodup_admitted o h
  · refine nodup_fill o _ _ (nodup_fill o _ _ (nodup_diverse o _ _ ?_))
    split
    · exact List.nodup_nil
    · exact (nodup_scored o h).sublist (sublist_sameRegion o _ _)

end AnchorSelect

/-- A lower-case hexadecimal digit. -/
def isHexDigit (u : UInt16) : Bool := (48 ≤ u && u ≤ 57) || (97 ≤ u && u ≤ 102)

/-- `/^[0-9a-f]{66}$/` -/
def isHex66 (s : JsString) : Bool := s.length = 66 && s.all isHexDigit

/-- The region a client-hello claims, given its `nodeId` where that is a string. -/
def claimedRegion (nodeId : Option JsString) : Option JsString :=
  (nodeId.filter fun v => isHex66 v).map fun v => v.take 2

def orderSameRegionFirst (peers : List JsString) (regionOfId : JsString → Option JsString)
    (newRegion : Option JsString) : List JsString :=
  match newRegion.filter (· ≠ []) with
  | none => peers
  | some newR =>
      peers.filter (fun p => regionOfId p = some newR) ++
        peers.filter fun p => regionOfId p ≠ some newR

/-- The region-mates are put first, and nobody is lost. -/
theorem perm_orderSameRegionFirst (peers : List JsString) (regionOfId : JsString → Option JsString)
    (newRegion : Option JsString) : (orderSameRegionFirst peers regionOfId newRegion).Perm peers := by
  unfold orderSameRegionFirst
  split
  · exact List.Perm.refl _
  · rename_i newR _
    have hsplit := List.filter_append_perm (fun p => decide (regionOfId p = some newR)) peers
    simpa only [decide_not] using hsplit

theorem mem_of_mem_orderSameRegionFirst {peers : List JsString}
    {regionOfId : JsString → Option JsString} {newRegion : Option JsString} {x : JsString}
    (hx : x ∈ orderSameRegionFirst peers regionOfId newRegion) : x ∈ peers :=
  (perm_orderSameRegionFirst peers regionOfId newRegion).mem_iff.mp hx

end AxonaBridge
