import AxonaBridge.GraduationSelect
import AxonaBridge.FirstInOrder

/-!
# The best peer to release

What makes a candidate admissible, which of two goes first, and that `selectGraduate` returns an
admissible candidate none goes before, or nobody where nobody is admissible.
-/

open JsText

namespace AxonaBridge

namespace GraduationSelect

variable (o : Options) (candidates : List Candidate)

def Qualifies (c : Candidate) : Basis → Prop
  | .vitality => ∃ m, c.meshBound = some m ∧ o.safeFloor ≤ m
  | .ceiling => o.maxNurseryMs ≤ o.now - c.since
  | .uptime => c.meshBound = none ∧ o.minUptimeMs ≤ o.now - c.since

/-- The bound candidates of the region of `c`. -/
def occupancy (c : Candidate) : Nat := candidates.countP fun d => d.region = c.region

structure Admissible (c : Candidate) (basis : Basis) : Prop where
  listed : c ∈ candidates
  kernelOk : c.kernelOk = true
  bound : c.region ≠ none
  rested : c.inCooldown = false
  company : 2 ≤ occupancy candidates c
  qualifies : Qualifies o c basis

/-- An unknown mesh size is below every known one. -/
def MeshBelow : Option Nat → Option Nat → Prop
  | none, some _ => True
  | some m, some n => m < n
  | _, none => False

/-- The more occupied region first, in it the better meshed peer, and of equals the older one. -/
def Better (a b : Candidate) : Prop :=
  occupancy candidates b < occupancy candidates a ∨
    occupancy candidates a = occupancy candidates b ∧
      (MeshBelow b.meshBound a.meshBound ∨
        a.meshBound = b.meshBound ∧ a.since < b.since)

variable {o} {candidates} {c d : Candidate} {basis : Basis}

theorem basisOf_of_known {m : Nat} (h : c.meshBound = some m) : basisOf o c =
    if o.safeFloor ≤ m then some .vitality
    else if o.maxNurseryMs ≤ o.now - c.since then some .ceiling else none := by
  unfold basisOf
  rw [h]
  simp

theorem basisOf_of_unknown (h : c.meshBound = none) : basisOf o c =
    if o.maxNurseryMs ≤ o.now - c.since then some .ceiling
    else if o.minUptimeMs ≤ o.now - c.since then some .uptime else none := by
  unfold basisOf
  rw [h]
  simp

theorem qualifies_of_basisOf (h : basisOf o c = some basis) : Qualifies o c basis := by
  cases hmesh : c.meshBound with
  | none =>
      rw [basisOf_of_unknown hmesh] at h
      split_ifs at h with hceiling huptime
      · cases h
        exact hceiling
      · cases h
        exact ⟨hmesh, huptime⟩
  | some m =>
      rw [basisOf_of_known hmesh] at h
      split_ifs at h with hfloor hceiling
      · cases h
        exact ⟨m, hmesh, hfloor⟩
      · cases h
        exact hceiling

theorem basisOf_isSome (h : Qualifies o c basis) : (basisOf o c).isSome := by
  cases hmesh : c.meshBound with
  | none =>
      rw [basisOf_of_unknown hmesh]
      cases basis with
      | vitality =>
          obtain ⟨m, hm, -⟩ := h
          rw [hmesh] at hm
          cases hm
      | ceiling => rw [if_pos (show o.maxNurseryMs ≤ o.now - c.since from h)]; rfl
      | uptime => rw [if_pos h.2]; split <;> rfl
  | some m =>
      rw [basisOf_of_known hmesh]
      cases basis with
      | vitality =>
          obtain ⟨n, hn, hfloor⟩ := h
          rw [hmesh, Option.some.injEq] at hn
          rw [if_pos (hn ▸ hfloor)]
          rfl
      | ceiling =>
          rw [if_pos (show o.maxNurseryMs ≤ o.now - c.since from h)]
          split <;> rfl
      | uptime =>
          have hunknown := h.1
          rw [hmesh] at hunknown
          cases hunknown

theorem mem_eligible : c ∈ eligible o candidates ↔
    c ∈ candidates ∧ c.kernelOk = true ∧ c.region ≠ none ∧ c.inCooldown = false ∧
      (basisOf o c).isSome := by
  unfold eligible
  rw [List.mem_filter, Bool.and_eq_true, Bool.and_eq_true, Bool.and_eq_true, Bool.not_eq_true',
    Option.isSome_iff_ne_none, and_assoc, and_assoc]

theorem regionCount_eq (h : c.region ≠ none) : regionCount candidates c.region = occupancy candidates c := by
  unfold regionCount
  rw [if_neg (by rwa [Option.isNone_iff_eq_none])]
  rfl

theorem admissible_iff : (∃ basis, Admissible o candidates c basis) ↔
    c ∈ eligible o candidates ∧ 1 < regionCount candidates c.region := by
  rw [mem_eligible]
  constructor
  · rintro ⟨basis, h⟩
    rw [regionCount_eq h.bound]
    exact ⟨⟨h.listed, h.kernelOk, h.bound, h.rested, basisOf_isSome h.qualifies⟩, h.company⟩
  · rintro ⟨⟨hlisted, hkernel, hbound, hrested, hbasis⟩, hcompany⟩
    obtain ⟨basis, hbasis⟩ := Option.isSome_iff_exists.mp hbasis
    rw [regionCount_eq hbound] at hcompany
    exact ⟨basis, hlisted, hkernel, hbound, hrested, hcompany, qualifies_of_basisOf hbasis⟩

/-! ### The comparator -/

theorem mbKey_lt_iff : mbKey c < mbKey d ↔ MeshBelow c.meshBound d.meshBound := by
  unfold mbKey MeshBelow
  cases c.meshBound <;> cases d.meshBound
  · simp
  · simp only [iff_true]
    omega
  · simp only [iff_false]
    omega
  · exact Int.ofNat_lt

theorem mbKey_eq_iff : mbKey c = mbKey d ↔ c.meshBound = d.meshBound := by
  unfold mbKey
  cases c.meshBound <;> cases d.meshBound
  · simp
  · simp
  · simp
  · rw [Option.some.injEq]
    exact Int.ofNat_inj

theorem compare_le_iff : compare candidates c d ≤ 0 ↔
    regionCount candidates d.region < regionCount candidates c.region ∨
      regionCount candidates c.region = regionCount candidates d.region ∧
        (mbKey d < mbKey c ∨ mbKey c = mbKey d ∧ c.since ≤ d.since) := by
  unfold compare
  dsimp only
  split
  · omega
  · split <;> omega

theorem total_compare : Std.Total fun a b => compare candidates a b ≤ 0 := by
  refine ⟨fun a b => ?_⟩
  rw [compare_le_iff, compare_le_iff]
  omega

theorem trans_compare : IsTrans Candidate fun a b => compare candidates a b ≤ 0 := by
  refine ⟨fun a b c hab hbc => ?_⟩
  rw [compare_le_iff] at hab hbc ⊢
  omega

/-- Whoever goes first is not outdone. -/
theorem not_better_of_compare (hc : c.region ≠ none) (hd : d.region ≠ none)
    (h : compare candidates c d ≤ 0) : ¬Better candidates d c := by
  rw [compare_le_iff, regionCount_eq hc, regionCount_eq hd] at h
  unfold Better
  rw [← mbKey_lt_iff, ← mbKey_eq_iff]
  omega

/-! ### The search down the ranking -/

theorem find?_sorted : (sorted o candidates).find? (fun c => 1 < regionCount candidates c.region) =
      some c ↔
    List.FirstBy (fun a b => compare candidates a b ≤ 0) (eligible o candidates) c ∧
      1 < regionCount candidates c.region := by
  have htotal := @total_compare candidates
  have htrans := @trans_compare candidates
  unfold sorted
  rw [List.find?_insertionSort, decide_eq_true_iff]
  intro a b hab hb
  rw [compare_le_iff] at hab
  rw [decide_eq_true_iff] at hb ⊢
  omega

theorem selectGraduate_eq_none_iff : selectGraduate o candidates = none ↔
    ∀ c basis, ¬Admissible o candidates c basis := by
  unfold selectGraduate
  rw [Option.map_eq_none_iff, List.find?_eq_none]
  constructor
  · intro hnone c basis h
    obtain ⟨hmem, hcompany⟩ := admissible_iff.mp ⟨basis, h⟩
    refine hnone c ?_ (decide_eq_true hcompany)
    rw [sorted, List.mem_insertionSort]
    exact hmem
  · intro hnone c hc hcompany
    rw [sorted, List.mem_insertionSort] at hc
    obtain ⟨basis, h⟩ := admissible_iff.mpr ⟨hc, of_decide_eq_true hcompany⟩
    exact hnone c basis h

/-- The pick is an admissible candidate with nobody better, and there is none only where nobody is
admissible. -/
theorem selectGraduate_best (o : Options) (candidates : List Candidate) :
    (∀ p, selectGraduate o candidates = some p →
      ∃ c basis, Admissible o candidates c basis ∧
        p = { id := c.id, region := c.region, meshBound := c.meshBound, basis := some basis } ∧
        ∀ d basis', Admissible o candidates d basis' → ¬Better candidates d c) ∧
    (selectGraduate o candidates = none ↔ ∀ c basis, ¬Admissible o candidates c basis) := by
  refine ⟨fun p hp => ?_, selectGraduate_eq_none_iff⟩
  obtain ⟨c, hfind, rfl⟩ := Option.map_eq_some_iff.mp hp
  obtain ⟨hfirst, hcompany⟩ := find?_sorted.mp hfind
  obtain ⟨hlisted, hkernel, hbound, hrested, hbasis⟩ := mem_eligible.mp hfirst.mem
  obtain ⟨basis, hbasis⟩ := Option.isSome_iff_exists.mp hbasis
  rw [regionCount_eq hbound] at hcompany
  refine ⟨c, basis, ?_, by rw [hbasis], fun d basis' hd => ?_⟩
  · exact ⟨hlisted, hkernel, hbound, hrested, hcompany, qualifies_of_basisOf hbasis⟩
  · have htotal := @total_compare candidates
    have hmem := (admissible_iff.mp ⟨basis', hd⟩).1
    exact not_better_of_compare hbound hd.bound (hfirst.rel d hmem)

end GraduationSelect

end AxonaBridge
