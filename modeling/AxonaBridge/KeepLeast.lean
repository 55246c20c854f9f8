import Mathlib.Data.List.Sort

/-!
# The least members of a stream

A list of at most `K` members in the order of their keys, into which the members of a stream are put one by
one, the greatest going out when there are too many. With keys that differ it is, at the end, the first `K`
members of the sorted stream.
-/

namespace KeepLeast

variable {α ι : Type*} [LinearOrder ι] (key : α → ι) (K : Nat)

/-- The key of the one is at most that of the other. -/
abbrev Before (a b : α) : Prop := key a ≤ key b

/-- Put a member among those kept. -/
def keep (top : List α) (x : α) : List α :=
  if top.length < K then top.orderedInsert (Before key) x
  else
    match top[K - 1]? with
    | none => top
    | some last => if key x < key last then (top.orderedInsert (Before key) x).dropLast else top

variable {key K} {x : α} {xs S : List α}

/-- The first members after an insertion are those of the first members with it. -/
theorem take_orderedInsert (r : α → α → Prop) [DecidableRel r] :
    (S.orderedInsert r x).take K = ((S.take K).orderedInsert r x).take K := by
  induction S generalizing K with
  | nil => rw [List.take_nil]
  | cons b S ih =>
      cases K with
      | zero => rw [List.take_zero, List.take_zero]
      | succ K =>
          rw [List.take_succ_cons, List.orderedInsert_cons, List.orderedInsert_cons]
          by_cases hr : r x b
          · rw [if_pos hr, if_pos hr, List.take_succ_cons, List.take_succ_cons]
            cases K with
            | zero => rw [List.take_zero, List.take_zero]
            | succ K => rw [List.take_succ_cons, List.take_succ_cons, List.take_take, Nat.min_eq_left (Nat.le_succ K)]
          · rw [if_neg hr, if_neg hr, List.take_succ_cons, List.take_succ_cons, ih]

/-- A member beyond all others goes to the end. -/
theorem orderedInsert_of_lt (h : ∀ b ∈ S, key b < key x) : S.orderedInsert (Before key) x = S ++ [x] := by
  induction S with
  | nil => rfl
  | cons b S ih =>
      have hb := not_le.mpr (h b List.mem_cons_self)
      rw [List.orderedInsert_cons, if_neg hb, ih fun c hc => h c (List.mem_cons_of_mem _ hc)]
      rfl

theorem length_keep_le {top : List α} (hK : 0 < K) (h : top.length ≤ K) (x : α) :
    (keep key K top x).length ≤ K := by
  unfold keep
  by_cases hroom : top.length < K
  · rw [if_pos hroom, List.orderedInsert_length]
    exact hroom
  · rw [if_neg hroom, List.getElem?_eq_getElem (by omega : K - 1 < top.length)]
    dsimp only
    split
    · rw [List.length_dropLast, List.orderedInsert_length]
      exact h
    · exact h

/-- **The step.** Keeping a member among the first of a sorted list keeps the first of the list with it. -/
theorem keep_take (hK : 0 < K) (hsorted : S.Pairwise fun a b => key a < key b) (hnew : ∀ b ∈ S, key b ≠ key x) :
    keep key K (S.take K) x = (S.orderedInsert (Before key) x).take K := by
  rw [take_orderedInsert]
  generalize htop : S.take K = top
  have hle : top.length ≤ K := htop ▸ List.length_take_le K S
  have hsorted : top.Pairwise fun a b => key a < key b := htop ▸ hsorted.sublist (List.take_sublist K S)
  have hnew : ∀ b ∈ top, key b ≠ key x := fun b hb => hnew b (List.mem_of_mem_take (htop ▸ hb))
  have hlength : (top.orderedInsert (Before key) x).length = top.length + 1 := List.orderedInsert_length _ _ _
  unfold keep
  by_cases hroom : top.length < K
  · rw [if_pos hroom, List.take_of_length_le (by omega)]
  · have hfull : top.length = K := by omega
    have hlast : K - 1 < top.length := by omega
    rw [if_neg hroom, List.getElem?_eq_getElem hlast]
    dsimp only
    by_cases hless : key x < key top[K - 1]
    · rw [if_pos hless, List.dropLast_eq_take, hlength, hfull, Nat.add_sub_cancel]
    · rw [if_neg hless, orderedInsert_of_lt, List.take_left' hfull]
      intro b hb
      obtain ⟨i, hi, rfl⟩ := List.mem_iff_getElem.mp hb
      have hbefore : key top[i] ≤ key top[K - 1] := by
        rcases Nat.lt_or_ge i (K - 1) with hlt | hge
        · exact (List.pairwise_iff_getElem.mp hsorted i (K - 1) hi hlast hlt).le
        · have heq : i = K - 1 := by omega
          subst heq
          exact le_rfl
      exact lt_of_le_of_ne (hbefore.trans (not_lt.mp hless)) (hnew _ hb)

instance total_before : Std.Total (Before key) := ⟨fun a b => le_total (key a) (key b)⟩

instance trans_before : IsTrans α (Before key) := ⟨fun _ _ _ => le_trans⟩

/-- Two sorted lists of the same members with distinct keys are equal. -/
theorem eq_of_sorted {T : List α} (hS : S.Pairwise (Before key)) (hT : T.Pairwise (Before key))
    (hperm : S.Perm T) (hdistinct : (S.map key).Nodup) : S = T := by
  refine hperm.eq_of_pairwise (fun a b ha hb hab hba => ?_) hS hT
  exact List.inj_on_of_nodup_map hdistinct ha (hperm.mem_iff.mpr hb) (le_antisymm hab hba)

theorem sorted_lt (hS : S.Pairwise (Before key)) (hdistinct : (S.map key).Nodup) :
    S.Pairwise fun a b => key a < key b :=
  (hS.and (List.pairwise_map.mp hdistinct)).imp fun h => lt_of_le_of_ne h.1 h.2

/-- **The run.** What is kept of a stream beside the first of a sorted list are the first members of any
sorted list of all of them. -/
theorem foldl_keep_take {T : List α} (hK : 0 < K) (hS : S.Pairwise (Before key)) (hT : T.Pairwise (Before key))
    (hperm : (S ++ xs).Perm T) (hdistinct : (T.map key).Nodup) :
    xs.foldl (keep key K) (S.take K) = T.take K := by
  induction xs generalizing S with
  | nil =>
      rw [List.append_nil] at hperm
      rw [List.foldl_nil, eq_of_sorted hS hT hperm ((hperm.map key).nodup_iff.mpr hdistinct)]
  | cons x xs ih =>
      have hall : ((S ++ x :: xs).map key).Nodup := (hperm.map key).nodup_iff.mpr hdistinct
      rw [List.map_append, List.map_cons, List.nodup_append] at hall
      obtain ⟨hdistinctS, -, hapart⟩ := hall
      have hnew : ∀ b ∈ S, key b ≠ key x := fun b hb =>
        hapart (key b) (List.mem_map.mpr ⟨b, hb, rfl⟩) (key x) List.mem_cons_self
      rw [List.foldl_cons, keep_take hK (sorted_lt hS hdistinctS) hnew]
      refine ih (hS.orderedInsert x S) ?_
      have hmoved := ((S.perm_orderedInsert (Before key) x).append_right xs).trans List.perm_middle.symm
      exact hmoved.trans hperm

theorem foldl_keep (hK : 0 < K) (hdistinct : (xs.map key).Nodup) :
    xs.foldl (keep key K) [] = (xs.insertionSort (Before key)).take K := by
  have hperm := xs.perm_insertionSort (Before key)
  have hrun := foldl_keep_take (S := []) hK List.Pairwise.nil (xs.pairwise_insertionSort (Before key))
    hperm.symm ((hperm.map key).nodup_iff.mpr hdistinct)
  rwa [List.take_nil] at hrun

end KeepLeast
