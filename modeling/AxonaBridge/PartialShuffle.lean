import Mathlib.Data.List.Basic
import Mathlib.Data.List.Nodup
import Mathlib.Data.Set.Function

/-!
# A partial Fisher–Yates shuffle

Step `i` swaps position `i` with one at or behind it; the first `m` positions are what is drawn. Each
draw is a number reduced to the range that remains. On distinct elements the sequences of draws in range
and the ordered tuples of distinct elements stand in bijection, so drawing uniformly picks a tuple
uniformly.
-/

namespace PartialShuffle

variable {α : Type}

/-- One swap, by the draw at its place. -/
def swap (draws : List Nat) (xs : List α) (i : Nat) : List α :=
  let j := i + draws.getD i 0 % (xs.length - i)
  match xs[i]?, xs[j]? with
  | some a, some b => (xs.set i b).set j a
  | _, _ => xs

/-- The first `m` elements after `m` swaps. -/
def pick (m : Nat) (draws : List Nat) (xs : List α) : List α :=
  ((List.range m).foldl (swap draws) xs).take m

/-- The sequences of `m` draws from `n`, each in the range that remains at its step. -/
def Draws (n m : Nat) : Set (List Nat) :=
  { ds | ds.length = m ∧ ∀ i (h : i < ds.length), ds[i] < n - i }

/-- The ordered tuples of `m` distinct members. -/
def Tuples (xs : List α) (m : Nat) : Set (List α) :=
  { l | l.length = m ∧ l.Nodup ∧ l ⊆ xs }

variable {draws ds : List Nat} {xs ys : List α} {a b : α} {d i m n : Nat}

theorem swap_perm (draws : List Nat) (xs : List α) (i : Nat) : (swap draws xs i).Perm xs := by
  unfold swap
  dsimp only
  split
  · rename_i a b ha hb
    obtain ⟨hi, rfl⟩ := List.getElem?_eq_some_iff.mp ha
    obtain ⟨hj, rfl⟩ := List.getElem?_eq_some_iff.mp hb
    exact List.set_set_perm hi hj
  · rfl

theorem foldl_swap_perm (draws is : List Nat) (xs : List α) : (is.foldl (swap draws) xs).Perm xs := by
  induction is generalizing xs with
  | nil => rfl
  | cons i is ih => exact (ih _).trans (swap_perm draws xs i)

theorem pick_subset : pick m draws xs ⊆ xs := fun _ h =>
  (foldl_swap_perm _ _ xs).mem_iff.mp (List.mem_of_mem_take h)

/-! ### The first step and the others -/

theorem swap_cons_succ : swap (d :: ds) (a :: xs) (i + 1) = a :: swap ds xs i := by
  have hlen : (a :: xs).length - (i + 1) = xs.length - i := by simp
  have hj : i + 1 + ds.getD i 0 % (xs.length - i) = i + ds.getD i 0 % (xs.length - i) + 1 := by omega
  simp only [swap, hlen, List.getD_cons_succ, hj, List.getElem?_cons_succ]
  split <;> rfl

theorem foldl_swap_cons (is : List Nat) :
    (is.map (· + 1)).foldl (swap (d :: ds)) (a :: xs) = a :: is.foldl (swap ds) xs := by
  induction is generalizing xs with
  | nil => rfl
  | cons i is ih => rw [List.map_cons, List.foldl_cons, swap_cons_succ, ih, List.foldl_cons]

theorem pick_succ (h : swap (d :: ds) xs 0 = b :: ys) :
    pick (m + 1) (d :: ds) xs = b :: pick m ds ys := by
  rw [pick, List.range_succ_eq_map, List.foldl_cons, h, foldl_swap_cons, List.take_succ_cons, pick]

/-- The first swap brings the element drawn to the front, whatever is drawn after it. -/
theorem exists_swap_zero (xs : List α) (hd : d < xs.length) :
    ∃ ys, (∀ ds, swap (d :: ds) xs 0 = xs[d] :: ys) ∧ (xs[d] :: ys).Perm xs := by
  obtain ⟨x, rest, rfl⟩ := List.exists_cons_of_length_pos (Nat.zero_lt_of_lt hd)
  suffices h : ∃ ys, ∀ ds, swap (d :: ds) (x :: rest) 0 = (x :: rest)[d] :: ys by
    obtain ⟨ys, hys⟩ := h
    exact ⟨ys, hys, hys [] ▸ swap_perm [d] (x :: rest) 0⟩
  have hmod : d % (x :: rest).length = d := Nat.mod_eq_of_lt hd
  cases d with
  | zero => exact ⟨rest, fun ds => by simp [swap]⟩
  | succ k =>
      have hk : k < rest.length := Nat.lt_of_succ_lt_succ hd
      refine ⟨rest.set k x, fun ds => ?_⟩
      simp only [swap, Nat.sub_zero, List.getD_cons_zero, hmod, Nat.zero_add,
        List.getElem?_cons_zero, List.getElem?_cons_succ, List.getElem?_eq_getElem hk,
        List.set_cons_zero, List.set_cons_succ, List.getElem_cons_succ]

/-! ### Draws and tuples -/

theorem mem_draws_cons : d :: ds ∈ Draws n (m + 1) ↔ d < n ∧ ds ∈ Draws (n - 1) m := by
  constructor
  · rintro ⟨hlen, hlt⟩
    refine ⟨hlt 0 (Nat.succ_pos _), by simpa using hlen, fun i hi => ?_⟩
    have := hlt (i + 1) (by simpa using hi)
    simpa [Nat.sub_sub, Nat.add_comm] using this
  · rintro ⟨hd, hlen, hlt⟩
    refine ⟨by simp [hlen], fun i hi => ?_⟩
    cases i with
    | zero => simpa using hd
    | succ i =>
        have := hlt i (by simpa using hi)
        simpa [Nat.sub_sub, Nat.add_comm] using this

theorem exists_cons_of_mem_draws (h : ds ∈ Draws n (m + 1)) :
    ∃ d rest, ds = d :: rest ∧ d < n ∧ rest ∈ Draws (n - 1) m := by
  obtain ⟨d, rest, rfl⟩ := List.exists_cons_of_length_pos (by rw [h.1]; exact Nat.succ_pos m)
  exact ⟨d, rest, rfl, mem_draws_cons.mp h⟩

/-- The tuples from what the first swap leaves are those that go on from the element drawn. -/
theorem mem_tuples_cons (h : (a :: ys).Perm xs) (hxs : xs.Nodup) {l : List α} :
    a :: l ∈ Tuples xs (m + 1) ↔ l ∈ Tuples ys m := by
  have hnotin : a ∉ ys := (List.nodup_cons.mp (h.nodup_iff.mpr hxs)).1
  constructor
  · rintro ⟨hlen, hnd, hsub⟩
    obtain ⟨hal, hl⟩ := List.nodup_cons.mp hnd
    refine ⟨by simpa using hlen, hl, fun b hb => ?_⟩
    have hmem : b ∈ a :: ys := h.mem_iff.mpr (hsub (List.mem_cons_of_mem a hb))
    exact (List.mem_cons.mp hmem).resolve_left fun heq => hal (heq ▸ hb)
  · rintro ⟨hlen, hnd, hsub⟩
    refine ⟨by simp [hlen], List.nodup_cons.mpr ⟨fun hal => hnotin (hsub hal), hnd⟩, ?_⟩
    rintro b hb
    refine h.mem_iff.mp ?_
    rcases List.mem_cons.mp hb with rfl | hb
    · exact List.mem_cons_self
    · exact List.mem_cons_of_mem a (hsub hb)

/-- Every ordered tuple of distinct members arises from exactly one sequence of draws. -/
theorem pick_bijOn (hxs : xs.Nodup) (hm : m ≤ xs.length) :
    Set.BijOn (fun ds => pick m ds xs) (Draws xs.length m) (Tuples xs m) := by
  induction m generalizing xs with
  | zero =>
      refine ⟨fun ds _ => ⟨rfl, List.nodup_nil, List.nil_subset _⟩, fun ds hds ds' hds' _ => ?_,
        fun l hl => ⟨[], ⟨rfl, fun i hi => absurd hi (Nat.not_lt_zero i)⟩, ?_⟩⟩
      · rw [List.eq_nil_of_length_eq_zero hds.1, List.eq_nil_of_length_eq_zero hds'.1]
      · exact (List.eq_nil_of_length_eq_zero hl.1).symm
  | succ m ih =>
      -- The rest of the draws picks from what the first swap leaves behind the element drawn.
      have hrest : ∀ d (hd : d < xs.length), ∃ ys, (xs[d] :: ys).Perm xs ∧
          (∀ ds, pick (m + 1) (d :: ds) xs = xs[d] :: pick m ds ys) ∧
          Set.BijOn (fun ds => pick m ds ys) (Draws (xs.length - 1) m) (Tuples ys m) := by
        intro d hd
        obtain ⟨ys, hswap, hperm⟩ := exists_swap_zero xs hd
        have hlen : ys.length = xs.length - 1 := by rw [← hperm.length_eq, List.length_cons]; rfl
        have hys : ys.Nodup := (List.nodup_cons.mp (hperm.nodup_iff.mpr hxs)).2
        refine ⟨ys, hperm, fun ds => pick_succ (hswap ds), ?_⟩
        exact hlen ▸ ih hys (by omega)
      refine ⟨fun ds hds => ?_, fun ds hds ds' hds' heq => ?_, fun l hl => ?_⟩
      · obtain ⟨d, rest, rfl, hd, hin⟩ := exists_cons_of_mem_draws hds
        obtain ⟨ys, hperm, hpick, hbij⟩ := hrest d hd
        change pick (m + 1) (d :: rest) xs ∈ Tuples xs (m + 1)
        rw [hpick, mem_tuples_cons hperm hxs]
        exact hbij.mapsTo hin
      · obtain ⟨d, rest, rfl, hd, hin⟩ := exists_cons_of_mem_draws hds
        obtain ⟨d', rest', rfl, hd', hin'⟩ := exists_cons_of_mem_draws hds'
        obtain ⟨ys, -, hpick, hbij⟩ := hrest d hd
        obtain ⟨ys', -, hpick', -⟩ := hrest d' hd'
        have heq : pick (m + 1) (d :: rest) xs = pick (m + 1) (d' :: rest') xs := heq
        have hfirst : xs[d] = xs[d'] := by
          rw [hpick, hpick'] at heq
          exact (List.cons.inj heq).1
        obtain rfl : d = d' := (List.Nodup.getElem_inj_iff hxs).mp hfirst
        rw [hpick, hpick] at heq
        rw [hbij.injOn hin hin' (List.cons.inj heq).2]
      · obtain ⟨a, l, rfl⟩ := List.exists_cons_of_length_pos (by rw [hl.1]; exact Nat.succ_pos m)
        obtain ⟨d, hd, rfl⟩ := List.getElem_of_mem (hl.2.2 List.mem_cons_self)
        obtain ⟨ys, hperm, hpick, hbij⟩ := hrest d hd
        obtain ⟨ds, hds, hpicked⟩ := hbij.surjOn ((mem_tuples_cons hperm hxs).mp hl)
        refine ⟨d :: ds, mem_draws_cons.mpr ⟨hd, hds⟩, ?_⟩
        exact (hpick ds).trans (congrArg (xs[d] :: ·) hpicked)

end PartialShuffle
