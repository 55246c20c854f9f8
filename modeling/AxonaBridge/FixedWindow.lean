import Mathlib.Algebra.Order.Monoid.Unbundled.Basic
import Mathlib.Tactic.Common

/-!
# Windows that the first to come opens

A sequence of times falls into windows: the first opens one, which takes what comes before a width has
passed since, and the next to come opens the next. Of an interval of that width at most two windows have
a part.
-/

namespace FixedWindow

variable {α β : Type*} [Add α] [LinearOrder α] {W start a : α} {seen ts : List α} {ws : List (List α)}

/-- Carry on with a window that was opened at `start` and has `seen` in it. -/
def windowsFrom (W start : α) (seen : List α) : List α → List (List α)
  | [] => [seen]
  | t :: ts =>
      if t < start + W then windowsFrom W start (seen ++ [t]) ts
      else seen :: windowsFrom W t [t] ts

/-- The windows of a sequence of times. -/
def windows (W : α) : List α → List (List α)
  | [] => []
  | t :: ts => windowsFrom W t [t] ts

theorem flatten_windowsFrom : (windowsFrom W start seen ts).flatten = seen ++ ts := by
  induction ts generalizing start seen with
  | nil => simp [windowsFrom]
  | cons t ts ih =>
      rw [windowsFrom]
      split
      · rw [ih, List.append_assoc, List.singleton_append]
      · rw [List.flatten_cons, ih, List.singleton_append]

/-- Nothing is lost between the windows. -/
theorem flatten_windows (W : α) (ts : List α) : (windows W ts).flatten = ts := by
  cases ts with
  | nil => rfl
  | cons t ts => exact flatten_windowsFrom

/-- What comes at one time is in one window. -/
theorem windows_replicate {t : α} (n : Nat) (hwidth : t < t + W) :
    windows W (List.replicate (n + 1) t) = [List.replicate (n + 1) t] := by
  have hgo : ∀ n k, windowsFrom W t (List.replicate k t) (List.replicate n t) = [List.replicate (k + n) t] := by
    intro n
    induction n with
    | zero => exact fun k => rfl
    | succ n ih =>
        intro k
        rw [List.replicate_succ, windowsFrom, if_pos hwidth, ← List.replicate_succ', ih,
          Nat.succ_add_eq_add_succ]
  have hall := hgo n 1
  rw [Nat.add_comm] at hall
  exact hall

/-- What is made of the windows one by one tells what is made of each, where its length is known. -/
theorem flatMap_inj {γ : Type*} {f g : List β → List γ} {ws : List (List β)}
    (hlength : ∀ w, (f w).length = (g w).length) :
    ws.flatMap f = ws.flatMap g ↔ ∀ w ∈ ws, f w = g w := by
  induction ws with
  | nil => simp
  | cons w ws ih =>
      rw [List.flatMap_cons, List.flatMap_cons, List.forall_mem_cons, ← ih]
      exact ⟨fun h => List.append_inj h (hlength w), fun h => by rw [h.1, h.2]⟩

/-- Each window has its first time and what comes within the width of it, and the others come after. -/
inductive Laid (W : α) : List (List α) → Prop
  | nil : Laid W []
  | cons {start : α} {w : List α} {ws : List (List α)} (hstart : start ∈ w)
      (hw : ∀ t ∈ w, start ≤ t ∧ t < start + W) (hlater : ∀ w' ∈ ws, ∀ t ∈ w', start + W ≤ t)
      (hws : Laid W ws) : Laid W (w :: ws)

theorem laid_windowsFrom (hwidth : ∀ t : α, t < t + W) (hstart : start ∈ seen)
    (hseen : ∀ t ∈ seen, start ≤ t ∧ t < start + W) (hts : ts.Pairwise (· ≤ ·))
    (hfrom : ∀ t ∈ ts, start ≤ t) : Laid W (windowsFrom W start seen ts) := by
  induction ts generalizing start seen with
  | nil => exact .cons hstart hseen (fun _ h => by cases h) .nil
  | cons t ts ih =>
      obtain ⟨hfirst, hrest⟩ := List.pairwise_cons.mp hts
      rw [windowsFrom]
      split
      · rename_i hin
        refine ih (List.mem_append_left _ hstart) (fun u hu => ?_) hrest
          fun u hu => hfrom u (List.mem_cons_of_mem _ hu)
        rcases List.mem_append.mp hu with hu | hu
        · exact hseen u hu
        · rw [List.mem_singleton.mp hu]
          exact ⟨hfrom t List.mem_cons_self, hin⟩
      · rename_i hout
        refine .cons hstart hseen (fun w hw u hu => ?_) (ih (List.mem_singleton_self t) (fun u hu => ?_)
          hrest hfirst)
        · have hflatten : (windowsFrom W t [t] ts).flatten = [t] ++ ts := flatten_windowsFrom
          have hmem : u ∈ [t] ++ ts := hflatten ▸ List.mem_flatten_of_mem hw hu
          rcases List.mem_append.mp hmem with hmem | hmem
          · rw [List.mem_singleton.mp hmem]
            exact not_lt.mp hout
          · exact (not_lt.mp hout).trans (hfirst u hmem)
        · rw [List.mem_singleton.mp hu]
          exact ⟨le_rfl, hwidth t⟩

theorem laid_windows (hwidth : ∀ t : α, t < t + W) (hts : ts.Pairwise (· ≤ ·)) : Laid W (windows W ts) := by
  cases ts with
  | nil => exact .nil
  | cons t ts =>
      obtain ⟨hfirst, hrest⟩ := List.pairwise_cons.mp hts
      refine laid_windowsFrom hwidth (List.mem_singleton_self t) (fun u hu => ?_) hrest hfirst
      rw [List.mem_singleton.mp hu]
      exact ⟨le_rfl, hwidth t⟩

/-! ### A bound on each window bounds every interval -/

section Count

variable [AddRightMono α] {pick : List α → List α} {R : Nat}

/-- Where every time is at `a` or later, the first window alone has a part in the interval from `a`. -/
theorem Laid.countP_le (h : Laid W ws) (hsub : ∀ w, pick w ⊆ w) (hlen : ∀ w, (pick w).length ≤ R)
    (ha : ∀ w ∈ ws, ∀ t ∈ w, a ≤ t) : (ws.flatMap pick).countP (fun t => a ≤ t ∧ t < a + W) ≤ R := by
  cases h with
  | nil => exact Nat.zero_le _
  | @cons start w ws hstart hw hlater hws =>
      have hnone : (ws.flatMap pick).countP (fun t => a ≤ t ∧ t < a + W) = 0 := by
        refine List.countP_eq_zero.mpr fun t ht => ?_
        obtain ⟨w', hw', hmem⟩ := List.mem_flatMap.mp ht
        have hpast : a + W ≤ t := calc
          a + W ≤ start + W := by gcongr; exact ha w List.mem_cons_self start hstart
          _ ≤ t := hlater w' hw' t (hsub w' hmem)
        simpa using fun _ => hpast
      rw [List.flatMap_cons, List.countP_append, hnone, Nat.add_zero]
      exact List.countP_le_length.trans (hlen w)

/-- At most two windows have a part in an interval of their width. -/
theorem Laid.countP_le_two_mul (h : Laid W ws) (hsub : ∀ w, pick w ⊆ w)
    (hlen : ∀ w, (pick w).length ≤ R) (a : α) :
    (ws.flatMap pick).countP (fun t => a ≤ t ∧ t < a + W) ≤ 2 * R := by
  induction h with
  | nil => exact Nat.zero_le _
  | @cons start w ws hstart hw hlater hws ih =>
      rw [List.flatMap_cons, List.countP_append]
      by_cases hpart : ∃ t ∈ w, a ≤ t
      · obtain ⟨t, ht, hat⟩ := hpart
        have hrest := hws.countP_le (a := a) hsub hlen fun w' hw' u hu =>
          (hat.trans (hw t ht).2.le).trans (hlater w' hw' u hu)
        have hfirst : (pick w).countP (fun t => a ≤ t ∧ t < a + W) ≤ R :=
          List.countP_le_length.trans (hlen w)
        omega
      · have hnone : (pick w).countP (fun t => a ≤ t ∧ t < a + W) = 0 := by
          refine List.countP_eq_zero.mpr fun t ht => ?_
          have hbefore : ¬a ≤ t := fun hat => hpart ⟨t, hsub w ht, hat⟩
          simp [hbefore]
        rw [hnone, Nat.zero_add]
        exact ih

end Count

end FixedWindow
