import Mathlib.Algebra.Order.Monoid.Unbundled.Basic
import Mathlib.Data.List.TakeWhile
import Mathlib.Tactic.Common

/-!
# A sliding window over a log of times

A log grows at its end; of it a window of width `W` holds a suffix, from which entries at least `W` old
may be dropped at the front. The window then holds every entry of any interval of width `W` that reaches
past the present moment, so that a bound on what the window holds bounds what such an interval holds.
-/

namespace SlidingWindow

variable {α : Type*} [Add α] [LinearOrder α] {W t t' T : α} {log kept : List α}

/-- At `t` the window holds `kept` of the log: what came before is at least `W` old. -/
def Holds (W t : α) (log kept : List α) : Prop :=
  ∃ gone, log = gone ++ kept ∧ ∀ x ∈ gone, x + W ≤ t

theorem holds_nil : Holds W t [] ([] : List α) := ⟨[], rfl, fun _ h => by cases h⟩

theorem Holds.later (h : Holds W t log kept) (htt : t ≤ t') : Holds W t' log kept := by
  obtain ⟨gone, hlog, hold⟩ := h
  exact ⟨gone, hlog, fun x hx => (hold x hx).trans htt⟩

theorem Holds.dropWhile (h : Holds W t log kept) (old : α → Bool) (hold : ∀ x, old x = true → x + W ≤ t) :
    Holds W t log (kept.dropWhile old) := by
  obtain ⟨gone, hlog, hgone⟩ := h
  refine ⟨gone ++ kept.takeWhile old, ?_, fun x hx => ?_⟩
  · rw [List.append_assoc, List.takeWhile_append_dropWhile, hlog]
  · rcases List.mem_append.mp hx with hx | hx
    · exact hgone x hx
    · exact hold x (List.mem_takeWhile_imp hx)

theorem Holds.push (h : Holds W t log kept) (x : α) : Holds W t (log ++ [x]) (kept ++ [x]) := by
  obtain ⟨gone, hlog, hgone⟩ := h
  exact ⟨gone, by rw [hlog, List.append_assoc], hgone⟩

/-- Everything from `T` on is still held while less than `W` has passed since `T`. -/
theorem Holds.countP_le [AddRightReflectLT α] (h : Holds W t log kept) (hT : t < T + W) :
    log.countP (fun x => T ≤ x) ≤ kept.length := by
  obtain ⟨gone, rfl, hgone⟩ := h
  have hnone : gone.countP (fun x => T ≤ x) = 0 := by
    rw [List.countP_eq_zero]
    intro x hx
    have hlt : x < T := lt_of_add_lt_add_right ((hgone x hx).trans_lt hT)
    simpa using hlt
  rw [List.countP_append, hnone, Nat.zero_add]
  exact List.countP_le_length

omit [Add α] in
/-- A log whose entries are not earlier has no fewer entries from `T` on. -/
theorem countP_le_of_forall₂ {log' : List α} (h : List.Forall₂ (· ≤ ·) log log') :
    log.countP (fun x => T ≤ x) ≤ log'.countP (fun x => T ≤ x) := by
  induction h with
  | nil => exact le_rfl
  | @cons x y _ _ hle _ ih =>
      by_cases hx : T ≤ x
      · have hy : T ≤ y := hx.trans hle
        simpa [List.countP_cons, hx, hy] using ih
      · rw [List.countP_cons_of_neg (by simpa using hx), List.countP_cons]
        exact ih.trans (Nat.le_add_right _ _)

end SlidingWindow
