import Mathlib.Data.List.Perm.Basic

/-!
# Folds that do not depend on the order

A fold whose steps commute in every state it can be in, with what is then still to come, ends in the same
state whatever the order.
-/

namespace OrderFree

variable {σ α : Type*} {f : σ → α → σ} {C : σ → List α → Prop} {s : σ} {as bs : List α}

/-- Where the steps commute under a condition on the state and on what is to come that does not look at
its order and that every step keeps, the order does not matter. -/
theorem foldl_perm (hperm : ∀ s as bs, as.Perm bs → C s as → C s bs)
    (hstep : ∀ s a as, C s (a :: as) → C (f s a) as)
    (hswap : ∀ s a b as, C s (a :: b :: as) → f (f s a) b = f (f s b) a)
    (h : as.Perm bs) (hC : C s as) : as.foldl f s = bs.foldl f s := by
  induction h generalizing s with
  | nil => rfl
  | cons a _ ih => exact ih (hstep s a _ hC)
  | swap b a as => exact congrArg (as.foldl f) (hswap s a b as hC)
  | trans h _ ih ih' => exact (ih hC).trans (ih' (hperm s _ _ h hC))

/-- Two members that differ can be brought to the front. -/
theorem exists_perm_of_mem {a b : α} (ha : a ∈ as) (hb : b ∈ as) (hne : b ≠ a) :
    ∃ rest, as.Perm (a :: b :: rest) := by
  obtain ⟨l, r, rfl⟩ := List.append_of_mem ha
  have hmem : b ∈ l ++ r := by
    rcases List.mem_append.mp hb with hb | hb
    · exact List.mem_append_left r hb
    · exact List.mem_append_right l ((List.mem_cons.mp hb).resolve_left hne)
  obtain ⟨l', r', hsplit⟩ := List.append_of_mem hmem
  refine ⟨l' ++ r', List.perm_middle.trans (List.Perm.cons a ?_)⟩
  rw [hsplit]
  exact List.perm_middle

end OrderFree
