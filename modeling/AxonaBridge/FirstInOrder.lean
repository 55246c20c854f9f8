import Mathlib.Data.List.Sort
import Mathlib.Order.Defs.Unbundled

/-!
# The head of a stable sort

For a total and transitive relation, the head of a list sorted by insertion is its first element by
the relation: no later one goes before it, and it goes before every earlier one. A search down the
sorted list for a test that gets no easier on the way ends at the head or nowhere.
-/

namespace List

variable {α : Type} (r : α → α → Prop)

/-- `a` is first in `l` by `r`, and of several that are equally good the one that stands first. -/
def FirstBy (l : List α) (a : α) : Prop :=
  ∃ l₁ l₂, l = l₁ ++ a :: l₂ ∧ (∀ b ∈ l₁, ¬r b a) ∧ ∀ b ∈ l₂, r a b

variable {r} {l : List α} {x a : α}

theorem not_firstBy_nil : ¬FirstBy r [] a := fun ⟨l₁, l₂, h, _⟩ => by cases l₁ <;> cases h

theorem firstBy_cons : FirstBy r (x :: l) a ↔ (a = x ∧ ∀ b ∈ l, r x b) ∨ (¬r x a ∧ FirstBy r l a) := by
  constructor
  · rintro ⟨l₁, l₂, h, hearlier, hlater⟩
    cases l₁ with
    | nil =>
        injection h with hx hl
        subst hx hl
        exact Or.inl ⟨rfl, hlater⟩
    | cons y l₁ =>
        injection h with hx hl
        subst hx
        refine Or.inr ⟨hearlier x mem_cons_self, l₁, l₂, hl, ?_, hlater⟩
        exact fun b hb => hearlier b (mem_cons_of_mem x hb)
  · rintro (⟨rfl, hlater⟩ | ⟨hx, l₁, l₂, rfl, hearlier, hlater⟩)
    · exact ⟨[], l, rfl, fun b hb => (by cases hb), hlater⟩
    · refine ⟨x :: l₁, l₂, rfl, fun b hb => ?_, hlater⟩
      rcases mem_cons.mp hb with rfl | hb
      · exact hx
      · exact hearlier b hb

theorem FirstBy.mem (h : FirstBy r l a) : a ∈ l := by
  obtain ⟨l₁, l₂, rfl, -, -⟩ := h
  exact mem_append_right l₁ mem_cons_self

/-- The first element goes before every one. -/
theorem FirstBy.rel [Std.Total r] (h : FirstBy r l a) : ∀ b ∈ l, r a b := by
  obtain ⟨l₁, l₂, rfl, hearlier, hlater⟩ := h
  intro b hb
  rcases mem_append.mp hb with hb | hb
  · exact (Std.Total.total a b).resolve_right (hearlier b hb)
  · rcases mem_cons.mp hb with rfl | hb
    · exact (Std.Total.total b b).elim (fun h => h) fun h => h
    · exact hlater b hb

variable [DecidableRel r]

theorem head?_orderedInsert (x : α) (l : List α) :
    (l.orderedInsert r x).head? = match l.head? with
      | none => some x
      | some a => if r x a then some x else some a := by
  cases l with
  | nil => rfl
  | cons a l =>
      rw [orderedInsert_cons]
      dsimp only [head?_cons]
      split <;> rfl

/-- The head of a list sorted by insertion. -/
theorem head?_insertionSort [Std.Total r] [IsTrans α r] :
    (l.insertionSort r).head? = some a ↔ FirstBy r l a := by
  induction l generalizing a with
  | nil => exact ⟨fun h => (by cases h), fun h => absurd h not_firstBy_nil⟩
  | cons x l ih =>
      rw [insertionSort_cons, head?_orderedInsert, firstBy_cons]
      cases hhead : (l.insertionSort r).head? with
      | none =>
          have hnil : l = [] := by
            rw [head?_eq_none_iff, ← length_eq_zero_iff, length_insertionSort, length_eq_zero_iff] at hhead
            exact hhead
          subst hnil
          dsimp only
          rw [Option.some.injEq, eq_comm]
          constructor
          · exact fun h => Or.inl ⟨h, fun b hb => (by cases hb)⟩
          · rintro (⟨h, -⟩ | ⟨-, h⟩)
            · exact h
            · exact absurd h not_firstBy_nil
      | some h =>
          have hfirst : FirstBy r l h := ih.mp hhead
          dsimp only
          split
          · rename_i hx
            rw [Option.some.injEq, eq_comm]
            constructor
            · exact fun heq => Or.inl ⟨heq, fun b hb => IsTrans.trans x h b hx (hfirst.rel b hb)⟩
            · rintro (⟨heq, -⟩ | ⟨hnot, ha⟩)
              · exact heq
              · exact absurd (IsTrans.trans x h a hx (hfirst.rel a ha.mem)) hnot
          · rename_i hx
            rw [Option.some.injEq]
            constructor
            · rintro rfl
              exact Or.inr ⟨hx, hfirst⟩
            · rintro (⟨rfl, hall⟩ | ⟨-, ha⟩)
              · exact absurd (hall h hfirst.mem) hx
              · exact Option.some.inj ((ih.mpr hfirst).symm.trans (ih.mpr ha))

/-- A search for a test that whatever goes before an element that passes it passes as well. -/
theorem find?_insertionSort [Std.Total r] [IsTrans α r] {p : α → Bool}
    (hp : ∀ a b, r a b → p b = true → p a = true) :
    (l.insertionSort r).find? p = some a ↔ FirstBy r l a ∧ p a = true := by
  have hsorted : (l.insertionSort r).Pairwise r := pairwise_insertionSort r l
  rw [← head?_insertionSort]
  generalize l.insertionSort r = sorted at hsorted
  cases sorted with
  | nil => exact ⟨fun h => (by cases h), fun h => (by cases h.1)⟩
  | cons h t =>
      rw [head?_cons, Option.some.injEq]
      cases hph : p h with
      | true =>
          rw [find?_cons_of_pos hph, Option.some.injEq]
          exact ⟨fun heq => ⟨heq, heq ▸ hph⟩, fun h => h.1⟩
      | false =>
          constructor
          · intro hfind
            rw [find?_cons_of_neg (by simp [hph])] at hfind
            have hrel : r h a := (pairwise_cons.mp hsorted).1 a (mem_of_find?_eq_some hfind)
            rw [hp h a hrel (find?_some hfind)] at hph
            cases hph
          · rintro ⟨rfl, hpa⟩
            rw [hph] at hpa
            cases hpa

/-- Some element of a list is first. -/
theorem exists_firstBy [Std.Total r] [IsTrans α r] (h : l ≠ []) : ∃ a, FirstBy r l a := by
  have hsorted : l.insertionSort r ≠ [] := by
    rw [← length_pos_iff, length_insertionSort]
    exact length_pos_iff.mpr h
  obtain ⟨a, ha⟩ := Option.isSome_iff_exists.mp (isSome_head?.mpr hsorted)
  exact ⟨a, head?_insertionSort.mp ha⟩

theorem FirstBy.unique [Std.Total r] [IsTrans α r] {b : α} (ha : FirstBy r l a) (hb : FirstBy r l b) :
    a = b :=
  Option.some.inj ((head?_insertionSort.mpr ha).symm.trans (head?_insertionSort.mpr hb))

end List
