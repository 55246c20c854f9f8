import AxonaBridge.JsMap
import Mathlib.Logic.Function.Basic

/-!
# A map that may forget what is over

Keys are marked with a time, and an entry may be dropped once its time is over. Whether a key's last mark
is not over yet is then the same question of the map as of all the marks.
-/

namespace Cooldown

variable {κ α : Type} [DecidableEq κ] {past past' : α → Prop} {map : JsMap κ α} {last : κ → Option α}
  {k : κ} {t : α}

/-- The map has the last mark of every key, but for some that are over. -/
def Remembers (past : α → Prop) (map : JsMap κ α) (last : κ → Option α) : Prop :=
  ∀ k, map.get k = last k ∨ map.get k = none ∧ ∀ t, last k = some t → past t

namespace Remembers

theorem empty : Remembers past (JsMap.empty : JsMap κ α) fun _ => none := fun _ => Or.inl rfl

theorem later (h : Remembers past map last) (hpast : ∀ t, past t → past' t) :
    Remembers past' map last := fun k =>
  (h k).imp id fun ⟨hnone, hlast⟩ => ⟨hnone, fun t ht => hpast t (hlast t ht)⟩

theorem set (h : Remembers past map last) (k : κ) (t : α) :
    Remembers past (map.set k t) (Function.update last k (some t)) := by
  intro l
  rw [JsMap.get_set]
  by_cases hl : l = k
  · rw [if_pos hl, hl, Function.update_self]
    exact Or.inl rfl
  · rw [if_neg hl, Function.update_of_ne hl]
    exact h l

theorem filter (h : Remembers past map last) {p : κ × α → Bool}
    (hp : ∀ e, p e = false → past e.2) : Remembers past (map.filter p) last := by
  intro k
  rw [JsMap.get_filter]
  rcases h k with heq | ⟨hnone, hpast⟩
  · cases hk : map.get k with
    | none => exact Or.inl (by rw [← heq, hk]; rfl)
    | some t =>
        cases hpt : p (k, t) with
        | true => exact Or.inl (by rw [← heq, hk, Option.filter_some, if_pos hpt])
        | false =>
            refine Or.inr ⟨by rw [Option.filter_some, if_neg (by simp [hpt])], fun u hu => ?_⟩
            rw [← heq, hk] at hu
            cases hu
            exact hp (k, t) hpt
  · exact Or.inr ⟨by rw [hnone]; rfl, hpast⟩

theorem delete (h : Remembers past map last) (hpast : ∀ t, map.get k = some t → past t) :
    Remembers past (map.delete k) last := by
  intro l
  rw [JsMap.get_delete]
  by_cases hl : l = k
  · rw [if_pos hl, hl]
    refine Or.inr ⟨rfl, fun t ht => ?_⟩
    rcases h k with heq | ⟨-, hlast⟩
    · exact hpast t (heq.trans ht)
    · exact hlast t ht
  · rw [if_neg hl]
    exact h l

theorem live_iff (h : Remembers past map last) (k : κ) :
    (∃ t, map.get k = some t ∧ ¬past t) ↔ ∃ t, last k = some t ∧ ¬past t := by
  rcases h k with heq | ⟨hnone, hpast⟩
  · rw [heq]
  · rw [hnone]
    constructor
    · rintro ⟨t, ht, -⟩
      cases ht
    · rintro ⟨t, ht, hlive⟩
      exact absurd (hpast t ht) hlive

end Remembers

end Cooldown
