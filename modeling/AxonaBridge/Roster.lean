import Mathlib.Data.List.Lattice
import Mathlib.Tactic.Common

/-!
# Rosters

Who watches a group from outside is told of it by notices: of members that are there, or of one that
left. The roster is what those notices come to. `Told` says of the notices of one change of the group
that they are true and leave no departure out; a roster then stays within the group, keeps whoever
stays and has whoever was named.
-/

inductive Notice (κ : Type) where
  | here (ks : List κ)
  | left (k : κ)

namespace Roster

variable {κ : Type}

/-- Some notice names `k` as there. -/
def Names (ns : List (Notice κ)) (k : κ) : Prop := ∃ ks, .here ks ∈ ns ∧ k ∈ ks

/-- The notices of a change of the group from `members` to `members'`. -/
structure Told (members members' : κ → Prop) (ns : List (Notice κ)) : Prop where
  here : ∀ k, Names ns k → members' k
  left : ∀ k, .left k ∈ ns → ¬members' k
  gone : ∀ k, members k → ¬members' k → .left k ∈ ns

section Names

variable {ns : List (Notice κ)} {k : κ}

theorem names_cons_here {ks : List κ} : Names (.here ks :: ns) k ↔ k ∈ ks ∨ Names ns k := by
  constructor
  · rintro ⟨ls, hmem, hk⟩
    rcases List.mem_cons.mp hmem with heq | hmem
    · cases heq
      exact Or.inl hk
    · exact Or.inr ⟨ls, hmem, hk⟩
  · rintro (hk | ⟨ls, hmem, hk⟩)
    · exact ⟨ks, List.mem_cons_self, hk⟩
    · exact ⟨ls, List.mem_cons_of_mem _ hmem, hk⟩

theorem names_cons_left {k' : κ} : Names (.left k' :: ns) k ↔ Names ns k := by
  constructor
  · rintro ⟨ls, hmem, hk⟩
    rcases List.mem_cons.mp hmem with heq | hmem
    · cases heq
    · exact ⟨ls, hmem, hk⟩
  · rintro ⟨ls, hmem, hk⟩
    exact ⟨ls, List.mem_cons_of_mem _ hmem, hk⟩

end Names

variable [DecidableEq κ]

def learn (r : List κ) : Notice κ → List κ
  | .here ks => r ∪ ks
  | .left k => r.filter (· ≠ k)

/-- What the notices come to. -/
def roster (ns : List (Notice κ)) : List κ := ns.foldl learn []

variable {r : List κ} {n : Notice κ} {ns ms : List (Notice κ)} {k : κ} {members members' : κ → Prop}

theorem roster_append : roster (ns ++ ms) = ms.foldl learn (roster ns) := List.foldl_append

/-- Nobody is on a roster who was not named. -/
theorem mem_or_names (h : k ∈ ns.foldl learn r) : k ∈ r ∨ Names ns k := by
  induction ns generalizing r with
  | nil => exact Or.inl h
  | cons n ns ih =>
      cases n with
      | here ks =>
          rw [names_cons_here]
          rcases ih h with hmem | hnames
          · exact (List.mem_union_iff.mp hmem).imp_right Or.inl
          · exact Or.inr (Or.inr hnames)
      | left k' =>
          rw [names_cons_left]
          exact (ih h).imp_left List.mem_of_mem_filter

/-- Who was on the roster or is named stays on it, unless said to have left. -/
theorem mem_of_not_left (hleft : .left k ∉ ns) (h : k ∈ r ∨ Names ns k) : k ∈ ns.foldl learn r := by
  induction ns generalizing r with
  | nil =>
      refine h.resolve_right ?_
      rintro ⟨ks, hmem, -⟩
      cases hmem
  | cons n ns ih =>
      refine ih (fun hmem => hleft (List.mem_cons_of_mem _ hmem)) ?_
      cases n with
      | here ks =>
          rw [names_cons_here] at h
          rw [learn, List.mem_union_iff]
          tauto
      | left k' =>
          rw [names_cons_left] at h
          refine h.imp_left fun hmem => List.mem_filter.mpr ⟨hmem, decide_eq_true fun heq => hleft ?_⟩
          rw [heq]
          exact List.mem_cons_self

/-- Who left is off the roster, unless named as there. -/
theorem not_mem_of_left (hnames : ¬Names ns k) (hleft : .left k ∈ ns) : k ∉ ns.foldl learn r := by
  induction ns generalizing r with
  | nil => cases hleft
  | cons n ns ih =>
      rcases List.mem_cons.mp hleft with heq | hmem
      · rw [← heq, names_cons_left] at hnames
        rw [← heq]
        intro h
        have hrest : k ∈ ns.foldl learn (r.filter (· ≠ k)) := h
        rcases mem_or_names hrest with hmem | h
        · exact of_decide_eq_true (List.mem_filter.mp hmem).2 rfl
        · exact hnames h
      · refine ih (fun h => hnames ?_) hmem
        obtain ⟨ks, hks, hk⟩ := h
        exact ⟨ks, List.mem_cons_of_mem _ hks, hk⟩

namespace Told

/-- A roster within the group stays within it. -/
theorem within (h : Told members members' ns) (hr : ∀ k ∈ r, members k) :
    ∀ k ∈ ns.foldl learn r, members' k := by
  intro k hk
  by_contra hgone
  rcases mem_or_names hk with hmem | hnames
  · exact not_mem_of_left (fun hnames => hgone (h.here k hnames)) (h.gone k (hr k hmem) hgone) hk
  · exact hgone (h.here k hnames)

/-- A member that was on the roster or is named is on it after the change. -/
theorem mem (h : Told members members' ns) (hk : members' k) (hmem : k ∈ r ∨ Names ns k) :
    k ∈ ns.foldl learn r :=
  mem_of_not_left (fun hleft => h.left k hleft hk) hmem

end Told

end Roster
