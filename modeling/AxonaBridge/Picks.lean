import Mathlib.Data.List.Basic

/-!
# The first few of a list, and the first of each kind

Taking the first few of an ordered list leaves nothing behind that goes before what is taken.
`firsts` walks a list and takes each element whose key nobody before it had: it takes at most one
element of a key, and of every new key the one that stands first.
-/

namespace List

variable {α β κ : Type} {r : α → α → Prop} {l : List α} {a b : α}

/-- What is taken goes before what is left. -/
theorem rel_of_mem_take {n : Nat} (h : l.Pairwise r) (ha : a ∈ l.take n) (hb : b ∈ l)
    (hleft : b ∉ l.take n) : r a b := by
  rw [← take_append_drop n l] at h hb
  have hdrop : b ∈ l.drop n := (mem_append.mp hb).resolve_left hleft
  exact (pairwise_append.mp h).2.2 a ha b hdrop

/-- Where someone is left, as many are taken as were asked for. -/
theorem length_take_of_mem_of_not_mem {n : Nat} (hb : b ∈ l) (hleft : b ∉ l.take n) :
    (l.take n).length = n := by
  refine length_take_of_le (Nat.le_of_not_le fun hall => hleft ?_)
  rw [take_of_length_le hall]
  exact hb

/-- A fold that adds what passes a test until it holds enough, where taking an element does not
change the test for those after it. -/
theorem foldl_until (limit : Nat) (p : List β → α → Prop) [∀ taken, DecidablePred (p taken)]
    (f : α → β) (hp : l.Pairwise fun a b => ∀ taken, p (taken ++ [f a]) b ↔ p taken b)
    (taken : List β) :
    l.foldl (fun taken a =>
      if limit ≤ taken.length then taken else if p taken a then taken ++ [f a] else taken) taken =
      taken ++ ((l.filter fun a => p taken a).take (limit - taken.length)).map f := by
  induction l generalizing taken with
  | nil => rw [foldl_nil, filter_nil, take_nil, map_nil, append_nil]
  | cons a l ih =>
      obtain ⟨ha, hl⟩ := pairwise_cons.mp hp
      rw [foldl_cons, ih hl]
      by_cases hfull : limit ≤ taken.length
      · rw [if_pos hfull, Nat.sub_eq_zero_of_le hfull, take_zero, take_zero]
      · rw [if_neg hfull]
        by_cases hpa : p taken a
        · have hroom : limit - taken.length = limit - (taken ++ [f a]).length + 1 := by
            rw [length_append, length_singleton]
            omega
          have hrest : l.filter (fun b => p (taken ++ [f a]) b) = l.filter fun b => p taken b :=
            filter_congr fun b hb => decide_eq_decide.mpr (ha b hb taken)
          rw [if_pos hpa, filter_cons_of_pos (by simp [hpa]), hrest, hroom, take_succ_cons, map_cons,
            append_assoc, singleton_append]
        · rw [if_neg hpa, filter_cons_of_neg (by simp [hpa])]

variable [DecidableEq κ] (key : α → Option κ)

/-- The first element of each key that is not used yet. -/
def firsts : List κ → List α → List α
  | _, [] => []
  | used, a :: l =>
      match key a with
      | none => firsts used l
      | some k => if k ∈ used then firsts used l else a :: firsts (used ++ [k]) l

variable {key} {used : List κ}

theorem firsts_cons_of_none (h : key a = none) : firsts key used (a :: l) = firsts key used l := by
  rw [firsts, h]

theorem firsts_cons_of_used {k : κ} (h : key a = some k) (hk : k ∈ used) :
    firsts key used (a :: l) = firsts key used l := by
  rw [firsts, h]
  exact if_pos hk

theorem firsts_cons_of_new {k : κ} (h : key a = some k) (hk : k ∉ used) :
    firsts key used (a :: l) = a :: firsts key (used ++ [k]) l := by
  rw [firsts, h]
  exact if_neg hk

/-- What is taken is the first of its key, and its key was not used. -/
theorem mem_firsts :
    a ∈ firsts key used l ↔ ∃ k, k ∉ used ∧ l.find? (fun b => key b = some k) = some a := by
  induction l generalizing used with
  | nil => exact ⟨fun h => absurd h not_mem_nil, fun ⟨_, _, h⟩ => by cases h⟩
  | cons b l ih =>
      cases hkey : key b with
      | none =>
          rw [firsts_cons_of_none hkey, ih]
          refine exists_congr fun k => and_congr_right fun _ => ?_
          rw [find?_cons_of_neg (by simp [hkey])]
      | some k' =>
          by_cases hused : k' ∈ used
          · rw [firsts_cons_of_used hkey hused, ih]
            refine exists_congr fun k => and_congr_right fun hk => ?_
            have hne : k' ≠ k := fun heq => hk (heq ▸ hused)
            rw [find?_cons_of_neg (by simp [hkey, hne])]
          · rw [firsts_cons_of_new hkey hused, mem_cons, ih]
            constructor
            · rintro (rfl | ⟨k, hk, hfind⟩)
              · exact ⟨k', hused, find?_cons_of_pos (by simp [hkey])⟩
              · have hne : k' ≠ k := fun heq => hk (mem_append_right _ (mem_singleton.mpr heq.symm))
                refine ⟨k, fun h => hk (mem_append_left _ h), ?_⟩
                rw [find?_cons_of_neg (by simp [hkey, hne])]
                exact hfind
            · rintro ⟨k, hk, hfind⟩
              by_cases heq : k' = k
              · subst heq
                rw [find?_cons_of_pos (by simp [hkey])] at hfind
                exact Or.inl (Option.some.inj hfind).symm
              · rw [find?_cons_of_neg (by simp [hkey, heq])] at hfind
                refine Or.inr ⟨k, fun h => ?_, hfind⟩
                rcases mem_append.mp h with h | h
                · exact hk h
                · exact heq (mem_singleton.mp h).symm

theorem key_of_mem_firsts (h : a ∈ firsts key used l) : ∃ k, key a = some k ∧ k ∉ used := by
  obtain ⟨k, hk, hfind⟩ := mem_firsts.mp h
  have hkey := find?_some hfind
  exact ⟨k, of_decide_eq_true hkey, hk⟩

theorem find_of_mem_firsts {k : κ} (h : a ∈ firsts key used l) (hkey : key a = some k) :
    l.find? (fun b => key b = some k) = some a := by
  obtain ⟨k', -, hfind⟩ := mem_firsts.mp h
  have hkey' := find?_some hfind
  rw [decide_eq_true_iff, hkey, Option.some.injEq] at hkey'
  rw [hkey']
  exact hfind

theorem firsts_sublist : (firsts key used l).Sublist l := by
  induction l generalizing used with
  | nil => exact Sublist.refl []
  | cons a l ih =>
      cases hkey : key a with
      | none =>
          rw [firsts_cons_of_none hkey]
          exact ih.cons a
      | some k =>
          by_cases hused : k ∈ used
          · rw [firsts_cons_of_used hkey hused]
            exact ih.cons a
          · rw [firsts_cons_of_new hkey hused]
            exact ih.cons_cons a

/-- Two that are taken have different keys. -/
theorem eq_of_mem_firsts (ha : a ∈ firsts key used l) (hb : b ∈ firsts key used l)
    (h : key a = key b) : a = b := by
  obtain ⟨k, hk, -⟩ := key_of_mem_firsts ha
  have hfind := find_of_mem_firsts ha hk
  have hfind' := find_of_mem_firsts hb (h.symm.trans hk)
  exact Option.some.inj (hfind.symm.trans hfind')

/-- Each new key has its taker. -/
theorem exists_mem_firsts {k : κ} (hb : b ∈ l) (hkey : key b = some k) (hk : k ∉ used) :
    ∃ a ∈ firsts key used l, key a = some k := by
  have hsome : (l.find? fun b => key b = some k).isSome := by
    rw [find?_isSome]
    exact ⟨b, hb, decide_eq_true hkey⟩
  obtain ⟨a, hfind⟩ := Option.isSome_iff_exists.mp hsome
  have hkeya := find?_some hfind
  exact ⟨a, mem_firsts.mpr ⟨k, hk, hfind⟩, of_decide_eq_true hkeya⟩

/-- In an ordered list, what is taken goes before all others of its key. -/
theorem rel_of_mem_firsts (h : l.Pairwise r) (ha : a ∈ firsts key used l) (hb : b ∈ l)
    (hkey : key b = key a) (hne : b ≠ a) : r a b := by
  obtain ⟨k, hk, -⟩ := key_of_mem_firsts ha
  obtain ⟨-, l₁, l₂, rfl, hearlier⟩ := find?_eq_some_iff_append.mp (find_of_mem_firsts ha hk)
  rcases mem_append.mp hb with hb | hb
  · have hnot := hearlier b hb
    rw [decide_eq_true (hkey.trans hk)] at hnot
    cases hnot
  · have hlater : b ∈ l₂ := (mem_cons.mp hb).resolve_left hne
    exact (pairwise_cons.mp (pairwise_append.mp h).2.1).1 b hlater

end List
