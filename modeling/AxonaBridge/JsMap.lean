import Mathlib.Data.List.Basic
import Mathlib.Data.List.Nodup
import Mathlib.Tactic.Common

/-!
# Insertion-ordered maps

The `Map` of a JavaScript program: at most one entry a key, iterated in the order in which the keys
were first set. Setting a key that is present keeps its place; deleting it and setting it again
moves it to the end.
-/

/-- A finite map that remembers the order in which its keys were first set. -/
structure JsMap (κ ν : Type) where
  entries : List (κ × ν)
  nodup : (entries.map Prod.fst).Nodup

namespace JsMap

variable {κ ν : Type}

@[ext] theorem ext {m m' : JsMap κ ν} (h : m.entries = m'.entries) : m = m' := by
  cases m
  cases m'
  cases h
  rfl

def empty : JsMap κ ν := ⟨[], List.nodup_nil⟩

def keys (m : JsMap κ ν) : List κ := m.entries.map Prod.fst

def size (m : JsMap κ ν) : Nat := m.entries.length

/-- The entries that satisfy a test, in their order. -/
def filter (m : JsMap κ ν) (p : κ × ν → Bool) : JsMap κ ν where
  entries := m.entries.filter p
  nodup := m.nodup.sublist ((List.filter_sublist (p := p)).map Prod.fst)

/-- Change the values and keep the keys. -/
def mapValues {μ : Type} (m : JsMap κ ν) (f : κ → ν → μ) : JsMap κ μ where
  entries := m.entries.map fun e => (e.1, f e.1 e.2)
  nodup := by simpa [List.map_map, Function.comp_def] using m.nodup

variable [DecidableEq κ]

/-- The value of the first entry with key `k` in a list of entries. -/
def find (k : κ) : List (κ × ν) → Option ν
  | [] => none
  | e :: es => if e.1 = k then some e.2 else find k es

def get (m : JsMap κ ν) (k : κ) : Option ν := find k m.entries

def has (m : JsMap κ ν) (k : κ) : Bool := (m.get k).isSome

/-- Replace the value at `k`, in place. -/
def replace (k : κ) (v : ν) (es : List (κ × ν)) : List (κ × ν) :=
  es.map fun e => if e.1 = k then (k, v) else e

theorem map_fst_replace (k : κ) (v : ν) (es : List (κ × ν)) :
    (replace k v es).map Prod.fst = es.map Prod.fst := by
  rw [replace, List.map_map]
  apply List.map_congr_left
  intro e _
  by_cases h : e.1 = k <;> simp [h]

theorem find_eq_none_iff {k : κ} {es : List (κ × ν)} :
    find k es = none ↔ k ∉ es.map Prod.fst := by
  induction es with
  | nil => simp [find]
  | cons e es ih =>
      by_cases h : e.1 = k
      · simp [find, h]
      · simp only [find, if_neg h, ih, List.map_cons, List.mem_cons, not_or]
        exact ⟨fun hes => ⟨fun hk => h hk.symm, hes⟩, fun hes => hes.2⟩

theorem has_eq_true_iff {m : JsMap κ ν} {k : κ} : m.has k = true ↔ k ∈ m.keys := by
  rw [has, ← Option.not_isNone, Bool.not_eq_true', ← Bool.not_eq_true, Option.isNone_iff_eq_none,
    get, find_eq_none_iff, not_not]
  rfl

/-- `Map.prototype.set`. -/
def set (m : JsMap κ ν) (k : κ) (v : ν) : JsMap κ ν :=
  if h : k ∈ m.entries.map Prod.fst then
    ⟨replace k v m.entries, by rw [map_fst_replace]; exact m.nodup⟩
  else
    ⟨m.entries ++ [(k, v)], by
      rw [List.map_append]
      exact List.nodup_append.mpr ⟨m.nodup, List.nodup_singleton _, by
        intro a ha b hb hab
        rw [List.map_singleton, List.mem_singleton] at hb
        rw [hab, hb] at ha
        exact h ha⟩⟩

/-- `Map.prototype.delete`. -/
def delete (m : JsMap κ ν) (k : κ) : JsMap κ ν := m.filter fun e => e.1 ≠ k

/-- Change the value at `k` where there is one. -/
def modify (m : JsMap κ ν) (k : κ) (f : ν → ν) : JsMap κ ν :=
  match m.get k with
  | some v => m.set k (f v)
  | none => m

/-! ### Reading after a change -/

theorem find_append (k : κ) (es fs : List (κ × ν)) :
    find k (es ++ fs) = (find k es).or (find k fs) := by
  induction es with
  | nil => simp [find]
  | cons e es ih => by_cases h : e.1 = k <;> simp [find, h, ih]

theorem find_replace_self {k : κ} {es : List (κ × ν)} (v : ν) (h : k ∈ es.map Prod.fst) :
    find k (replace k v es) = some v := by
  induction es with
  | nil => simp at h
  | cons e es ih =>
      by_cases he : e.1 = k
      · simp [replace, find, he]
      · have hes : k ∈ es.map Prod.fst := by
          rw [List.map_cons, List.mem_cons] at h
          exact h.resolve_left fun hk => he hk.symm
        simpa [replace, find, he] using ih hes

theorem find_replace_of_ne {k l : κ} (v : ν) (es : List (κ × ν)) (h : l ≠ k) :
    find l (replace k v es) = find l es := by
  induction es with
  | nil => rfl
  | cons e es ih =>
      rw [replace] at ih
      by_cases he : e.1 = k
      · have hl : e.1 ≠ l := fun hl => h (hl.symm.trans he)
        simp [replace, find, he, ih, he ▸ hl]
      · simp [replace, find, he, ih]

theorem find_filter_of_all {k : κ} {p : κ × ν → Bool} {es : List (κ × ν)}
    (h : ∀ v, (k, v) ∈ es → p (k, v) = true) : find k (es.filter p) = find k es := by
  induction es with
  | nil => rfl
  | cons e es ih =>
      have hes := ih fun v hv => h v (List.mem_cons_of_mem _ hv)
      by_cases he : e.1 = k
      · have hp : p e = true := by
          have := h e.2 (by rw [← he]; exact List.mem_cons_self)
          rwa [← he] at this
        simp [hp, find, he]
      · by_cases hp : p e = true <;> simp [hp, find, he, hes]

theorem find_filter_of_none {k : κ} {p : κ × ν → Bool} {es : List (κ × ν)}
    (h : ∀ v, (k, v) ∈ es → p (k, v) = false) : find k (es.filter p) = none := by
  rw [find_eq_none_iff]
  intro hk
  obtain ⟨e, he, rfl⟩ := List.mem_map.mp hk
  rw [List.mem_filter] at he
  have := h e.2 he.1
  simp [he.2] at this

@[simp] theorem get_empty (k : κ) : (empty : JsMap κ ν).get k = none := rfl

@[simp] theorem get_set_self (m : JsMap κ ν) (k : κ) (v : ν) : (m.set k v).get k = some v := by
  unfold set get
  split
  · rename_i h
    exact find_replace_self v h
  · rename_i h
    rw [find_append, find_eq_none_iff.mpr h]
    simp [find]

theorem get_set_of_ne (m : JsMap κ ν) {k l : κ} (v : ν) (h : l ≠ k) :
    (m.set k v).get l = m.get l := by
  unfold set get
  split
  · exact find_replace_of_ne v _ h
  · rw [find_append]
    simp [find, h.symm]

theorem get_set (m : JsMap κ ν) (k l : κ) (v : ν) :
    (m.set k v).get l = if l = k then some v else m.get l := by
  by_cases h : l = k
  · rw [if_pos h, h, get_set_self]
  · rw [if_neg h, get_set_of_ne m v h]

@[simp] theorem get_delete_self (m : JsMap κ ν) (k : κ) : (m.delete k).get k = none :=
  find_filter_of_none fun _ _ => by simp

theorem get_delete_of_ne (m : JsMap κ ν) {k l : κ} (h : l ≠ k) : (m.delete k).get l = m.get l :=
  find_filter_of_all fun _ _ => by simp [h]

theorem get_delete (m : JsMap κ ν) (k l : κ) :
    (m.delete k).get l = if l = k then none else m.get l := by
  by_cases h : l = k
  · rw [if_pos h, h, get_delete_self]
  · rw [if_neg h, get_delete_of_ne m h]

theorem get_modify (m : JsMap κ ν) (k l : κ) (f : ν → ν) :
    (m.modify k f).get l = if l = k then (m.get k).map f else m.get l := by
  unfold modify
  split
  · rename_i v hv
    rw [get_set, hv]
    rfl
  · rename_i hn
    by_cases h : l = k
    · rw [if_pos h, h, hn]
      rfl
    · rw [if_neg h]

/-! ### Keys and entries -/

theorem find_eq_some_of_mem {k : κ} {v : ν} {es : List (κ × ν)} (hnd : (es.map Prod.fst).Nodup)
    (h : (k, v) ∈ es) : find k es = some v := by
  induction es with
  | nil => simp at h
  | cons e es ih =>
      rw [List.map_cons, List.nodup_cons] at hnd
      rw [List.mem_cons] at h
      rcases h with h | h
      · simp [find, ← h]
      · have hne : e.1 ≠ k := by
          intro he
          exact hnd.1 (he ▸ List.mem_map.mpr ⟨(k, v), h, rfl⟩)
        simp [find, hne, ih hnd.2 h]

theorem mem_of_find {k : κ} {v : ν} {es : List (κ × ν)} (h : find k es = some v) :
    (k, v) ∈ es := by
  induction es with
  | nil => simp [find] at h
  | cons e es ih =>
      by_cases he : e.1 = k
      · rw [find, if_pos he, Option.some.injEq] at h
        rw [← he, ← h]
        exact List.mem_cons_self
      · rw [find, if_neg he] at h
        exact List.mem_cons_of_mem _ (ih h)

theorem mem_entries_iff {m : JsMap κ ν} {k : κ} {v : ν} :
    (k, v) ∈ m.entries ↔ m.get k = some v :=
  ⟨find_eq_some_of_mem m.nodup, mem_of_find⟩

theorem mem_keys_iff {m : JsMap κ ν} {k : κ} : k ∈ m.keys ↔ ∃ v, m.get k = some v := by
  rw [← has_eq_true_iff, has, Option.isSome_iff_exists]

theorem not_mem_keys_iff {m : JsMap κ ν} {k : κ} : k ∉ m.keys ↔ m.get k = none := by
  rw [get, find_eq_none_iff]
  rfl

theorem mem_keys_of_get {m : JsMap κ ν} {k : κ} {v : ν} (h : m.get k = some v) : k ∈ m.keys :=
  mem_keys_iff.mpr ⟨v, h⟩

@[simp] theorem keys_delete (m : JsMap κ ν) (k : κ) : (m.delete k).keys = m.keys.filter (· ≠ k) := by
  rw [keys, keys, delete, filter, List.filter_map]
  rfl

theorem keys_set_of_mem {m : JsMap κ ν} {k : κ} (v : ν) (h : k ∈ m.keys) :
    (m.set k v).keys = m.keys := by
  have hk : k ∈ m.entries.map Prod.fst := h
  rw [keys, set, dif_pos hk]
  exact map_fst_replace k v _

theorem mem_keys_set {m : JsMap κ ν} {k l : κ} {v : ν} :
    l ∈ (m.set k v).keys ↔ l = k ∨ l ∈ m.keys := by
  rw [mem_keys_iff, mem_keys_iff]
  by_cases h : l = k
  · simp [h]
  · simp [get_set_of_ne m v h, h]

@[simp] theorem keys_modify (m : JsMap κ ν) (k : κ) (f : ν → ν) : (m.modify k f).keys = m.keys := by
  unfold modify
  split
  · rename_i hv
    exact keys_set_of_mem _ (mem_keys_of_get hv)
  · rfl

@[simp] theorem has_modify (m : JsMap κ ν) (k l : κ) (f : ν → ν) :
    (m.modify k f).has l = m.has l := by
  rw [Bool.eq_iff_iff, has_eq_true_iff, has_eq_true_iff, keys_modify]

theorem entries_set_of_mem {m : JsMap κ ν} {k : κ} (h : k ∈ m.keys) (v : ν) :
    (m.set k v).entries = replace k v m.entries := by
  rw [set, dif_pos (show k ∈ m.entries.map Prod.fst from h)]

theorem entries_set_of_not_mem {m : JsMap κ ν} {k : κ} (h : k ∉ m.keys) (v : ν) :
    (m.set k v).entries = m.entries ++ [(k, v)] := by
  rw [set, dif_neg (show ¬k ∈ m.entries.map Prod.fst from h)]

/-- A change in place keeps the order. -/
theorem entries_modify (m : JsMap κ ν) (k : κ) (f : ν → ν) :
    (m.modify k f).entries = m.entries.map fun e => if e.1 = k then (e.1, f e.2) else e := by
  unfold modify
  split
  · rename_i v hv
    rw [entries_set_of_mem (mem_keys_of_get hv), replace]
    refine List.map_congr_left fun e he => ?_
    split
    · rename_i hk
      have hval : e.2 = v := Option.some.inj ((mem_entries_iff.mp he).symm.trans (hk ▸ hv))
      rw [hk, hval]
    · rfl
  · rename_i hnone
    symm
    rw [List.map_congr_left (g := id), List.map_id]
    intro e he
    refine if_neg fun hk => not_mem_keys_iff.mpr hnone ?_
    exact hk ▸ List.mem_map.mpr ⟨e, he, rfl⟩

theorem modify_eq_self {m : JsMap κ ν} {k : κ} {f : ν → ν} (h : m.get k = none) :
    m.modify k f = m := by
  simp [modify, h]

theorem delete_eq_self {m : JsMap κ ν} {k : κ} (h : k ∉ m.keys) : m.delete k = m := by
  apply ext
  apply List.filter_eq_self.mpr
  intro e he
  have : e.1 ≠ k := fun hk => h (hk ▸ List.mem_map.mpr ⟨e, he, rfl⟩)
  simp [this]

theorem get_filter {m : JsMap κ ν} {p : κ × ν → Bool} (k : κ) :
    (m.filter p).get k = (m.get k).filter fun v => p (k, v) := by
  cases hk : m.get k with
  | none =>
      refine find_filter_of_none fun v hv => ?_
      rw [mem_entries_iff.mp hv] at hk
      cases hk
  | some v =>
      have hv : ∀ w, (k, w) ∈ m.entries → w = v := fun w hw => by
        have hw := (mem_entries_iff.mp hw).symm.trans hk
        exact Option.some.inj hw
      cases hp : p (k, v) with
      | true =>
          rw [Option.filter_some, if_pos hp, ← hk]
          exact find_filter_of_all fun w hw => hv w hw ▸ hp
      | false =>
          rw [Option.filter_some, if_neg (by simp [hp])]
          exact find_filter_of_none fun w hw => hv w hw ▸ hp

/-- Of two maps that point at each other, taking the key that `v` points at out of the one, where it
still points back, leaves no key that points at `v` and all the others. -/
theorem get_unlink [DecidableEq ν] {m : JsMap κ ν} {r : JsMap ν κ} {v : ν}
    (h : ∀ k, m.get k = some v → r.get v = some k) (k : κ) :
    (match r.get v with
      | some owner => if m.get owner = some v then m.delete owner else m
      | none => m).get k = if m.get k = some v then none else m.get k := by
  cases howner : r.get v with
  | some owner =>
      have hown : ∀ k, m.get k = some v → k = owner := fun k hk =>
        Option.some.inj ((h k hk).symm.trans howner)
      dsimp only
      by_cases hcurrent : m.get owner = some v
      · rw [if_pos hcurrent, get_delete]
        by_cases hk : k = owner
        · rw [if_pos hk, hk, if_pos hcurrent]
        · rw [if_neg hk, if_neg fun hget => hk (hown k hget)]
      · rw [if_neg hcurrent, if_neg fun hget => hcurrent (hown k hget ▸ hget)]
  | none =>
      have hne : m.get k ≠ some v := fun hk => by
        rw [h k hk] at howner
        cases howner
      rw [if_neg hne]

end JsMap
