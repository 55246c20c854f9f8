import AxonaBridge.JsMap
import Mathlib.Logic.Embedding.Basic

/-!
# Renaming the keys of a map, and keeping some of them

Keys are renamed along an embedding and values along any function; what is read under a renamed key
is what stood under the key. Keeping the keys of a list drops the other entries. Both leave the order
of the entries as it is.
-/

namespace JsMap

variable {κ κ' ν ν' : Type}

/-- Rename the keys, and change the values. -/
def rename (m : JsMap κ ν) (f : κ ↪ κ') (g : ν → ν') : JsMap κ' ν' where
  entries := m.entries.map fun e => (f e.1, g e.2)
  nodup := by
    have h : (m.entries.map fun e => (f e.1, g e.2)).map Prod.fst = (m.entries.map Prod.fst).map f := by
      simp [Function.comp_def]
    rw [h]
    exact m.nodup.map f.injective

variable {f : κ ↪ κ'} {g : ν → ν'} {m : JsMap κ ν} {k : κ} {v : ν}

@[simp] theorem keys_rename : (m.rename f g).keys = m.keys.map f := by
  simp [keys, rename, Function.comp_def]

@[simp] theorem size_rename : (m.rename f g).size = m.size := by
  simp [size, rename]

/-- A test that reads a renamed entry as the other reads the entry keeps the same ones. -/
theorem filter_rename {p : κ × ν → Bool} {p' : κ' × ν' → Bool}
    (h : ∀ e ∈ m.entries, p' (f e.1, g e.2) = p e) :
    (m.rename f g).filter p' = (m.filter p).rename f g := by
  apply ext
  simp only [rename, filter, List.filter_map]
  congr 1
  exact List.filter_congr h

variable [DecidableEq κ] [DecidableEq κ']

@[simp] theorem get_rename (m : JsMap κ ν) (k : κ) : (m.rename f g).get (f k) = (m.get k).map g := by
  unfold get rename
  dsimp only
  induction m.entries with
  | nil => rfl
  | cons e es ih =>
      by_cases h : e.1 = k
      · simp [find, h]
      · have h' : ¬f e.1 = f k := fun heq => h (f.injective heq)
        simp only [List.map_cons, find, if_neg h, if_neg h']
        exact ih

@[simp] theorem has_rename (m : JsMap κ ν) (k : κ) : (m.rename f g).has (f k) = m.has k := by
  simp [has]

theorem set_rename (m : JsMap κ ν) (k : κ) (v : ν) :
    (m.rename f g).set (f k) (g v) = (m.set k v).rename f g := by
  apply ext
  have hmem : f k ∈ (m.rename f g).keys ↔ k ∈ m.keys := by
    rw [keys_rename]
    exact List.mem_map_of_injective f.injective
  by_cases h : k ∈ m.keys
  · rw [entries_set_of_mem (hmem.mpr h)]
    simp only [rename, entries_set_of_mem h, replace, List.map_map]
    refine List.map_congr_left fun e _ => ?_
    by_cases hk : e.1 = k
    · simp [hk]
    · have hk' : ¬f e.1 = f k := fun heq => hk (f.injective heq)
      simp [hk, hk']
  · rw [entries_set_of_not_mem (mt hmem.mp h)]
    simp [rename, entries_set_of_not_mem h]

theorem delete_rename (m : JsMap κ ν) (k : κ) :
    (m.rename f g).delete (f k) = (m.delete k).rename f g := by
  refine filter_rename fun e _ => ?_
  simp [f.injective.eq_iff]

theorem modify_rename {h : ν → ν} {h' : ν' → ν'} (hg : ∀ v, h' (g v) = g (h v)) (m : JsMap κ ν) (k : κ) :
    (m.rename f g).modify (f k) h' = (m.modify k h).rename f g := by
  unfold modify
  rw [get_rename]
  cases m.get k with
  | none => rfl
  | some v =>
      dsimp only [Option.map_some]
      rw [hg]
      exact set_rename m k (h v)

/-! ### Changing the values only -/

@[simp] theorem get_rename_refl (m : JsMap κ ν) (k : κ) :
    (m.rename (Function.Embedding.refl κ) g).get k = (m.get k).map g :=
  get_rename m k

theorem set_rename_refl (m : JsMap κ ν) (k : κ) (v : ν) :
    (m.rename (Function.Embedding.refl κ) g).set k (g v) =
      (m.set k v).rename (Function.Embedding.refl κ) g :=
  set_rename m k v

theorem delete_rename_refl (m : JsMap κ ν) (k : κ) :
    (m.rename (Function.Embedding.refl κ) g).delete k =
      (m.delete k).rename (Function.Embedding.refl κ) g :=
  delete_rename m k

/-! ### Keeping the keys of a list -/

/-- The entries whose keys are in a list. -/
def keep (m : JsMap κ ν) (ks : List κ) : JsMap κ ν := m.filter fun e => e.1 ∈ ks

variable {ks : List κ}

theorem get_keep (m : JsMap κ ν) (k : κ) : (m.keep ks).get k = if k ∈ ks then m.get k else none := by
  rw [keep, get_filter]
  split_ifs with h
  · cases m.get k <;> simp [h]
  · cases m.get k <;> simp [h]

theorem mem_keys_keep : k ∈ (m.keep ks).keys ↔ k ∈ ks ∧ k ∈ m.keys := by
  rw [mem_keys_iff, mem_keys_iff, get_keep]
  split_ifs with h
  · simp [h]
  · simp [h]

theorem keep_set_of_mem (h : k ∈ ks) (m : JsMap κ ν) (v : ν) : (m.set k v).keep ks = (m.keep ks).set k v := by
  apply ext
  by_cases hk : k ∈ m.keys
  · rw [entries_set_of_mem (mem_keys_keep.mpr ⟨h, hk⟩)]
    simp only [keep, filter]
    rw [entries_set_of_mem hk, replace, replace, List.filter_map]
    congr 1
    refine List.filter_congr fun e _ => ?_
    by_cases he : e.1 = k
    · simp [he, h]
    · simp [he]
  · rw [entries_set_of_not_mem fun hmem => hk (mem_keys_keep.mp hmem).2]
    simp only [keep, filter]
    rw [entries_set_of_not_mem hk]
    simp [h]

theorem keep_set_of_not_mem (h : k ∉ ks) (m : JsMap κ ν) (v : ν) : (m.set k v).keep ks = m.keep ks := by
  apply ext
  simp only [keep, filter]
  by_cases hk : k ∈ m.keys
  · rw [entries_set_of_mem hk, replace, List.filter_map]
    have hsame : ∀ e ∈ m.entries.filter ((fun e : κ × ν => decide (e.1 ∈ ks)) ∘ fun e =>
        if e.1 = k then (k, v) else e), (if e.1 = k then (k, v) else e) = e := by
      intro e he
      have htest := (List.mem_filter.mp he).2
      split_ifs with hek
      · simp [hek, h] at htest
      · rfl
    rw [List.map_congr_left hsame, List.map_id']
    refine List.filter_congr fun e _ => ?_
    by_cases he : e.1 = k
    · simp [he, h]
    · simp [he]
  · rw [entries_set_of_not_mem hk]
    simp [h]

theorem keep_delete (m : JsMap κ ν) (k : κ) : (m.delete k).keep ks = (m.keep ks).delete k := by
  apply ext
  simp [keep, delete, filter, List.filter_filter, Bool.and_comm]

theorem keep_delete_of_not_mem (h : k ∉ ks) (m : JsMap κ ν) : (m.delete k).keep ks = m.keep ks := by
  rw [keep_delete]
  refine delete_eq_self fun hk => ?_
  obtain ⟨v, hv⟩ := mem_keys_iff.mp hk
  rw [get_keep, if_neg h] at hv
  cases hv

theorem keep_modify_of_mem (h : k ∈ ks) (m : JsMap κ ν) (u : ν → ν) :
    (m.modify k u).keep ks = (m.keep ks).modify k u := by
  unfold modify
  rw [get_keep, if_pos h]
  cases m.get k with
  | none => rfl
  | some v => exact keep_set_of_mem h m (u v)

theorem keep_modify_of_not_mem (h : k ∉ ks) (m : JsMap κ ν) (u : ν → ν) :
    (m.modify k u).keep ks = m.keep ks := by
  unfold modify
  cases m.get k with
  | none => rfl
  | some v => exact keep_set_of_not_mem h m (u v)

end JsMap
