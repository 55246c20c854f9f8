import AxonaBridge.ServerModel

/-!
# The two version comparisons

The server compares three components, the door all of them. Both decide at the first component in which
the versions differ, so they part where that one lies beyond the third.
-/

open JsText

namespace JsNum

theorem not_lt_self (x : JsNum) : x.lt x = false := by
  cases x with
  | fin q => exact decide_eq_false (lt_irrefl q)
  | inf negative => cases negative <;> rfl
  | nan => rfl

/-- Of two different numbers one is less. -/
theorem lt_of_ne {x y : JsNum} (hx : x ≠ .nan) (hy : y ≠ .nan) (hne : x ≠ y) (h : x.lt y = false) :
    y.lt x = true := by
  cases x with
  | nan => exact absurd rfl hx
  | fin p =>
      cases y with
      | nan => exact absurd rfl hy
      | fin q =>
          have hle : q ≤ p := not_lt.mp (of_decide_eq_false h)
          exact decide_eq_true (lt_of_le_of_ne hle fun heq => hne (congrArg JsNum.fin heq.symm))
      | inf negative =>
          cases negative with
          | true => rfl
          | false => exact absurd h Bool.true_eq_false.mp
  | inf a =>
      cases y with
      | nan => exact absurd rfl hy
      | fin q =>
          cases a with
          | true => exact absurd h Bool.true_eq_false.mp
          | false => rfl
      | inf b =>
          cases a <;> cases b
          · exact absurd rfl hne
          · rfl
          · exact absurd h Bool.true_eq_false.mp
          · exact absurd rfl hne

end JsNum

namespace AxonaBridge

/-! ### Deciding at the first difference -/

/-- A search over the first numbers stops at the first of them at which it finds something. -/
theorem findSome?_range_of_first {β : Type*} {f : Nat → Option β} {n i : Nat} {b : β} (hi : i < n)
    (hsome : f i = some b) (hnone : ∀ j < i, f j = none) : (List.range n).findSome? f = some b := by
  obtain ⟨k, rfl⟩ := Nat.exists_eq_add_of_lt hi
  rw [List.findSome?_eq_some_iff]
  refine ⟨List.range i, i, (List.range k).map fun j => i + (j + 1), ?_, hsome, fun j hj => ?_⟩
  · rw [Nat.add_assoc, List.range_add, List.range_succ_eq_map, List.map_cons, List.map_map]
    rfl
  · exact hnone j (List.mem_range.mp hj)

theorem findSome?_range_of_none {β : Type*} {f : Nat → Option β} {n : Nat} (hnone : ∀ i < n, f i = none) :
    (List.range n).findSome? f = none :=
  List.findSome?_eq_none_iff.mpr fun i hi => hnone i (List.mem_range.mp hi)

variable {a b : JsString} {i : Nat}

/-- A component of a version, zero where there is none. -/
def component (v : JsString) (i : Nat) : JsNum := (versionParts v).getD i (.fin 0)

/-- The first component in which two versions differ. -/
def FirstDiffer (a b : JsString) (i : Nat) : Prop :=
  component a i ≠ component b i ∧ ∀ j < i, component a j = component b j

theorem component_ne_nan (v : JsString) (i : Nat) : component v i ≠ .nan := by
  unfold component
  by_cases hi : i < (versionParts v).length
  · rw [List.getD_eq_getElem _ _ hi]
    obtain ⟨n, -, heq⟩ := List.mem_map.mp (List.getElem_mem hi)
    rw [← heq]
    dsimp only
    split
    · exact JsNum.noConfusion
    · rename_i hfalsy
      intro hnan
      rw [hnan] at hfalsy
      exact hfalsy rfl
  · rw [List.getD_eq_default _ _ (not_lt.mp hi)]
    exact JsNum.noConfusion

theorem component_of_le {v : JsString} (h : (versionParts v).length ≤ i) : component v i = .fin 0 :=
  List.getD_eq_default _ _ h

theorem eq_or_firstDiffer (a b : JsString) :
    (∀ i, component a i = component b i) ∨ ∃ i, FirstDiffer a b i := by
  by_cases h : ∃ i, component a i ≠ component b i
  · refine Or.inr ⟨Nat.find h, Nat.find_spec h, fun j hj => ?_⟩
    exact not_not.mp (Nat.find_min h hj)
  · exact Or.inl fun i => not_not.mp fun hne => h ⟨i, hne⟩

/-- Versions differ in a component that one of them has. -/
theorem FirstDiffer.lt_length (h : FirstDiffer a b i) :
    i < max (versionParts a).length (versionParts b).length := by
  by_contra hle
  obtain ⟨ha, hb⟩ := max_le_iff.mp (not_lt.mp hle)
  exact h.1 ((component_of_le ha).trans (component_of_le hb).symm)

/-! ### The door -/

namespace SocketBootstrap

/-- What the door finds of one component. -/
def decides (a b : JsString) (i : Nat) : Option Bool :=
  if component a i ≠ component b i then some ((component b i).lt (component a i)) else none

theorem decides_of_eq (h : component a i = component b i) : decides a b i = none := if_neg (not_not.mpr h)

theorem gteVersion_eq (a b : JsString) : gteVersion a b =
    ((List.range (max (versionParts a).length (versionParts b).length)).findSome? (decides a b)).getD true :=
  rfl

theorem gteVersion_of_eq (h : ∀ i, component a i = component b i) : gteVersion a b = true := by
  rw [gteVersion_eq, findSome?_range_of_none fun i _ => decides_of_eq (h i)]
  rfl

/-- The door decides at the first difference. -/
theorem gteVersion_of_firstDiffer (h : FirstDiffer a b i) :
    gteVersion a b = (component b i).lt (component a i) := by
  have hdecides : decides a b i = some ((component b i).lt (component a i)) := if_pos h.1
  rw [gteVersion_eq, findSome?_range_of_first h.lt_length hdecides fun j hj => decides_of_eq (h.2 j hj)]
  rfl

end SocketBootstrap

/-! ### The server -/

/-- What the server finds of one component. -/
def decides (a b : JsString) (i : Nat) : Option Bool :=
  if (component b i).lt (component a i) then some true
  else if (component a i).lt (component b i) then some false
  else none

/-- Of one component the two find the same. -/
theorem decides_eq (a b : JsString) : decides a b = SocketBootstrap.decides a b := by
  funext i
  unfold decides SocketBootstrap.decides
  by_cases heq : component a i = component b i
  · rw [if_neg (not_not.mpr heq), heq, JsNum.not_lt_self, if_neg Bool.false_ne_true,
      if_neg Bool.false_ne_true]
  · rw [if_pos heq]
    cases hlt : (component b i).lt (component a i) with
    | true => exact if_pos rfl
    | false =>
        have hless := JsNum.lt_of_ne (component_ne_nan b i) (component_ne_nan a i) (Ne.symm heq) hlt
        rw [if_neg Bool.false_ne_true, if_pos hless]

theorem gteVersion_eq (a b : JsString) :
    gteVersion a b = ((List.range 3).findSome? (SocketBootstrap.decides a b)).getD true := by
  rw [← decides_eq]
  rfl

/-- The server does not look beyond the third component. -/
theorem gteVersion_of_eq (h : ∀ i < 3, component a i = component b i) : gteVersion a b = true := by
  rw [gteVersion_eq, findSome?_range_of_none fun i hi =>
    SocketBootstrap.decides_of_eq (h i hi)]
  rfl

/-- The server decides at the first difference among the first three components. -/
theorem gteVersion_of_firstDiffer (hi : i < 3) (h : FirstDiffer a b i) :
    gteVersion a b = (component b i).lt (component a i) := by
  have hdecides : SocketBootstrap.decides a b i = some ((component b i).lt (component a i)) := if_pos h.1
  rw [gteVersion_eq, findSome?_range_of_first hi hdecides fun j hj =>
    SocketBootstrap.decides_of_eq (h.2 j hj)]
  rfl

/-! ### Where the two agree -/

/-- **The two version comparisons.** They agree on two versions exactly when these do not first differ
beyond the third component, or differ there with the first the greater. -/
theorem gteVersion_eq_iff (a b : JsString) : gteVersion a b = SocketBootstrap.gteVersion a b ↔
    ∀ i, 3 ≤ i → FirstDiffer a b i → (component b i).lt (component a i) = true := by
  rcases eq_or_firstDiffer a b with hall | ⟨i, hi⟩
  · rw [gteVersion_of_eq fun i _ => hall i, SocketBootstrap.gteVersion_of_eq hall]
    exact iff_of_true rfl fun i _ hi => absurd (hall i) hi.1
  · rw [SocketBootstrap.gteVersion_of_firstDiffer hi]
    by_cases hthree : i < 3
    · rw [gteVersion_of_firstDiffer hthree hi]
      refine iff_of_true rfl fun j hj hdiffer => absurd (hdiffer.2 i (hthree.trans_le hj)) hi.1
    · have hbeyond := not_lt.mp hthree
      rw [gteVersion_of_eq fun j hj => hi.2 j (hj.trans_le hbeyond)]
      constructor
      · intro heq j hj hdiffer
        have hfirst : j = i := by
          rcases lt_trichotomy j i with hlt | heq | hgt
          · exact absurd (hi.2 j hlt) hdiffer.1
          · exact heq
          · exact absurd (hdiffer.2 i hgt) hi.1
        rw [hfirst]
        exact heq.symm
      · intro h
        exact (h i hbeyond hi).symm

/-- Of two versions that differ in a fourth component the server takes either for the newer. -/
theorem not_gteVersion_eq_fourth :
    gteVersion (js "4.107.0.1") (js "4.107.0.2") ≠ SocketBootstrap.gteVersion (js "4.107.0.1") (js "4.107.0.2") := by
  decide +kernel

end AxonaBridge
