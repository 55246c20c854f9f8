import AxonaBridge.JsValue

/-!
# The wire codec

`JSON.stringify(v, bigintReplacer)` and `JSON.parse(text, bigintReviver)`. The text is stood for by
the value plain `JSON.parse` reads in it, which for a value without `BigInt`s is the value itself. A
`BigInt` goes out as its numeral with a final `n`, and every string of that form comes in as a
`BigInt`, whatever it was.
-/

open JsText

namespace JsText

theorem digitUnit_toNat {d : Nat} (h : d < 10) : (digitUnit d).toNat = 48 + d := by
  unfold digitUnit
  rw [if_pos h, UInt16.toNat_ofNat']
  omega

theorem isDigit_digitUnit {d : Nat} (h : d < 10) : isDigit (digitUnit d) = true := by
  have hnat := digitUnit_toNat h
  unfold isDigit
  simp only [Bool.and_eq_true, decide_eq_true_eq, UInt16.le_iff_toNat_le, hnat]
  exact ⟨by simp, by simp; omega⟩

theorem natToString_ne_nil (n : Nat) : natToString 10 n ≠ [] := by
  unfold natToString
  split
  · simp
  · rename_i hn
    simp [Nat.digits_ne_nil_iff_ne_zero.mpr hn]

theorem isDigit_natToString (n : Nat) : (natToString 10 n).all isDigit = true := by
  rw [List.all_eq_true]
  intro u hu
  unfold natToString at hu
  split at hu
  · rw [List.mem_singleton.mp hu]
    decide
  · obtain ⟨d, hd, rfl⟩ := List.mem_map.mp hu
    exact isDigit_digitUnit (Nat.digits_lt_base (by omega) (List.mem_reverse.mp hd))

end JsText

namespace JsVal

/-! ### Encoding -/

mutual

/-- What plain `JSON.parse` reads in `JSON.stringify(v, bigintReplacer)`. -/
def replace : JsVal → JsVal
  | .bigint i => .str (intToString 10 i ++ [110])
  | .num (.fin q) => .num (.fin q)
  | .num _ => .null
  | .arr xs => .arr (replaceList xs)
  | .obj fields => .obj (replaceFields fields)
  | v => v

def replaceList : List JsVal → List JsVal
  | [] => []
  | x :: xs => replace x :: replaceList xs

def replaceFields : List (JsString × JsVal) → List (JsString × JsVal)
  | [] => []
  | (name, x) :: fields => (name, replace x) :: replaceFields fields

end

mutual

/-- A string or number somewhere in the value, other than a field's name, meets a test. -/
def anyLeaf (p : JsString → Bool) (q : JsNum → Bool) : JsVal → Bool
  | .str s => p s
  | .num x => q x
  | .arr xs => listAnyLeaf p q xs
  | .obj fields => fieldsAnyLeaf p q fields
  | _ => false

def listAnyLeaf (p : JsString → Bool) (q : JsNum → Bool) : List JsVal → Bool
  | [] => false
  | x :: xs => anyLeaf p q x || listAnyLeaf p q xs

def fieldsAnyLeaf (p : JsString → Bool) (q : JsNum → Bool) : List (JsString × JsVal) → Bool
  | [] => false
  | (_, x) :: fields => anyLeaf p q x || fieldsAnyLeaf p q fields

end

/-- The `BigInt` the reviver makes of a string, where it matches the pattern. -/
def bigintOf (s : JsString) : Option Int :=
  (bigintDigits s).map fun r => if r.1 then -(digitsValue r.2 : Int) else digitsValue r.2

/-- The string a `BigInt` goes out as. -/
def numeral (i : Int) : JsString := intToString 10 i ++ [110]

/-- The string comes in as a `BigInt`. -/
def readsAsBigInt (s : JsString) : Bool := (bigintOf s).isSome

/-- The string comes in as a `BigInt` that goes out as another string. -/
def isRewritten (s : JsString) : Bool := (bigintOf s).any fun i => numeral i ≠ s

def notFinite : JsNum → Bool
  | .fin _ => false
  | _ => true

theorem revive_str (s : JsString) :
    revive (.str s) = match bigintOf s with
      | some i => .bigint i
      | none => .str s := by
  unfold revive bigintOf
  cases bigintDigits s with
  | none => rfl
  | some r => rfl

/-! ### Numerals -/

theorem foldl_digitUnit (l : List Nat) (hl : ∀ d ∈ l, d < 10) (a : Nat) :
    (l.map digitUnit).foldl (fun n u => 10 * n + (u.toNat - 48)) a = l.foldl (fun n d => 10 * n + d) a := by
  induction l generalizing a with
  | nil => rfl
  | cons d l ih =>
      have hd : (digitUnit d).toNat - 48 = d := by
        rw [digitUnit_toNat (hl d List.mem_cons_self)]
        omega
      rw [List.map_cons, List.foldl_cons, List.foldl_cons, hd]
      exact ih (fun d' hd' => hl d' (List.mem_cons_of_mem _ hd')) _

theorem digitsValue_natToString (n : Nat) : digitsValue (natToString 10 n) = n := by
  unfold digitsValue natToString
  split
  · rename_i hn
    rw [hn]
    rfl
  · have hlt : ∀ d ∈ (Nat.digits 10 n).reverse, d < 10 := fun d hd =>
      Nat.digits_lt_base (by omega) (List.mem_reverse.mp hd)
    rw [foldl_digitUnit _ hlt, List.foldl_reverse]
    calc (Nat.digits 10 n).foldr (fun d m => 10 * m + d) 0
        = (Nat.digits 10 n).foldr (fun d m => d + 10 * m) 0 := by
          congr 1
          funext d m
          omega
      _ = Nat.ofDigits 10 (Nat.digits 10 n) := (Nat.ofDigits_eq_foldr 10 _).symm
      _ = n := Nat.ofDigits_digits 10 n

theorem bigintDigits_unsigned {s : JsString} (h : ∀ t, s ≠ 45 :: t) :
    bigintDigits s =
      if s.getLast? = some 110 ∧ s.dropLast ≠ [] ∧ s.dropLast.all isDigit then some (false, s.dropLast)
      else none := by
  unfold bigintDigits
  split
  rename_i negative t heq
  split at heq
  · exact absurd rfl (h _)
  · cases heq
    rfl

theorem bigintDigits_numeral (i : Int) :
    bigintDigits (numeral i) = some (decide (i < 0), natToString 10 i.natAbs) := by
  have hdigits := isDigit_natToString i.natAbs
  have hne := natToString_ne_nil i.natAbs
  have hmatch : (natToString 10 i.natAbs ++ [110]).getLast? = some 110 ∧
      (natToString 10 i.natAbs ++ [110]).dropLast ≠ [] ∧
        (natToString 10 i.natAbs ++ [110]).dropLast.all isDigit = true := by
    refine ⟨by simp, ?_, ?_⟩
    · rwa [List.dropLast_concat]
    · rwa [List.dropLast_concat]
  have hhead : ∀ t, natToString 10 i.natAbs ++ [110] ≠ 45 :: t := by
    intro t heq
    have hmem : (45 : UInt16) ∈ natToString 10 i.natAbs ++ [110] := by
      rw [heq]
      exact List.mem_cons_self
    rcases List.mem_append.mp hmem with hmem | hmem
    · exact absurd hmem (minus_notMem_natToString (by omega) (by omega) _)
    · exact absurd (List.mem_singleton.mp hmem) (by decide)
  unfold numeral intToString
  by_cases hi : i < 0
  · rw [if_pos hi, decide_eq_true hi]
    exact (if_pos hmatch).trans (congrArg (fun t => some (true, t)) List.dropLast_concat)
  · rw [if_neg hi, decide_eq_false hi, bigintDigits_unsigned hhead]
    exact (if_pos hmatch).trans (congrArg (fun t => some (false, t)) List.dropLast_concat)

/-- A `BigInt` comes in as what went out. -/
theorem bigintOf_numeral (i : Int) : bigintOf (numeral i) = some i := by
  unfold bigintOf
  rw [bigintDigits_numeral, Option.map_some, digitsValue_natToString]
  by_cases hi : i < 0
  · rw [decide_eq_true hi, if_pos rfl, Option.some.injEq]
    omega
  · rw [decide_eq_false hi, if_neg Bool.false_ne_true, Option.some.injEq]
    omega

/-! ### The round trips -/

/-- Every number is finite; `JSON.stringify` writes the others as `null`. -/
def AllFinite (v : JsVal) : Prop := v.anyLeaf (fun _ => false) notFinite = false

/-- Some string comes in as a `BigInt`. -/
def hasNumeral (v : JsVal) : Bool := v.anyLeaf readsAsBigInt fun _ => false

mutual

theorem revive_replace_iff : ∀ t : JsVal, t.anyLeaf (fun _ => false) notFinite = false →
    (revive (replace t) = t ↔ t.anyLeaf readsAsBigInt (fun _ => false) = false)
  | .null, _ => ⟨fun _ => rfl, fun _ => rfl⟩
  | .bool _, _ => ⟨fun _ => rfl, fun _ => rfl⟩
  | .num (.fin _), _ => ⟨fun _ => rfl, fun _ => rfl⟩
  | .num (.inf _), h => by cases h
  | .num .nan, h => by cases h
  | .str s, _ => by
      unfold replace anyLeaf readsAsBigInt
      rw [revive_str]
      cases bigintOf s with
      | none => simp
      | some i => simp
  | .bigint i, _ => by
      unfold replace anyLeaf
      rw [show intToString 10 i ++ [110] = numeral i from rfl, revive_str, bigintOf_numeral]
      simp
  | .arr xs, h => by
      unfold replace revive anyLeaf
      rw [JsVal.arr.injEq]
      exact reviveList_replaceList_iff xs h
  | .obj fields, h => by
      unfold replace revive anyLeaf
      rw [JsVal.obj.injEq]
      exact reviveFields_replaceFields_iff fields h

theorem reviveList_replaceList_iff : ∀ xs : List JsVal, listAnyLeaf (fun _ => false) notFinite xs = false →
    (reviveList (replaceList xs) = xs ↔ listAnyLeaf readsAsBigInt (fun _ => false) xs = false)
  | [], _ => ⟨fun _ => rfl, fun _ => rfl⟩
  | x :: xs, h => by
      unfold listAnyLeaf at h ⊢
      obtain ⟨hx, hxs⟩ := Bool.or_eq_false_iff.mp h
      unfold replaceList reviveList
      rw [List.cons.injEq, Bool.or_eq_false_iff, revive_replace_iff x hx,
        reviveList_replaceList_iff xs hxs]

theorem reviveFields_replaceFields_iff : ∀ fields : List (JsString × JsVal),
    fieldsAnyLeaf (fun _ => false) notFinite fields = false →
    (reviveFields (replaceFields fields) = fields ↔
      fieldsAnyLeaf readsAsBigInt (fun _ => false) fields = false)
  | [], _ => ⟨fun _ => rfl, fun _ => rfl⟩
  | (name, x) :: fields, h => by
      unfold fieldsAnyLeaf at h ⊢
      obtain ⟨hx, hfields⟩ := Bool.or_eq_false_iff.mp h
      unfold replaceFields reviveFields
      rw [List.cons.injEq, Prod.mk.injEq, Bool.or_eq_false_iff, revive_replace_iff x hx,
        reviveFields_replaceFields_iff fields hfields]
      simp

end

/-- **The codec round-trips** exactly on the values without a string that reads as a `BigInt`, and no
two of those share an encoding. -/
theorem roundTrips_iff (t : JsVal) (ht : t.AllFinite) :
    (revive (replace t) = t ↔ t.hasNumeral = false) ∧
      ∀ u : JsVal, u.AllFinite → t.hasNumeral = false → u.hasNumeral = false → t ≠ u →
        replace t ≠ replace u := by
  refine ⟨revive_replace_iff t ht, fun u hu hplain hplain' hne heq => hne ?_⟩
  calc t = revive (replace t) := ((revive_replace_iff t ht).mpr hplain).symm
    _ = revive (replace u) := by rw [heq]
    _ = u := (revive_replace_iff u hu).mpr hplain'

/-- A message with a node id in it. -/
def pathMessage : JsVal :=
  .obj [(js "path", .arr [.bigint 0x1f, .num (.fin 2)]), (js "topic", .str (js "n"))]

theorem roundTrips_pathMessage :
    (revive (replace pathMessage) = pathMessage ↔ pathMessage.hasNumeral = false) ∧
      ∀ u : JsVal, u.AllFinite → pathMessage.hasNumeral = false → u.hasNumeral = false →
        pathMessage ≠ u → replace pathMessage ≠ replace u :=
  roundTrips_iff pathMessage rfl

/-- A text of digits with a final `n` comes back as a number, and goes out as that number does. -/
theorem not_roundTrips_numeralText :
    (JsVal.str (js "123n")).AllFinite ∧ revive (replace (.str (js "123n"))) ≠ .str (js "123n") ∧
      JsVal.str (js "123n") ≠ .bigint 123 ∧ replace (.str (js "123n")) = replace (.bigint 123) := by
  refine ⟨rfl, fun h => ?_, fun h => ?_, ?_⟩
  · have hrevived : revive (replace (.str (js "123n"))) = .bigint 123 := by rfl
    cases hrevived.symm.trans h
  · cases h
  · rfl

/-! ### Relaying: decode, then encode -/

theorem lookup_reviveFields (fields : List (JsString × JsVal)) (name : JsString) :
    (reviveFields fields).lookup name = (fields.lookup name).map revive := by
  induction fields with
  | nil => rfl
  | cons e fields ih =>
      unfold reviveFields
      rw [List.lookup_cons, List.lookup_cons]
      split
      · rfl
      · exact ih

/-- The reviver works on each field by itself. -/
theorem field_revive (v : JsVal) (name : JsString) : (revive v).field name = (v.field name).map revive := by
  cases v with
  | obj fields => exact lookup_reviveFields fields name
  | str s =>
      rw [revive_str]
      cases bigintOf s with
      | none => rfl
      | some i => rfl
  | arr xs => rfl
  | _ => rfl

/-- A value that plain `JSON.parse` builds, with finite numbers. -/
def IsJson (v : JsVal) : Prop := v.hasBigInt = false ∧ v.AllFinite

/-- Some string comes in as a `BigInt` that goes out as another string. -/
def hasRewritten (v : JsVal) : Bool := v.anyLeaf isRewritten fun _ => false

mutual

theorem hasBigInt_revive : ∀ v : JsVal, v.hasBigInt = false →
    (revive v).hasBigInt = v.anyLeaf readsAsBigInt (fun _ => false)
  | .null, _ => rfl
  | .bool _, _ => rfl
  | .num _, _ => rfl
  | .bigint _, h => by cases h
  | .str s, _ => by
      rw [revive_str]
      unfold anyLeaf readsAsBigInt
      cases bigintOf s with
      | none => rfl
      | some i => rfl
  | .arr xs, h => listHasBigInt_revive xs h
  | .obj fields, h => fieldsHaveBigInt_revive fields h

theorem listHasBigInt_revive : ∀ xs : List JsVal, listHasBigInt xs = false →
    listHasBigInt (reviveList xs) = listAnyLeaf readsAsBigInt (fun _ => false) xs
  | [], _ => rfl
  | x :: xs, h => by
      unfold listHasBigInt at h
      obtain ⟨hx, hxs⟩ := Bool.or_eq_false_iff.mp h
      unfold reviveList listHasBigInt listAnyLeaf
      rw [hasBigInt_revive x hx, listHasBigInt_revive xs hxs]

theorem fieldsHaveBigInt_revive : ∀ fields : List (JsString × JsVal), fieldsHaveBigInt fields = false →
    fieldsHaveBigInt (reviveFields fields) = fieldsAnyLeaf readsAsBigInt (fun _ => false) fields
  | [], _ => rfl
  | (name, x) :: fields, h => by
      unfold fieldsHaveBigInt at h
      obtain ⟨hx, hfields⟩ := Bool.or_eq_false_iff.mp h
      unfold reviveFields fieldsHaveBigInt fieldsAnyLeaf
      rw [hasBigInt_revive x hx, fieldsHaveBigInt_revive fields hfields]

end

mutual

theorem replace_revive_iff : ∀ v : JsVal, v.hasBigInt = false →
    v.anyLeaf (fun _ => false) notFinite = false →
      (replace (revive v) = v ↔ v.anyLeaf isRewritten (fun _ => false) = false)
  | .null, _, _ => ⟨fun _ => rfl, fun _ => rfl⟩
  | .bool _, _, _ => ⟨fun _ => rfl, fun _ => rfl⟩
  | .num (.fin _), _, _ => ⟨fun _ => rfl, fun _ => rfl⟩
  | .num (.inf _), _, h => by cases h
  | .num .nan, _, h => by cases h
  | .bigint _, h, _ => by cases h
  | .str s, _, _ => by
      rw [revive_str]
      unfold anyLeaf isRewritten
      cases bigintOf s with
      | none => exact ⟨fun _ => rfl, fun _ => rfl⟩
      | some i =>
          dsimp only
          unfold replace
          rw [JsVal.str.injEq, Option.any_some, decide_eq_false_iff_not, not_not]
          exact Iff.rfl
  | .arr xs, hb, h => by
      unfold revive replace anyLeaf
      rw [JsVal.arr.injEq]
      exact replaceList_reviveList_iff xs hb h
  | .obj fields, hb, h => by
      unfold revive replace anyLeaf
      rw [JsVal.obj.injEq]
      exact replaceFields_reviveFields_iff fields hb h

theorem replaceList_reviveList_iff : ∀ xs : List JsVal, listHasBigInt xs = false →
    listAnyLeaf (fun _ => false) notFinite xs = false →
      (replaceList (reviveList xs) = xs ↔ listAnyLeaf isRewritten (fun _ => false) xs = false)
  | [], _, _ => ⟨fun _ => rfl, fun _ => rfl⟩
  | x :: xs, hb, h => by
      unfold listHasBigInt at hb
      unfold listAnyLeaf at h ⊢
      obtain ⟨hbx, hbxs⟩ := Bool.or_eq_false_iff.mp hb
      obtain ⟨hx, hxs⟩ := Bool.or_eq_false_iff.mp h
      unfold reviveList replaceList
      rw [List.cons.injEq, Bool.or_eq_false_iff, replace_revive_iff x hbx hx,
        replaceList_reviveList_iff xs hbxs hxs]

theorem replaceFields_reviveFields_iff : ∀ fields : List (JsString × JsVal),
    fieldsHaveBigInt fields = false → fieldsAnyLeaf (fun _ => false) notFinite fields = false →
      (replaceFields (reviveFields fields) = fields ↔
        fieldsAnyLeaf isRewritten (fun _ => false) fields = false)
  | [], _, _ => ⟨fun _ => rfl, fun _ => rfl⟩
  | (name, x) :: fields, hb, h => by
      unfold fieldsHaveBigInt at hb
      unfold fieldsAnyLeaf at h ⊢
      obtain ⟨hbx, hbfields⟩ := Bool.or_eq_false_iff.mp hb
      obtain ⟨hx, hfields⟩ := Bool.or_eq_false_iff.mp h
      unfold reviveFields replaceFields
      rw [List.cons.injEq, Prod.mk.injEq, Bool.or_eq_false_iff, replace_revive_iff x hbx hx,
        replaceFields_reviveFields_iff fields hbfields hfields]
      simp

end

mutual

theorem anyLeaf_eq_false_of_imp {p p' : JsString → Bool} {q : JsNum → Bool}
    (h : ∀ s, p' s = false → p s = false) : ∀ v : JsVal, v.anyLeaf p' q = false → v.anyLeaf p q = false
  | .null, _ => rfl
  | .bool _, _ => rfl
  | .num _, hv => hv
  | .bigint _, _ => rfl
  | .str s, hv => h s hv
  | .arr xs, hv => listAnyLeaf_eq_false_of_imp h xs hv
  | .obj fields, hv => fieldsAnyLeaf_eq_false_of_imp h fields hv

theorem listAnyLeaf_eq_false_of_imp {p p' : JsString → Bool} {q : JsNum → Bool}
    (h : ∀ s, p' s = false → p s = false) :
    ∀ xs : List JsVal, listAnyLeaf p' q xs = false → listAnyLeaf p q xs = false
  | [], _ => rfl
  | x :: xs, hv => by
      unfold listAnyLeaf at hv ⊢
      obtain ⟨hx, hxs⟩ := Bool.or_eq_false_iff.mp hv
      rw [anyLeaf_eq_false_of_imp h x hx, listAnyLeaf_eq_false_of_imp h xs hxs]
      rfl

theorem fieldsAnyLeaf_eq_false_of_imp {p p' : JsString → Bool} {q : JsNum → Bool}
    (h : ∀ s, p' s = false → p s = false) : ∀ fields : List (JsString × JsVal),
    fieldsAnyLeaf p' q fields = false → fieldsAnyLeaf p q fields = false
  | [], _ => rfl
  | (name, x) :: fields, hv => by
      unfold fieldsAnyLeaf at hv ⊢
      obtain ⟨hx, hfields⟩ := Bool.or_eq_false_iff.mp hv
      rw [anyLeaf_eq_false_of_imp h x hx, fieldsAnyLeaf_eq_false_of_imp h fields hfields]
      rfl

end

/-- Only a string that comes in as a `BigInt` is rewritten. -/
theorem not_hasRewritten {v : JsVal} (h : v.hasNumeral = false) : v.hasRewritten = false := by
  refine anyLeaf_eq_false_of_imp (fun s hs => ?_) v h
  unfold isRewritten
  rw [Option.isSome_eq_false_iff.mp hs |> Option.isNone_iff_eq_none.mp]
  rfl

end JsVal
