import Mathlib.Data.ENat.Basic
import AxonaBridge.JsText

/-!
# The texts of `JSON.stringify`

What `JSON.stringify` without a replacer writes, and how many bytes of UTF-8 that takes: the bytes of the
parts, with the brackets, the commas and the colons between them.
-/

open JsText

/-! ### Lengths in UTF-8 -/

namespace JsText

theorem isHigh_of_ascii {c : UInt16} (hc : c < 128) : isHigh c = false := by
  unfold isHigh
  simp only [UInt16.lt_iff_toNat_lt, UInt16.le_iff_toNat_le] at hc ⊢
  simp at hc ⊢
  omega

theorem isLow_of_ascii {c : UInt16} (hc : c < 128) : isLow c = false := by
  unfold isLow
  simp only [UInt16.lt_iff_toNat_lt, UInt16.le_iff_toNat_le] at hc ⊢
  simp at hc ⊢
  omega

theorem utf8Length_cons_of_ascii {c : UInt16} (hc : c < 128) (t : JsString) :
    utf8Length (c :: t) = 1 + utf8Length t := by
  have hwidth : unitWidth c = 1 := if_pos hc
  cases t with
  | nil => exact hwidth
  | cons v us =>
      rw [utf8Length, isHigh_of_ascii hc, hwidth]
      rfl

/-- A character of ASCII stands by itself. -/
theorem utf8Length_append_cons {c : UInt16} (hc : c < 128) (s t : JsString) :
    utf8Length (s ++ c :: t) = utf8Length s + 1 + utf8Length t := by
  induction s using utf8Length.induct with
  | case1 =>
      rw [List.nil_append, utf8Length_cons_of_ascii hc]
      rfl
  | case2 u =>
      have hsingle : utf8Length (u :: c :: t) = unitWidth u + utf8Length (c :: t) := by
        rw [utf8Length, isLow_of_ascii hc, Bool.and_false, if_neg Bool.false_ne_true]
      rw [List.singleton_append, hsingle, utf8Length_cons_of_ascii hc, ← Nat.add_assoc]
      rfl
  | case3 u v us hpair ih =>
      rw [List.cons_append, List.cons_append, utf8Length, if_pos hpair, ih, utf8Length, if_pos hpair]
      omega
  | case4 u v us hpair ih =>
      rw [List.cons_append, List.cons_append, utf8Length, if_neg hpair, ← List.cons_append, ih, utf8Length,
        if_neg hpair]
      omega

theorem utf8Length_intercalate (ss : List JsString) :
    utf8Length (List.intercalate [44] ss) = (ss.map utf8Length).sum + (ss.length - 1) := by
  induction ss with
  | nil => rfl
  | cons s ss ih =>
      cases ss with
      | nil => simp [List.intercalate_singleton]
      | cons s' ss =>
          rw [List.intercalate_cons_cons, List.append_assoc, List.singleton_append,
            utf8Length_append_cons (by decide), ih]
          simp only [List.map_cons, List.sum_cons, List.length_cons]
          omega

end JsText

/-- A value handed to `JSON.stringify`, to which a function or a symbol is `undefined`. -/
inductive PlainVal where
  | undefined
  | null
  | bool (b : Bool)
  | num (x : JsNum)
  | str (s : JsString)
  | bigint (i : Int)
  | arr (xs : List PlainVal)
  | obj (fields : List (JsString × PlainVal))

namespace PlainVal

def isUndefined : PlainVal → Bool
  | .undefined => true
  | _ => false

mutual

/-- `JSON.stringify` throws on the value. -/
def hasBigInt : PlainVal → Bool
  | .bigint _ => true
  | .arr xs => listHasBigInt xs
  | .obj fields => fieldsHaveBigInt fields
  | _ => false

def listHasBigInt : List PlainVal → Bool
  | [] => false
  | x :: xs => hasBigInt x || listHasBigInt xs

def fieldsHaveBigInt : List (JsString × PlainVal) → Bool
  | [] => false
  | (_, x) :: fields => hasBigInt x || fieldsHaveBigInt fields

end

mutual

/-- The text of a value without a `BigInt`; `undefined` has one in an array only. -/
def text : PlainVal → JsString
  | .undefined => js "null"
  | .null => js "null"
  | .bool true => js "true"
  | .bool false => js "false"
  | .num (.fin q) => (JsNum.fin q).toString
  | .num _ => js "null"
  | .str s => quote s
  | .bigint _ => []
  | .arr xs => 91 :: (List.intercalate [44] (texts xs) ++ [93])
  | .obj fields => 123 :: (List.intercalate [44] (members fields) ++ [125])

def texts : List PlainVal → List JsString
  | [] => []
  | x :: xs => text x :: texts xs

/-- An object leaves out what is `undefined`. -/
def members : List (JsString × PlainVal) → List JsString
  | [] => []
  | (name, x) :: fields =>
      if x.isUndefined then members fields else (quote name ++ 58 :: text x) :: members fields

end

/-- `JSON.stringify` of a value other than `undefined`. -/
def stringify (v : PlainVal) : Option JsString := if v.hasBigInt then none else some v.text

/-- The bytes of the text, without a bound where `JSON.stringify` throws. -/
def bytes (v : PlainVal) : ℕ∞ := if v.hasBigInt then ⊤ else utf8Length v.text

/-! ### The bytes of the parts -/

/-- The bytes of some texts with the commas between them. -/
def joined (ns : List ℕ∞) : ℕ∞ := ns.sum + (ns.length - 1 : ℕ)

variable {v : PlainVal} {xs : List PlainVal} {fields : List (JsString × PlainVal)}

/-- The bytes of a name, with its colon, and of a value. -/
def memberBytes (name : JsString) (n : ℕ∞) : ℕ∞ := (utf8Length (quote name) + 1 : ℕ) + n

theorem bytes_le_iff {n : Nat} : v.bytes ≤ n ↔ ∃ t, v.stringify = some t ∧ utf8Length t ≤ n := by
  unfold bytes stringify
  cases v.hasBigInt with
  | true => simp
  | false => simp

theorem sum_bytes (xs : List PlainVal) : (xs.map bytes).sum =
    (if listHasBigInt xs then ⊤ else (((texts xs).map utf8Length).sum : ℕ) : ℕ∞) := by
  induction xs with
  | nil => rfl
  | cons x xs ih =>
      rw [List.map_cons, List.sum_cons, ih, listHasBigInt, texts, List.map_cons, List.sum_cons, bytes]
      cases x.hasBigInt <;> cases listHasBigInt xs <;> simp

theorem length_texts (xs : List PlainVal) : (texts xs).length = xs.length := by
  induction xs with
  | nil => rfl
  | cons x xs ih => rw [texts, List.length_cons, List.length_cons, ih]

theorem length_members (fields : List (JsString × PlainVal)) :
    (members fields).length = (fields.filter fun f => !f.2.isUndefined).length := by
  induction fields with
  | nil => rfl
  | cons f fields ih =>
      rw [members, List.filter_cons]
      cases f.2.isUndefined with
      | true => exact ih
      | false => exact congrArg (· + 1) ih

theorem sum_memberBytes (fields : List (JsString × PlainVal)) :
    ((fields.filter fun f => !f.2.isUndefined).map fun f => memberBytes f.1 f.2.bytes).sum =
      (if fieldsHaveBigInt fields then ⊤ else (((members fields).map utf8Length).sum : ℕ) : ℕ∞) := by
  induction fields with
  | nil => rfl
  | cons f fields ih =>
      rw [members, List.filter_cons, fieldsHaveBigInt]
      cases hundefined : f.2.isUndefined with
      | true =>
          have hnone : f.2.hasBigInt = false := by
            cases hf : f.2 <;> rw [hf] at hundefined <;> first | rfl | cases hundefined
          rw [hnone]
          exact ih
      | false =>
          rw [if_pos (by rfl), List.map_cons, List.sum_cons, ih, if_neg Bool.false_ne_true, List.map_cons,
            List.sum_cons, utf8Length_append_cons (by decide), memberBytes, bytes]
          cases f.2.hasBigInt <;> cases fieldsHaveBigInt fields <;> simp

/-- The brackets around a text. -/
theorem utf8Length_bracket {a b : UInt16} (ha : a < 128) (hb : b < 128) (t : JsString) :
    utf8Length (a :: (t ++ [b])) = 2 + utf8Length t := by
  rw [utf8Length_cons_of_ascii ha, utf8Length_append_cons hb]
  have hnil : utf8Length [] = 0 := rfl
  omega

theorem bytes_arr (xs : List PlainVal) : (PlainVal.arr xs).bytes = 2 + joined (xs.map bytes) := by
  have htext : utf8Length (PlainVal.arr xs).text =
      2 + (((texts xs).map utf8Length).sum + (xs.length - 1)) := by
    rw [text, utf8Length_bracket (by decide) (by decide), utf8Length_intercalate, length_texts]
  unfold joined
  rw [sum_bytes, List.length_map, bytes, htext, hasBigInt]
  cases listHasBigInt xs with
  | true => simp
  | false =>
      rw [if_neg Bool.false_ne_true, if_neg Bool.false_ne_true, Nat.cast_add, Nat.cast_add]
      rfl

theorem bytes_obj (fields : List (JsString × PlainVal)) : (PlainVal.obj fields).bytes =
    2 + joined ((fields.filter fun f => !f.2.isUndefined).map fun f => memberBytes f.1 f.2.bytes) := by
  have htext : utf8Length (PlainVal.obj fields).text =
      2 + (((members fields).map utf8Length).sum + ((fields.filter fun f => !f.2.isUndefined).length - 1)) := by
    rw [text, utf8Length_bracket (by decide) (by decide), utf8Length_intercalate, length_members]
  unfold joined
  rw [sum_memberBytes, List.length_map, bytes, htext, hasBigInt]
  cases fieldsHaveBigInt fields with
  | true => simp
  | false =>
      rw [if_neg Bool.false_ne_true, if_neg Bool.false_ne_true, Nat.cast_add, Nat.cast_add]
      rfl

end PlainVal
