import Mathlib.Data.Nat.Digits.Lemmas
import Mathlib.Data.Rat.Floor

/-!
# Strings and numbers of the language

A string is its list of UTF-16 code units, lone surrogates included, since lengths in bytes and
comparisons are taken on those. A number is an exact rational or an infinity; the operations that
round (`parseInt` of a long digit string) round to the nearest double, ties to even.
-/

/-- A string: its UTF-16 code units. -/
abbrev JsString := List UInt16

instance instLawfulBEqJsString : LawfulBEq JsString := inferInstance

namespace JsText

/-- The code units of one character. -/
def utf16 (c : Char) : JsString :=
  let n := c.val.toNat
  if n < 0x10000 then [UInt16.ofNat n]
  else [UInt16.ofNat (0xD800 + (n - 0x10000) / 0x400), UInt16.ofNat (0xDC00 + (n - 0x10000) % 0x400)]

/-- A string literal of the source. -/
def js (s : String) : JsString := s.toList.flatMap utf16

def isHigh (u : UInt16) : Bool := 0xD800 ≤ u && u < 0xDC00

def isLow (u : UInt16) : Bool := 0xDC00 ≤ u && u < 0xE000

/-- The bytes of one code unit outside a surrogate pair. A lone surrogate is written as U+FFFD. -/
def unitWidth (u : UInt16) : Nat :=
  if u < 0x80 then 1 else if u < 0x800 then 2 else 3

/-- `Buffer.byteLength` in UTF-8. -/
def utf8Length : JsString → Nat
  | [] => 0
  | [u] => unitWidth u
  | u :: v :: us =>
      if isHigh u && isLow v then 4 + utf8Length us else unitWidth u + utf8Length (v :: us)

/-- The white space `trim` and `parseInt` skip. -/
def isSpace (u : UInt16) : Bool :=
  (9 ≤ u && u ≤ 13) || u == 0x20 || u == 0xA0 || u == 0x1680 || (0x2000 ≤ u && u ≤ 0x200A) ||
    u == 0x2028 || u == 0x2029 || u == 0x202F || u == 0x205F || u == 0x3000 || u == 0xFEFF

/-- `String.prototype.trim`. -/
def trim (s : JsString) : JsString :=
  ((s.dropWhile isSpace).reverse.dropWhile isSpace).reverse

/-- `String.prototype.split` at a one-unit separator. -/
def split (s : JsString) (sep : UInt16) : List JsString := s.splitOn sep

/-- `toLowerCase`, for a comparison with a word of ASCII letters other than `i` and `k`. -/
def toLowerCase (s : JsString) : JsString := s.map fun u => if 65 ≤ u && u ≤ 90 then u + 32 else u

/-- `String.prototype.padStart`. -/
def padStart (s : JsString) (len : Nat) (fill : UInt16) : JsString :=
  List.replicate (len - s.length) fill ++ s

def isDigit (u : UInt16) : Bool := 48 ≤ u && u ≤ 57

def digitUnit (d : Nat) : UInt16 := UInt16.ofNat (if d < 10 then 48 + d else 87 + d)

/-- `toString(radix)` of a non-negative integer. -/
def natToString (radix n : Nat) : JsString :=
  if n = 0 then [48] else ((Nat.digits radix n).reverse).map digitUnit

/-- A numeral has no minus sign in it. -/
theorem minus_notMem_natToString {radix : Nat} (h2 : 2 ≤ radix) (h36 : radix ≤ 36) (n : Nat) :
    45 ∉ natToString radix n := by
  unfold natToString
  split
  · decide
  · intro hmem
    obtain ⟨d, hd, heq⟩ := List.mem_map.mp hmem
    have hlt : d < radix := Nat.digits_lt_base (by omega) (List.mem_reverse.mp hd)
    have h' : (if d < 10 then 48 + d else 87 + d) % 2 ^ 16 = 45 := congrArg UInt16.toNat heq
    split at h' <;> omega

/-- `toString(radix)` of a `BigInt`. -/
def intToString (radix : Nat) (i : Int) : JsString :=
  if i < 0 then 45 :: natToString radix i.natAbs else natToString radix i.natAbs

theorem digitUnit_injOn {a b : Nat} (ha : a < 36) (hb : b < 36) (h : digitUnit a = digitUnit b) :
    a = b := by
  have h' : (if a < 10 then 48 + a else 87 + a) % 2 ^ 16 = (if b < 10 then 48 + b else 87 + b) % 2 ^ 16 :=
    congrArg UInt16.toNat h
  split at h' <;> split at h' <;> omega

theorem map_digitUnit_injOn {l m : List Nat} (hl : ∀ d ∈ l, d < 36) (hm : ∀ d ∈ m, d < 36)
    (h : l.map digitUnit = m.map digitUnit) : l = m := by
  induction l generalizing m with
  | nil => exact (List.map_eq_nil_iff.mp h.symm).symm
  | cons a l ih =>
      cases m with
      | nil => simp at h
      | cons b m =>
          rw [List.map_cons, List.map_cons, List.cons.injEq] at h
          rw [digitUnit_injOn (hl a List.mem_cons_self) (hm b List.mem_cons_self) h.1,
            ih (fun d hd => hl d (List.mem_cons_of_mem _ hd))
              (fun d hd => hm d (List.mem_cons_of_mem _ hd)) h.2]

/-- Two numbers with one numeral are equal. -/
theorem natToString_injective {radix : Nat} (h2 : 2 ≤ radix) (h36 : radix ≤ 36) {m n : Nat}
    (h : natToString radix m = natToString radix n) : m = n := by
  have hlt : ∀ k, ∀ d ∈ (Nat.digits radix k).reverse, d < 36 := fun k d hd =>
    (Nat.digits_lt_base (by omega) (List.mem_reverse.mp hd)).trans_le h36
  have hzero : ∀ k, k ≠ 0 → natToString radix k ≠ [48] := by
    intro k hk heq
    rw [natToString, if_neg hk] at heq
    have hmap : (Nat.digits radix k).reverse.map digitUnit = [0].map digitUnit := heq
    have hrev := map_digitUnit_injOn (hlt k) (by simp) hmap
    have hdig : Nat.digits radix k = [0] := by simpa using congrArg List.reverse hrev
    have := congrArg (Nat.ofDigits radix) hdig
    rw [Nat.ofDigits_digits] at this
    exact hk (by simpa using this)
  by_cases hm : m = 0
  · by_cases hn : n = 0
    · rw [hm, hn]
    · exact absurd h.symm (by rw [show natToString radix m = [48] by rw [natToString, if_pos hm]]; exact hzero n hn)
  · by_cases hn : n = 0
    · exact absurd h (by rw [show natToString radix n = [48] by rw [natToString, if_pos hn]]; exact hzero m hm)
    · rw [natToString, if_neg hm, natToString, if_neg hn] at h
      have hrev := map_digitUnit_injOn (hlt m) (hlt n) h
      exact Nat.digits_inj_iff.mp (List.reverse_injective hrev)

/-- A numeral other than `0` starts with another digit. -/
theorem natToString_eq_cons {radix n : Nat} (h2 : 2 ≤ radix) (h36 : radix ≤ 36) (hn : n ≠ 0) :
    ∃ u rest, natToString radix n = u :: rest ∧ u ≠ 48 := by
  have hne : Nat.digits radix n ≠ [] := Nat.digits_ne_nil_iff_ne_zero.mpr hn
  have hlast := Nat.getLast_digit_ne_zero radix hn
  have hlt := Nat.digits_lt_base (by omega : 1 < radix) (List.getLast_mem hne)
  have hrev : (Nat.digits radix n).reverse =
      (Nat.digits radix n).getLast hne :: (Nat.digits radix n).dropLast.reverse := by
    conv_lhs => rw [← List.dropLast_append_getLast hne]
    rw [List.reverse_append]
    rfl
  refine ⟨_, _, by rw [natToString, if_neg hn, hrev, List.map_cons], fun hzero => hlast ?_⟩
  exact digitUnit_injOn (hlt.trans_le h36) (by omega) hzero

/-- A text without its leading zeros. -/
def unpad (s : JsString) : JsString := s.dropWhile (· = 48)

theorem unpad_padStart (s : JsString) (len : Nat) : unpad (padStart s len 48) = unpad s := by
  unfold padStart
  generalize len - s.length = k
  induction k with
  | zero => rfl
  | succ k ih => exact ih

theorem unpad_natToString {radix n : Nat} (h2 : 2 ≤ radix) (h36 : radix ≤ 36) :
    unpad (natToString radix n) = if n = 0 then [] else natToString radix n := by
  split
  · rename_i hn
    rw [hn]
    rfl
  · rename_i hn
    obtain ⟨u, rest, heq, hu⟩ := natToString_eq_cons h2 h36 hn
    rw [heq, unpad, List.dropWhile_cons_of_neg (by simpa using hu)]

/-- Padding with zeros keeps numerals apart. -/
theorem padStart_intToString_injective {radix len : Nat} (h2 : 2 ≤ radix) (h36 : radix ≤ 36)
    {i j : Int} (h : padStart (intToString radix i) len 48 = padStart (intToString radix j) len 48) :
    i = j := by
  have hneg : ∀ k : Int, k < 0 → unpad (intToString radix k) = 45 :: natToString radix k.natAbs := by
    intro k hk
    rw [intToString, if_pos hk]
    rfl
  have hpos : ∀ k : Int, ¬k < 0 → unpad (intToString radix k) =
      if k.natAbs = 0 then [] else natToString radix k.natAbs := by
    intro k hk
    rw [intToString, if_neg hk, unpad_natToString h2 h36]
  have hminus : ∀ k : Int, 45 ∉ if k.natAbs = 0 then [] else natToString radix k.natAbs := by
    intro k
    split
    · simp
    · exact minus_notMem_natToString h2 h36 _
  have hunpad : unpad (intToString radix i) = unpad (intToString radix j) := by
    rw [← unpad_padStart _ len, h, unpad_padStart]
  by_cases hi : i < 0
  · by_cases hj : j < 0
    · rw [hneg i hi, hneg j hj] at hunpad
      have := natToString_injective h2 h36 (List.cons.inj hunpad).2
      omega
    · rw [hneg i hi, hpos j hj] at hunpad
      exact absurd (hunpad ▸ List.mem_cons_self) (hminus j)
  · by_cases hj : j < 0
    · rw [hpos i hi, hneg j hj] at hunpad
      exact absurd (hunpad ▸ List.mem_cons_self) (hminus i)
    · rw [hpos i hi, hpos j hj] at hunpad
      split at hunpad
      · split at hunpad
        · omega
        · rename_i hzero hne
          obtain ⟨u, rest, heq, -⟩ := natToString_eq_cons h2 h36 hne
          rw [heq] at hunpad
          cases hunpad
      · rename_i hne
        split at hunpad
        · obtain ⟨u, rest, heq, -⟩ := natToString_eq_cons h2 h36 hne
          rw [heq] at hunpad
          cases hunpad
        · have := natToString_injective h2 h36 hunpad
          omega

/-- `String.prototype.trimEnd`. -/
def trimEnd (s : JsString) : JsString := (s.reverse.dropWhile isSpace).reverse

/-- `BigInt('0x' + s)`, which skips white space at the end; `none` where that throws. -/
def hexValue (s : JsString) : Option Nat :=
  let s := trimEnd s
  if s = [] then none
  else s.foldl (fun acc u => acc.bind fun n =>
    if 48 ≤ u && u ≤ 57 then some (16 * n + (u.toNat - 48))
    else if 97 ≤ u && u ≤ 102 then some (16 * n + (u.toNat - 87))
    else if 65 ≤ u && u ≤ 70 then some (16 * n + (u.toNat - 55))
    else none) (some 0)

/-- A character below the blank, as `JSON.stringify` writes it. -/
def escapeControl (u : UInt16) : JsString :=
  if u = 8 then [92, 98]
  else if u = 9 then [92, 116]
  else if u = 10 then [92, 110]
  else if u = 12 then [92, 102]
  else if u = 13 then [92, 114]
  else [92, 117] ++ padStart (natToString 16 u.toNat) 4 48

/-- The characters of a string between the quotation marks of `JSON.stringify`. -/
def escape : JsString → JsString
  | [] => []
  | [u] => escapeUnit u
  | u :: v :: us =>
      if 0xD800 ≤ u ∧ u < 0xDC00 ∧ 0xDC00 ≤ v ∧ v < 0xE000 then u :: v :: escape us
      else escapeUnit u ++ escape (v :: us)
where
  /-- A unit that is not half of a surrogate pair. -/
  escapeUnit (u : UInt16) : JsString :=
    if u = 34 ∨ u = 92 then [92, u]
    else if u < 32 then escapeControl u
    else if 0xD800 ≤ u ∧ u < 0xE000 then [92, 117] ++ natToString 16 u.toNat
    else [u]

/-- `JSON.stringify` of a string. -/
def quote (s : JsString) : JsString := 34 :: escape s ++ [34]

/-- `join(', ')` -/
def joinComma : List JsString → JsString
  | [] => []
  | [s] => s
  | s :: ss => s ++ js ", " ++ joinComma ss

/-- The names that an object literal has a member of from `Object.prototype`. -/
def objectPrototype : List JsString :=
  [js "constructor", js "__defineGetter__", js "__defineSetter__", js "hasOwnProperty",
    js "__lookupGetter__", js "__lookupSetter__", js "isPrototypeOf", js "propertyIsEnumerable",
    js "toString", js "valueOf", js "__proto__", js "toLocaleString"]

/-- Such a member as text. -/
def prototypeText (name : JsString) : JsString :=
  if name = js "__proto__" then js "[object Object]"
  else js "function " ++ (if name = js "constructor" then js "Object" else name) ++
    js "() \x7b [native code] \x7d"

end JsText

/-! ### Numbers -/

/-- A number value: finite, infinite or not a number. -/
inductive JsNum where
  | fin (q : ℚ)
  | inf (negative : Bool)
  | nan
  deriving DecidableEq

namespace JsNum

/-- The nearest integer, ties to even. -/
def roundHalfEven (q : ℚ) : Int :=
  let f := ⌊q⌋
  if q - f < 1 / 2 then f
  else if 1 / 2 < q - f then f + 1
  else if f % 2 = 0 then f
  else f + 1

/-- The exponent `e` with `2 ^ e ≤ q < 2 ^ (e + 1)`, for a positive `q`. -/
def binade (q : ℚ) : Int :=
  let e : Int := (Nat.log2 q.num.natAbs : Int) - Nat.log2 q.den
  if (2 : ℚ) ^ e ≤ q then e else e - 1

/-- The double nearest to a rational. -/
def toDouble (q : ℚ) : JsNum :=
  if q = 0 then .fin 0
  else
    let a := |q|
    let u := max (binade a - 52) (-1074)
    let v := (roundHalfEven (a / (2 : ℚ) ^ u) : ℚ) * (2 : ℚ) ^ u
    if (2 : ℚ) ^ (1024 : Nat) ≤ v then .inf (decide (q < 0))
    else .fin (if q < 0 then -v else v)

def ofInt (i : Int) : JsNum := .fin i

/-- The number is falsy: zero or not a number. -/
def isFalsy : JsNum → Bool
  | .fin q => q = 0
  | .inf _ => false
  | .nan => true

/-- `a < b` on numbers. -/
def lt : JsNum → JsNum → Bool
  | .fin p, .fin q => p < q
  | .fin _, .inf negative => !negative
  | .inf negative, .fin _ => negative
  | .inf a, .inf b => a && !b
  | .nan, _ => false
  | _, .nan => false

/-- An integer `s` for which `s * 10 ^ (n - k)` reads back as the double `q`: the nearest to it, or the one
on the other side of it, which reads back alone where the doubles below it are closer than those above. -/
def readsBack (q : ℚ) (n : Int) (k : Nat) : Option Int :=
  let u := (10 : ℚ) ^ (n - k)
  let s := roundHalfEven (q / u)
  [s, if s ≤ q / u then s + 1 else s - 1].find? fun s => toDouble (s * u) = .fin q

/-- The shortest decimal digits `s` and the exponent `n` such that the double nearest to
`s * 10 ^ (n - k)`, with `k` the number of digits, is the positive double `q`. -/
def shortest (q : ℚ) : Nat × Int :=
  let n := ((List.range 700).map fun i : Nat => (i : Int) - 340).find? fun n => q < (10 : ℚ) ^ n
  let n := n.getD 0
  let digits := (List.range 17).findSome? fun i : Nat =>
    (readsBack q n (i + 1)).map fun s =>
      if s = (10 : Int) ^ (i + 1) then ((10 : Nat) ^ i, n + 1) else (s.natAbs, n)
  digits.getD (0, n)

/-- `Number.prototype.toString` of a positive double. -/
def positiveToString (q : ℚ) : JsString :=
  let (s, n) := shortest q
  let digits := JsText.natToString 10 s
  let k := (digits.length : Int)
  if k ≤ n ∧ n ≤ 21 then digits ++ List.replicate (n - k).toNat 48
  else if 0 < n ∧ n ≤ 21 then digits.take n.toNat ++ [46] ++ digits.drop n.toNat
  else if -6 < n ∧ n ≤ 0 then [48, 46] ++ List.replicate (-n).toNat 48 ++ digits
  else
    let e := n - 1
    let sign : JsString := if e < 0 then [101, 45] else [101, 43]
    let mantissa := if digits.length = 1 then digits else digits.take 1 ++ [46] ++ digits.drop 1
    mantissa ++ sign ++ JsText.natToString 10 e.natAbs

/-- `Number.prototype.toString`. -/
def toString : JsNum → JsString
  | .nan => JsText.js "NaN"
  | .inf negative => if negative then JsText.js "-Infinity" else JsText.js "Infinity"
  | .fin q =>
      if q = 0 then [48]
      else if q < 0 then 45 :: positiveToString (-q)
      else positiveToString q

end JsNum

namespace JsText

/-- `parseInt(s, 10)`: white space, a sign, then the longest run of digits. -/
def parseInt (s : JsString) : JsNum :=
  let s := s.dropWhile isSpace
  let (negative, s) :=
    match s with
    | 45 :: s => (true, s)
    | 43 :: s => (false, s)
    | s => (false, s)
  let digits := s.takeWhile isDigit
  if digits = [] then .nan
  else
    let n : Nat := digits.foldl (fun n u => 10 * n + (u.toNat - 48)) 0
    JsNum.toDouble (if negative then -(n : ℚ) else n)

end JsText
