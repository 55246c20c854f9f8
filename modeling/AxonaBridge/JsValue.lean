import AxonaBridge.JsText

/-!
# Values read off the wire

The values `JSON.parse` builds, with the `BigInt`s a reviver may put among them, and the operations
of the language on them: reading a field, truth, conversion to a string, and whether
`JSON.stringify` without a replacer throws.
-/

open JsText

/-- What a computation of the language may throw. -/
inductive JsError where
  /-- A property of `null` or `undefined` was read. -/
  | nullProperty
  /-- `JSON.stringify` met a `BigInt`. -/
  | bigintInJson
  /-- An object could not be converted to a primitive value. -/
  | toPrimitive
  /-- `ws.close` refused its reason. -/
  | closeReason
  /-- A numeral could not be read as a `BigInt`. -/
  | badNumeral
  deriving DecidableEq

/-- A value; an object's fields are listed under distinct names, in the order of the object. -/
inductive JsVal where
  | null
  | bool (b : Bool)
  | num (x : JsNum)
  | str (s : JsString)
  | bigint (i : Int)
  | arr (xs : List JsVal)
  | obj (fields : List (JsString × JsVal))

namespace JsVal

/-- Read a field of a value that is neither `null` nor `undefined`; `none` is `undefined`. No name
the bridge reads is a property of a primitive value or of an array. -/
def field (v : JsVal) (name : JsString) : Option JsVal :=
  match v with
  | .obj fields => fields.lookup name
  | _ => none

/-- Read a field of what may be `null` or `undefined`. -/
def read (v : Option JsVal) (name : JsString) : Except JsError (Option JsVal) :=
  match v with
  | none => .error .nullProperty
  | some .null => .error .nullProperty
  | some v => .ok (v.field name)

/-- `v?.name`. -/
def readOpt (v : Option JsVal) (name : JsString) : Option JsVal := v.bind fun v => v.field name

/-- A value that is true in a condition. -/
def truthy : Option JsVal → Bool
  | none => false
  | some .null => false
  | some (.bool b) => b
  | some (.num x) => !x.isFalsy
  | some (.str s) => s ≠ []
  | some (.bigint i) => i ≠ 0
  | some (.arr _) => true
  | some (.obj _) => true

/-- `typeof v === 'object'` for a value other than `null`. -/
def isObject : JsVal → Bool
  | .arr _ => true
  | .obj _ => true
  | _ => false

/-- The string, where the value is one. -/
def asString : Option JsVal → Option JsString
  | some (.str s) => some s
  | _ => none

/-- `v ?? null` -/
def orNull : Option JsVal → JsVal
  | none => .null
  | some v => v

/-! ### `JSON.stringify` without a replacer -/

mutual

/-- The value holds a `BigInt` somewhere, so that `JSON.stringify` throws on it. -/
def hasBigInt : JsVal → Bool
  | .bigint _ => true
  | .arr xs => listHasBigInt xs
  | .obj fields => fieldsHaveBigInt fields
  | _ => false

def listHasBigInt : List JsVal → Bool
  | [] => false
  | x :: xs => hasBigInt x || listHasBigInt xs

def fieldsHaveBigInt : List (JsString × JsVal) → Bool
  | [] => false
  | (_, x) :: fields => hasBigInt x || fieldsHaveBigInt fields

end

/-- A string or `null`. -/
def ofString? : Option JsString → JsVal
  | none => .null
  | some s => .str s

/-! ### Conversion to a string -/

mutual

/-- `String(v)`, as a template literal converts it. An object of the wire converts through
`Object.prototype.toString` unless it has a field of its own under that name: a field of the wire is
never callable, and `Object.prototype.valueOf` gives no primitive value either. -/
def toStr : JsVal → Except JsError JsString
  | .null => .ok (js "null")
  | .bool true => .ok (js "true")
  | .bool false => .ok (js "false")
  | .num x => .ok x.toString
  | .str s => .ok s
  | .bigint i => .ok (intToString 10 i)
  | .arr xs => (elemStrs xs).map fun ss => List.intercalate [44] ss
  | .obj fields =>
      if js "toString" ∈ fields.map Prod.fst then .error .toPrimitive
      else .ok (js "[object Object]")

/-- The strings `Array.prototype.join` puts together: the elements', with nothing for `null`. -/
def elemStrs : List JsVal → Except JsError (List JsString)
  | [] => .ok []
  | .null :: xs => (elemStrs xs).map fun ss => [] :: ss
  | x :: xs => do
      let s ← toStr x
      let ss ← elemStrs xs
      return s :: ss

end

/-! ### The `BigInt` convention -/

/-- The digits of a string that matches `/^-?\d+n$/`, with its sign. -/
def bigintDigits (s : JsString) : Option (Bool × JsString) :=
  let (negative, t) :=
    match s with
    | 45 :: t => (true, t)
    | t => (false, t)
  if t.getLast? = some 110 ∧ t.dropLast ≠ [] ∧ t.dropLast.all isDigit then
    some (negative, t.dropLast)
  else none

/-- `BigInt(digits)` -/
def digitsValue (digits : JsString) : Nat :=
  digits.foldl (fun n u => 10 * n + (u.toNat - 48)) 0

mutual

/-- `JSON.parse(text, bigintReviver)`, given the value plain `JSON.parse` builds: every string of
digits with a final `n` becomes a `BigInt`, wherever it stands. -/
def revive : JsVal → JsVal
  | .str s =>
      match bigintDigits s with
      | some (negative, digits) =>
          .bigint (if negative then -(digitsValue digits : Int) else digitsValue digits)
      | none => .str s
  | .arr xs => .arr (reviveList xs)
  | .obj fields => .obj (reviveFields fields)
  | v => v

def reviveList : List JsVal → List JsVal
  | [] => []
  | x :: xs => revive x :: reviveList xs

def reviveFields : List (JsString × JsVal) → List (JsString × JsVal)
  | [] => []
  | (name, x) :: fields => (name, revive x) :: reviveFields fields

end

example : revive (.obj [(js "type", .str (js "-12n"))]) = .obj [(js "type", .bigint (-12))] := by
  rfl

end JsVal
