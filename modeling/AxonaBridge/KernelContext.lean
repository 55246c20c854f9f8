import AxonaBridge.JsonText

/-!
# The context of a kernel log row

`safeContext` and `boundedContext` of `kernel_log.js`. A context is made of what the kernel puts into its log
rows; a property that throws when it is read has no value. An object is returned whole or summarized by the
names of its keys, and anything else is wrapped without a look at its size.
-/

open JsText

namespace AxonaBridge

namespace KernelLog

/-- `MAX_STRING` -/
def maxString : Nat := 512

/-- `MAX_ARRAY` -/
def maxArray : Nat := 32

/-- `MAX_CONTEXT_BYTES` -/
def maxContextBytes : Nat := 4096

/-- The most keys kept of an object. -/
def maxKeys : Nat := 64

/-- A value of a context. The keys of an object are its own enumerable ones, in the order of the object. -/
inductive Ctx where
  /-- `null` or `undefined` -/
  | null
  | bool (b : Bool)
  | num (x : JsNum)
  | str (s : JsString)
  | bigint (i : Int)
  | fn
  | symbol (description : JsString)
  | arr (xs : List Ctx)
  | error (name message : PlainVal)
  | map (keys : List Ctx)
  | set (elems : List Ctx)
  | obj (fields : List (JsString × Option Ctx))

/-- What is said of a length that has been cut. -/
def elision (n : Nat) : JsString := js "…(" ++ natToString 10 n ++ js ")"

def cut (s : JsString) : JsString := if maxString < s.length then s.take maxString ++ elision s.length else s

def idToHex (i : Int) : JsString := padStart (intToString 16 i) 66 48

def symbolToString (description : JsString) : JsString := js "Symbol(" ++ description ++ js ")"

def truncated : JsString := js "keys truncated"

def unserializable : JsString := js "<unserializable>"

def tooDeep : JsString := js "<depth>"

section Fields

variable {α : Type*}

/-- `out[name] = value` -/
def assign (out : List (JsString × α)) (name : JsString) (value : α) : List (JsString × α) :=
  if name ∈ out.map Prod.fst then out.map fun f => if f.1 = name then (name, value) else f
  else out ++ [(name, value)]

/-- The fields that are left of an object's. A plain object takes no field of the name `__proto__`. -/
def keep (more : α) (fields : List (JsString × α)) : List (JsString × α) :=
  let out := (fields.take maxKeys).filter fun f => f.1 ≠ js "__proto__"
  if maxKeys < fields.length then assign out (js "…") more else out

/-- The elements that are left of an array's. -/
def head (more : Nat → α) (xs : List α) : List α :=
  if maxArray < xs.length then xs.take maxArray ++ [more xs.length] else xs

end Fields

mutual

/-- `safeContext` -/
def safeContext : Nat → Ctx → PlainVal
  | _, .null => .null
  | _, .bigint i => .str (idToHex i)
  | _, .num (.fin q) => .num (.fin q)
  | _, .num x => .str x.toString
  | _, .bool b => .bool b
  | _, .str s => .str (cut s)
  | _, .fn => .str (js "<fn>")
  | _, .symbol description => .str (symbolToString description)
  | depth, .arr xs =>
      if 4 ≤ depth then .str tooDeep
      else .arr (head (fun n => .str (elision n)) (safeItems (depth + 1) xs))
  | depth, .error name message =>
      if 4 ≤ depth then .str tooDeep
      else .obj [(js "name", name), (js "message", message)]
  | depth, .map keys =>
      -- the keys go through `safeContext` once more, as an array of at most `MAX_ARRAY`
      if 4 ≤ depth + 1 then .str tooDeep
      else .arr ((safeItems (depth + 2) keys).take maxArray)
  | depth, .set elems =>
      if 4 ≤ depth + 1 then .str tooDeep
      else .arr ((safeItems (depth + 2) elems).take maxArray)
  | depth, .obj fields =>
      if 4 ≤ depth then .str tooDeep
      else .obj (keep (.str truncated) (safeFields (depth + 1) fields))

def safeItems : Nat → List Ctx → List PlainVal
  | _, [] => []
  | depth, x :: xs => safeContext depth x :: safeItems depth xs

def safeFields : Nat → List (JsString × Option Ctx) → List (JsString × PlainVal)
  | _, [] => []
  | depth, (name, some x) :: fields => (name, safeContext depth x) :: safeFields depth fields
  | depth, (name, none) :: fields => (name, .str unserializable) :: safeFields depth fields

end

/-- `Buffer.byteLength` of the text, and one more than there may be where `JSON.stringify` throws. -/
def byteLength (v : PlainVal) : Nat :=
  match v.stringify with
  | some text => utf8Length text
  | none => maxContextBytes + 1

/-- `boundedContext` -/
def boundedContext (ctx : Ctx) : PlainVal :=
  match safeContext 0 ctx with
  | .obj fields =>
      let bytes := byteLength (.obj fields)
      if bytes ≤ maxContextBytes then .obj fields
      else .obj [(js "oversized", .bool true), (js "bytes", .num (.fin bytes)),
        (js "keys", .arr (((fields.map Prod.fst).take maxKeys).map .str))]
  | safe => .obj [(js "value", safe)]

/-! ### The bytes of a context -/

open PlainVal

/-- The bytes of a string in quotation marks. -/
def quoted (s : JsString) : ℕ∞ := (utf8Length (quote s) : ℕ)

mutual

/-- The bytes that a context takes at a depth, without a bound where the name or the message of an error
cannot be written. -/
def weight : Nat → Ctx → ℕ∞
  | _, .null => 4
  | _, .bigint i => quoted (idToHex i)
  | _, .num (.fin q) => (utf8Length (JsNum.fin q).toString : ℕ)
  | _, .num x => quoted x.toString
  | _, .bool b => if b then 4 else 5
  | _, .str s => quoted (cut s)
  | _, .fn => quoted (js "<fn>")
  | _, .symbol description => quoted (symbolToString description)
  | depth, .arr xs =>
      if 4 ≤ depth then quoted tooDeep
      else 2 + joined (head (fun n => quoted (elision n)) (weights (depth + 1) xs))
  | depth, .error name message =>
      if 4 ≤ depth then quoted tooDeep
      else (PlainVal.obj [(js "name", name), (js "message", message)]).bytes
  | depth, .map keys =>
      if 4 ≤ depth + 1 then quoted tooDeep
      else 2 + joined ((weights (depth + 2) keys).take maxArray)
  | depth, .set elems =>
      if 4 ≤ depth + 1 then quoted tooDeep
      else 2 + joined ((weights (depth + 2) elems).take maxArray)
  | depth, .obj fields =>
      if 4 ≤ depth then quoted tooDeep
      else 2 + joined ((keep (quoted truncated) (fieldWeights (depth + 1) fields)).map fun f => memberBytes f.1 f.2)

def weights : Nat → List Ctx → List ℕ∞
  | _, [] => []
  | depth, x :: xs => weight depth x :: weights depth xs

def fieldWeights : Nat → List (JsString × Option Ctx) → List (JsString × ℕ∞)
  | _, [] => []
  | depth, (name, some x) :: fields => (name, weight depth x) :: fieldWeights depth fields
  | depth, (name, none) :: fields => (name, quoted unserializable) :: fieldWeights depth fields

end

/-- An object, of which at least a summary is returned. -/
def isRecord : Ctx → Bool
  | .error _ _ => true
  | .obj _ => true
  | _ => false

/-- The names a summary lists. -/
def shownNames : Ctx → List JsString
  | .error _ _ => [js "name", js "message"]
  | .obj fields => ((keep () (fields.map fun f => (f.1, ()))).map Prod.fst).take maxKeys
  | _ => []

/-- The byte count a summary gives. -/
def countedBytes (ctx : Ctx) : Nat :=
  match weight 0 ctx with
  | ⊤ => maxContextBytes + 1
  | (n : ℕ) => n

/-- The bytes of a summary. -/
def summaryBytes (ctx : Ctx) : ℕ∞ :=
  (37 + utf8Length (JsNum.fin (countedBytes ctx)).toString : ℕ) + joined ((shownNames ctx).map quoted)

/-- An object fits, or its summary does; anything else fits with its wrapping. -/
def Fits (ctx : Ctx) : Prop :=
  if isRecord ctx then weight 0 ctx ≤ maxContextBytes ∨ summaryBytes ctx ≤ maxContextBytes
  else 10 + weight 0 ctx ≤ maxContextBytes

section Fields

variable {α β : Type*} (f : α → β)

theorem map_head (more : Nat → α) (xs : List α) : (head more xs).map f = head (fun n => f (more n)) (xs.map f) := by
  unfold head
  rw [List.length_map]
  split
  · rw [List.map_append, List.map_take, List.map_singleton]
  · rfl

/-- Change the values of the fields. -/
def mapValues (fields : List (JsString × α)) : List (JsString × β) := fields.map fun e => (e.1, f e.2)

theorem names_mapValues (fields : List (JsString × α)) : (mapValues f fields).map Prod.fst = fields.map Prod.fst := by
  unfold mapValues
  rw [List.map_map]
  rfl

theorem mapValues_assign (fields : List (JsString × α)) (name : JsString) (value : α) :
    mapValues f (assign fields name value) = assign (mapValues f fields) name (f value) := by
  unfold assign
  rw [names_mapValues]
  split
  · unfold mapValues
    rw [List.map_map, List.map_map]
    apply List.map_congr_left
    intro e _
    dsimp only [Function.comp_apply]
    split <;> rfl
  · exact List.map_append

theorem mapValues_keep (more : α) (fields : List (JsString × α)) :
    mapValues f (keep more fields) = keep (f more) (mapValues f fields) := by
  have hout : mapValues f ((fields.take maxKeys).filter fun e => e.1 ≠ js "__proto__") =
      ((mapValues f fields).take maxKeys).filter fun e => e.1 ≠ js "__proto__" := by
    unfold mapValues
    rw [← List.map_take, List.filter_map]
    rfl
  have hlength : (mapValues f fields).length = fields.length := List.length_map _
  unfold keep
  dsimp only
  rw [hlength]
  split
  · rw [mapValues_assign, hout]
  · exact hout

theorem mem_assign {fields : List (JsString × α)} {name : JsString} {value : α} {e : JsString × α}
    (h : e ∈ assign fields name value) : e ∈ fields ∨ e.2 = value := by
  unfold assign at h
  split at h
  · obtain ⟨e', he', rfl⟩ := List.mem_map.mp h
    split
    · exact Or.inr rfl
    · exact Or.inl he'
  · rcases List.mem_append.mp h with h | h
    · exact Or.inl h
    · rw [List.mem_singleton.mp h]
      exact Or.inr rfl

theorem mem_keep {fields : List (JsString × α)} {more : α} {e : JsString × α} (h : e ∈ keep more fields) :
    e ∈ fields ∨ e.2 = more := by
  have hout : ∀ e ∈ (fields.take maxKeys).filter fun e => e.1 ≠ js "__proto__", e ∈ fields :=
    fun e he => List.mem_of_mem_take (List.mem_of_mem_filter he)
  unfold keep at h
  dsimp only at h
  split at h
  · exact (mem_assign h).imp_left (hout e)
  · exact Or.inl (hout e h)

end Fields

theorem bytes_str (s : JsString) : (PlainVal.str s).bytes = quoted s := rfl

theorem isUndefined_safeContext (depth : Nat) (x : Ctx) : (safeContext depth x).isUndefined = false := by
  cases x with
  | num x => cases x <;> rfl
  | arr xs =>
      unfold safeContext
      split <;> rfl
  | error name message =>
      unfold safeContext
      split <;> rfl
  | map keys =>
      unfold safeContext
      split <;> rfl
  | set elems =>
      unfold safeContext
      split <;> rfl
  | obj fields =>
      unfold safeContext
      split <;> rfl
  | _ => rfl

theorem isUndefined_safeFields {depth : Nat} {fields : List (JsString × Option Ctx)} {e : JsString × PlainVal}
    (h : e ∈ safeFields depth fields) : e.2.isUndefined = false := by
  induction fields with
  | nil => cases h
  | cons f fields ih =>
      obtain ⟨name, x⟩ := f
      cases x with
      | none =>
          rcases List.mem_cons.mp h with rfl | h
          · rfl
          · exact ih h
      | some x =>
          rcases List.mem_cons.mp h with rfl | h
          · exact isUndefined_safeContext depth x
          · exact ih h

/-- No field of an object is left out. -/
theorem bytes_keep {depth : Nat} (fields : List (JsString × Option Ctx)) :
    (PlainVal.obj (keep (.str truncated) (safeFields depth fields))).bytes =
      2 + joined ((keep (quoted truncated) (mapValues bytes (safeFields depth fields))).map
        fun f => memberBytes f.1 f.2) := by
  have hall : (keep (.str truncated) (safeFields depth fields)).filter (fun f => !f.2.isUndefined) =
      keep (.str truncated) (safeFields depth fields) := by
    rw [List.filter_eq_self]
    intro e he
    rcases mem_keep he with h | h
    · rw [isUndefined_safeFields h]
      rfl
    · rw [h]
      rfl
  rw [bytes_obj, hall, ← bytes_str, ← mapValues_keep]
  unfold mapValues
  rw [List.map_map]
  rfl

theorem bytes_head {ys : List PlainVal} :
    (PlainVal.arr (head (fun n => .str (elision n)) ys)).bytes =
      2 + joined (head (fun n => quoted (elision n)) (ys.map bytes)) := by
  rw [bytes_arr, map_head]
  rfl

theorem bytes_take {ys : List PlainVal} :
    (PlainVal.arr (ys.take maxArray)).bytes = 2 + joined ((ys.map bytes).take maxArray) := by
  rw [bytes_arr, List.map_take]

mutual

/-- **The bytes of a sanitised context.** -/
theorem bytes_safeContext : ∀ (depth : Nat) (x : Ctx), (safeContext depth x).bytes = weight depth x
  | _, .null => rfl
  | _, .bigint _ => rfl
  | _, .num (.fin _) => rfl
  | _, .num (.inf _) => rfl
  | _, .num .nan => rfl
  | _, .bool true => rfl
  | _, .bool false => rfl
  | _, .str _ => rfl
  | _, .fn => rfl
  | _, .symbol _ => rfl
  | depth, .arr xs => by
      unfold safeContext weight
      split
      · rfl
      · rw [bytes_head, map_bytes_safeItems]
  | depth, .error name message => by
      unfold safeContext weight
      split <;> rfl
  | depth, .map keys => by
      unfold safeContext weight
      split
      · rfl
      · rw [bytes_take, map_bytes_safeItems]
  | depth, .set elems => by
      unfold safeContext weight
      split
      · rfl
      · rw [bytes_take, map_bytes_safeItems]
  | depth, .obj fields => by
      unfold safeContext weight
      split
      · rfl
      · rw [bytes_keep, mapValues_bytes_safeFields]

theorem map_bytes_safeItems : ∀ (depth : Nat) (xs : List Ctx),
    (safeItems depth xs).map bytes = weights depth xs
  | _, [] => rfl
  | depth, x :: xs => by
      unfold safeItems weights
      rw [List.map_cons, bytes_safeContext depth x, map_bytes_safeItems depth xs]

theorem mapValues_bytes_safeFields : ∀ (depth : Nat) (fields : List (JsString × Option Ctx)),
    mapValues bytes (safeFields depth fields) = fieldWeights depth fields
  | _, [] => rfl
  | depth, (name, some x) :: fields => by
      unfold safeFields fieldWeights mapValues
      rw [List.map_cons, bytes_safeContext depth x, ← mapValues_bytes_safeFields depth fields]
      rfl
  | depth, (name, none) :: fields => by
      unfold safeFields fieldWeights mapValues
      rw [List.map_cons, ← mapValues_bytes_safeFields depth fields]
      rfl

end

/-! ### The three exits -/

variable {ctx : Ctx} {v : PlainVal}

theorem byteLength_le_iff : byteLength v ≤ maxContextBytes ↔ v.bytes ≤ maxContextBytes := by
  unfold byteLength stringify bytes
  cases v.hasBigInt with
  | true => exact iff_of_false (Nat.not_succ_le_self _) (ENat.natCast_lt_top _).not_ge
  | false => exact ENat.natCast_le_natCast.symm

theorem byteLength_eq (h : v.bytes = weight 0 ctx) : byteLength v = countedBytes ctx := by
  unfold countedBytes byteLength stringify
  rw [← h]
  unfold bytes
  cases v.hasBigInt with
  | true => rfl
  | false => rfl

theorem mapValues_names (depth : Nat) (fields : List (JsString × Option Ctx)) :
    mapValues (fun _ => ()) (safeFields depth fields) = fields.map fun f => (f.1, ()) := by
  induction fields with
  | nil => rfl
  | cons f fields ih =>
      obtain ⟨name, x⟩ := f
      cases x <;> exact congrArg (_ :: ·) ih

/-- An object is sanitised to an object, of the names a summary lists. -/
theorem exists_obj (h : isRecord ctx = true) :
    ∃ fields, safeContext 0 ctx = .obj fields ∧ (fields.map Prod.fst).take maxKeys = shownNames ctx := by
  cases ctx with
  | error name message => exact ⟨_, rfl, rfl⟩
  | obj fields =>
      refine ⟨_, rfl, ?_⟩
      change _ = ((keep () (fields.map fun f => (f.1, ()))).map Prod.fst).take maxKeys
      rw [← mapValues_names 1, ← mapValues_keep (fun _ => ()) (.str truncated), names_mapValues]
  | _ => cases h

theorem not_obj (h : isRecord ctx = false) (fields : List (JsString × PlainVal)) :
    safeContext 0 ctx ≠ .obj fields := by
  cases ctx with
  | num x => cases x <;> exact PlainVal.noConfusion
  | error name message => cases h
  | obj fields => cases h
  | _ => exact PlainVal.noConfusion

theorem bytes_wrapped (hv : v.isUndefined = false) : (PlainVal.obj [(js "value", v)]).bytes = 10 + v.bytes := by
  have hname : memberBytes (js "value") v.bytes = 8 + v.bytes := rfl
  rw [bytes_obj, List.filter_cons_of_pos (by rw [hv]; rfl), List.filter_nil, List.map_singleton, hname, joined,
    List.sum_singleton, List.length_singleton, Nat.sub_self, Nat.cast_zero, add_zero, ← add_assoc]
  rfl

theorem bytes_summary (n : Nat) (names : List JsString) :
    (PlainVal.obj [(js "oversized", .bool true), (js "bytes", .num (.fin n)),
      (js "keys", .arr (names.map .str))]).bytes =
      (37 + utf8Length (JsNum.fin n).toString : ℕ) + joined (names.map quoted) := by
  have hoversized : memberBytes (js "oversized") (PlainVal.bool true).bytes = 16 := by decide +kernel
  have hbytes : memberBytes (js "bytes") (PlainVal.num (.fin n)).bytes =
      8 + (utf8Length (JsNum.fin n).toString : ℕ) := rfl
  have hkeys : memberBytes (js "keys") (PlainVal.arr (names.map .str)).bytes = 9 + joined (names.map quoted) := by
    rw [bytes_arr, List.map_map, memberBytes, ← add_assoc]
    rfl
  rw [bytes_obj]
  change 2 + joined [memberBytes (js "oversized") (PlainVal.bool true).bytes,
    memberBytes (js "bytes") (PlainVal.num (.fin n)).bytes,
    memberBytes (js "keys") (PlainVal.arr (names.map .str)).bytes] = _
  rw [hoversized, hbytes, hkeys]
  unfold joined
  simp only [List.sum_cons, List.sum_nil, List.length_cons, List.length_nil]
  push_cast
  ring

/-- **The bound on a row.** What is returned for a context is written in at most `MAX_CONTEXT_BYTES` bytes
exactly when the context fits. -/
theorem boundedContext_fits_iff (ctx : Ctx) :
    (∃ text, (boundedContext ctx).stringify = some text ∧ utf8Length text ≤ maxContextBytes) ↔ Fits ctx := by
  rw [← bytes_le_iff]
  unfold Fits
  cases hrecord : isRecord ctx with
  | false =>
      rw [if_neg Bool.false_ne_true, ← bytes_safeContext, ← bytes_wrapped (isUndefined_safeContext 0 ctx)]
      unfold boundedContext
      split
      · rename_i fields hfields
        exact absurd hfields (not_obj hrecord fields)
      · exact Iff.rfl
  | true =>
      obtain ⟨fields, hfields, hnames⟩ := exists_obj hrecord
      have hweight : (PlainVal.obj fields).bytes = weight 0 ctx := by rw [← hfields, bytes_safeContext]
      unfold boundedContext
      rw [if_pos rfl, hfields, ← hweight]
      dsimp only
      split
      · rename_i hle
        have hfits := byteLength_le_iff.mp hle
        exact iff_of_true hfits (Or.inl hfits)
      · rename_i hnot
        rw [or_iff_right (byteLength_le_iff.not.mp hnot), hnames, byteLength_eq hweight, bytes_summary]
        exact Iff.rfl

/-- Eight strings of the greatest length. -/
def strings : Ctx := .arr (List.replicate 8 (.str (List.replicate 512 97)))

/-- An array of eight strings of 512 characters is returned in 4131 bytes. -/
theorem not_boundedContext_fits_strings :
    ¬∃ text, (boundedContext strings).stringify = some text ∧ utf8Length text ≤ maxContextBytes := by
  rw [← bytes_le_iff]
  decide +kernel

end KernelLog

end AxonaBridge
