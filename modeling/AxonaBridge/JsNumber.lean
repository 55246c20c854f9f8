import AxonaBridge.JsText

/-!
# Arithmetic and order on numbers

The difference and the comparisons of the language, with `NaN` neither less than nor at most anything.
-/

namespace JsNum

/-- `a - b`, rounded to the nearest double. -/
def sub : JsNum → JsNum → JsNum
  | .fin p, .fin q => toDouble (p - q)
  | .fin _, .inf negative => .inf !negative
  | .inf negative, .fin _ => .inf negative
  | .inf a, .inf b => if a = b then .nan else .inf a
  | .nan, _ => .nan
  | _, .nan => .nan

/-- `a <= b` -/
def le : JsNum → JsNum → Bool
  | .fin p, .fin q => p ≤ q
  | .fin _, .inf negative => !negative
  | .inf negative, .fin _ => negative
  | .inf a, .inf b => a || !b
  | .nan, _ => false
  | _, .nan => false

instance : Zero JsNum := ⟨.fin 0⟩
instance : Sub JsNum := ⟨sub⟩
instance : LE JsNum := ⟨fun x y => x.le y = true⟩
instance : LT JsNum := ⟨fun x y => x.lt y = true⟩
instance : DecidableLE JsNum := fun x y => inferInstanceAs (Decidable (x.le y = true))
instance : DecidableLT JsNum := fun x y => inferInstanceAs (Decidable (x.lt y = true))

end JsNum
