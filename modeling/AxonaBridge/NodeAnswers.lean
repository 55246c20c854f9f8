import AxonaBridge.NodeIngress
import Mathlib.Data.List.Perm.Basic

/-!
# Requests and answers

A request that arrives over a socket is kept under the connection and the id it is to be answered under
until its handler comes back, which may be much later and in any order. `TakesOn` is the balance of one
operation of the node: what it is asked is in hand afterwards or answered, and nothing else is.
-/

open JsText

namespace AxonaBridge

/-- The request an answer goes out for. -/
def NodeOut.answer : NodeOut → Option (ConnId × Option JsVal)
  | .send connId (.res id _ _) => some (connId, id)
  | _ => none

namespace Node

variable {cfg : NodeConfig} {k : Kernel} {n : Node} {isConnOpen : ConnId → Bool}

/-- The id of the request an inbound payload makes. A type without a text can be neither handled nor
refused: the template of the refusal throws. -/
def requestOf (payload : JsVal) : Option (Option JsVal) :=
  if payload.isObject = true ∧ JsVal.asString (payload.field (js "k")) = some (js "req") ∧
      (template (payload.field (js "type"))).isOk = true then some (payload.field (js "id"))
  else none

/-- An operation that neither takes on a request nor answers one. -/
structure Idle (n : Node) (r : Node × List NodeOut) : Prop where
  handling : r.1.handling = n.handling
  silent : r.2.filterMap NodeOut.answer = []

theorem Idle.refl : n.Idle (n, []) := ⟨rfl, rfl⟩

/-! ### The kernel's acts -/

end Node

end AxonaBridge
