import AxonaBridge.BridgeRelay
import AxonaBridge.NodeAnswers
import Mathlib.Data.Multiset.AddSub

/-!
# Every request has one answer

The requests a connection sends are answered out of order, by handlers that come back at any later time.
The account of a connection is what it was answered together with what is still in hand for it; a request
is entered once, an answer only moves an entry, and nothing else touches it.
-/

open JsText

namespace AxonaBridge

/-- The id an answer goes out under. -/
def Frame.answerId : Frame → Option (Option JsVal)
  | .axona (.res id _ _) => some id
  | _ => none

/-- The requests of one connection. -/
def ofConn (connId : ConnId) (requests : List (ConnId × Option JsVal)) : List (Option JsVal) :=
  requests.filterMap fun r => if r.1 = connId then some r.2 else none

namespace Server

variable {cfg : Config} {io : Io} {s t : Server} {id sender : ConnId}

/-- The ids under which a connection was answered, in the order of the answers. -/
def answersTo (s : Server) (connId : ConnId) : List (Option JsVal) :=
  (s.framesTo connId).filterMap Frame.answerId

/-- What a connection was answered and what is in hand for it. -/
def account (s : Server) (connId : ConnId) : Multiset (Option JsVal) :=
  ↑(s.answersTo connId) + ↑(ofConn connId s.node.handling)

theorem answersTo_of_emits (h : Emits (fun _ frame => frame.answerId = none) s t) :
    t.answersTo id = s.answersTo id := by
  obtain ⟨frames, hheard, hframes⟩ := exists_hears h id
  unfold answersTo
  rw [hheard, List.filterMap_append, List.filterMap_eq_nil_iff.mpr fun frame hmem => (hframes frame hmem).1,
    List.append_nil]

/-- Nothing is answered between two states and nothing is taken on. -/
structure Unasked (s t : Server) : Prop where
  emits : Emits (fun _ frame => frame.answerId = none) s t
  handling : t.node.handling = s.node.handling

theorem Unasked.account (h : Unasked s t) : t.account id = s.account id := by
  unfold Server.account
  rw [answersTo_of_emits h.emits, h.handling]

/-- Between two states an account grew by no more than was asked, and by exactly that where the
connection is there and can be sent to. -/
structure Enters (io : Io) (id : ConnId) (s t : Server) (asked : Multiset (Option JsVal)) : Prop where
  le : t.account id ≤ s.account id + asked
  eq : s.connections.has id = true → io.sendError id = none → t.account id = s.account id + asked

/-- The id of the request an event has the node take on for a connection. -/
def requestOf (s : Server) (id : ConnId) : Event → Option (Option JsVal)
  | .message sender (.text (.ok json)) =>
      if sender = id ∧ s.admission id = some true ∧
          JsVal.asString (json.revive.field (js "type")) = some (js "axona") then
        (json.revive.field (js "payload")).bind Node.requestOf
      else none
  | _ => none

theorem Enters.after {u : Server} {asked : Multiset (Option JsVal)} (hquiet : Unasked s t)
    (hhas : t.connections.has id = s.connections.has id) (h : Enters io id t u asked) :
    Enters io id s u asked :=
  ⟨by rw [← hquiet.account]; exact h.le,
    fun hhas' hsend => by rw [← hquiet.account]; exact h.eq (hhas.trans hhas') hsend⟩

end Server

namespace Bridge

variable {cfg : Config} {reportBound : Bool} {es : List (Io × Event)} {b : Bridge} {e : Io × Event}
  {id : ConnId}

/-- The id of the request a step has the node take on for a connection. -/
def asked (id : ConnId) (b : Bridge) (e : Io × Event) : Option (Option JsVal) := b.server.requestOf id e.2

end Bridge

end AxonaBridge
