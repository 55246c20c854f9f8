import AxonaBridge.JsMap
import AxonaBridge.JsValue

/-!
# The socket transport

`WebSocketTransport` of `ws_transport.js`: the request table, the two binding maps between
identities and connections, and the dispatch of inbound frames. The hooks it is built on
(`sendToConn`, `isConnOpen`) are arguments of the operations that call them; what an operation
hands outside is in its result.
-/

open JsText

namespace AxonaBridge

/-- A node identity, a `BigInt` of the program. -/
abbrev NodeId := Int

/-- A connection id the bridge assigned. -/
abbrev ConnId := JsString

/-- Largest request id (`MAX_REQ_ID`). -/
def maxReqId : Nat := 0x7fffffff

/-- One entry of `_pending`. `promise` names the promise its `resolve` and `reject` settle and the
timer armed for it; `via` is the connection the request went out on, which the program does not
keep. -/
structure Pending where
  nodeId : NodeId
  promise : Nat
  via : ConnId
  deriving DecidableEq

/-- How a promise was settled. -/
inductive Settlement where
  | resolved (body : Option JsVal)
  | rejected (message : JsString)

/-- Who a notification or a death is reported of: a bound identity, else the bare connection. -/
inductive Sender where
  | node (nodeId : NodeId)
  | conn (connId : ConnId)
  deriving DecidableEq

structure Transport where
  pending : JsMap Nat Pending := JsMap.empty
  nextId : Nat := 1
  /-- Promises handed out so far; the next one is named by this number. -/
  promises : Nat := 0
  /-- The armed request timers: the promise each belongs to and the request id it deletes. -/
  timers : List (Nat × Nat) := []
  settled : List (Nat × Settlement) := []
  connIdByNodeId : JsMap NodeId ConnId := JsMap.empty
  nodeIdByConnId : JsMap ConnId NodeId := JsMap.empty
  reportBound : Bool := false
  started : Bool := false

namespace Transport

/-- `clearTimeout` of the timer of one request. -/
def clearTimer (t : Transport) (promise : Nat) : Transport :=
  { t with timers := t.timers.filter fun timer => timer.1 ≠ promise }

/-- Settle one promise. -/
def settle (t : Transport) (promise : Nat) (how : Settlement) : Transport :=
  { t with settled := t.settled ++ [(promise, how)] }

/-- The loop shared by `stop`, `supersedePeer` and `handleConnClosed`: drop the pending requests
that meet a test, clearing their timers and rejecting them. -/
def rejectWhere (t : Transport) (test : Pending → Bool) (why : JsString) : Transport :=
  let hit := (t.pending.entries.map Prod.snd).filter test
  { t with
    pending := t.pending.filter fun e => !test e.2
    timers := t.timers.filter fun timer => !hit.any fun p => p.promise = timer.1
    settled := t.settled ++ hit.map fun p => (p.promise, .rejected why) }

def start (t : Transport) : Transport := { t with started := true }

def stop (t : Transport) : Transport :=
  { t.rejectWhere (fun _ => true) (js "transport-stopped") with started := false }

/-! ### Bindings -/

def bindPeer (t : Transport) (nodeId : NodeId) (connId : ConnId) : Transport :=
  { t with
    connIdByNodeId := t.connIdByNodeId.set nodeId connId
    nodeIdByConnId := t.nodeIdByConnId.set connId nodeId }

/-- The forward entry goes only while this connection is the identity's current binding. -/
def unbindPeer (t : Transport) (connId : ConnId) : Transport :=
  { t with
    connIdByNodeId :=
      match t.nodeIdByConnId.get connId with
      | some nodeId =>
          if t.connIdByNodeId.get nodeId = some connId then t.connIdByNodeId.delete nodeId
          else t.connIdByNodeId
      | none => t.connIdByNodeId
    nodeIdByConnId := t.nodeIdByConnId.delete connId }

def connIdFor (t : Transport) (nodeId : NodeId) : Option ConnId := t.connIdByNodeId.get nodeId

def nodeIdFor (t : Transport) (connId : ConnId) : Option NodeId := t.nodeIdByConnId.get connId

def isConnected (t : Transport) (isConnOpen : ConnId → Bool) (nodeId : NodeId) : Bool :=
  match t.connIdFor nodeId with
  | some connId => isConnOpen connId
  | none => false

def supersedePeer (t : Transport) (nodeId : NodeId) : Transport :=
  t.rejectWhere (fun p => p.nodeId = nodeId) (js "route-superseded")

/-- A door that reports its bound peers keeps the binding; an unarmed one unbinds. -/
def closeConnection (t : Transport) (nodeId : NodeId) : Transport :=
  match t.connIdByNodeId.get nodeId with
  | none => t
  | some connId => if connId = [] ∨ t.reportBound then t else t.unbindPeer connId

/-! ### Messaging -/

/-- What `send` came to: refused before a request existed, or a request under an id. -/
inductive SendResult where
  | refused (message : JsString)
  | requested (connId : ConnId) (id promise : Nat)

/-- `send`. `throws` says whether `sendToConn` throws on this frame, which withdraws the request. -/
def send (t : Transport) (nodeId : NodeId) (isConnOpen : ConnId → Bool) (throws : Bool) :
    Transport × SendResult :=
  if !t.started then (t, .refused (js "WebSocketTransport.send: not started"))
  else
    let notConnected :=
      js "WebSocketTransport.send: peer " ++ intToString 10 nodeId ++ js " not connected"
    match t.connIdByNodeId.get nodeId with
    | none => (t, .refused notConnected)
    | some connId =>
        if connId = [] ∨ !isConnOpen connId then (t, .refused notConnected)
        else
          let id := t.nextId
          let promise := t.promises
          let t := { t with
            nextId := if maxReqId ≤ t.nextId then 1 else t.nextId + 1
            promises := t.promises + 1
            timers := t.timers ++ [(promise, id)]
            pending := t.pending.set id { nodeId, promise, via := connId } }
          if throws then
            let t := t.clearTimer promise
            ({ t with pending := t.pending.delete id }.settle promise (.rejected []),
              .requested connId id promise)
          else (t, .requested connId id promise)

/-- The request timer of a promise fires: it deletes what stands under its id. -/
def timeout (t : Transport) (promise : Nat) : Transport :=
  match t.timers.find? fun timer => timer.1 = promise with
  | none => t
  | some (_, id) =>
      { t.clearTimer promise with pending := t.pending.delete id }.settle promise
        (.rejected (js "timeout"))

/-! ### Inbound dispatch -/

/-- The key of `_pending` a value of the wire is equal to, where there is one. -/
def reqKey : Option JsVal → Option Nat
  | some (.num (.fin q)) => if q.den = 1 ∧ 0 ≤ q.num then some q.num.toNat else none
  | _ => none

/-- The pending request a response names by its `id`. -/
def pendingFor (t : Transport) (msg : JsVal) : Option (Nat × Pending) :=
  (reqKey (msg.field (js "id"))).bind fun id => (t.pending.get id).map fun p => (id, p)

/-- The argument of `new Error` for a refused request. -/
def errorArgument (body : Option JsVal) : JsVal :=
  match body with
  | some body =>
      if body.isObject then
        match body.field (js "error") with
        | none => .str (js "remote-error")
        | some .null => .str (js "remote-error")
        | some v => v
      else .str (js "remote-error")
  | none => .str (js "remote-error")

/-- `_handleResponse`. The sender plays no part: whoever names a pending id settles it. `new Error`
throws on an argument that has no string, after the entry is gone and before the promise settles. -/
def handleResponse (t : Transport) (msg : JsVal) : Transport × Option JsError :=
  match t.pendingFor msg with
  | none => (t, none)
  | some (id, p) =>
      let t := { t.clearTimer p.promise with pending := t.pending.delete id }
      if JsVal.truthy (msg.field (js "ok")) then
        (t.settle p.promise (.resolved (msg.field (js "body"))), none)
      else
        match (errorArgument (msg.field (js "body"))).toStr with
        | .error e => (t, some e)
        | .ok message => (t.settle p.promise (.rejected message), none)

/-- What an inbound payload asks of the layer above. -/
inductive Incoming where
  | dropped
  | request (fromNodeId : Option NodeId) (msg : JsVal)
  | response (thrown : Option JsError)
  | notification (sender : Sender) (msg : JsVal)

/-- The sender a notification handler is given. -/
def senderOf (t : Transport) (connId : ConnId) : Sender :=
  match t.nodeIdByConnId.get connId with
  | some nodeId => .node nodeId
  | none => .conn connId

def handleIncoming (t : Transport) (connId : ConnId) (payload : JsVal) : Transport × Incoming :=
  if !payload.isObject then (t, .dropped)
  else
    let k := JsVal.asString (payload.field (js "k"))
    if k = some (js "req") then (t, .request (t.nodeIdByConnId.get connId) payload)
    else if k = some (js "res") then
      let r := t.handleResponse payload
      (r.1, .response r.2)
    else if k = some (js "ntf") then (t, .notification (t.senderOf connId) payload)
    else (t, .dropped)

/-- The payload is a `res` frame. -/
def isRes (payload : JsVal) : Prop :=
  payload.isObject = true ∧ JsVal.asString (payload.field (js "k")) = some (js "res")

/-! ### The close of a socket -/

/-- The connection is its identity's current binding, or has no identity. -/
def isCurrent (t : Transport) (connId : ConnId) : Bool :=
  match t.nodeIdByConnId.get connId with
  | none => true
  | some nodeId => t.connIdByNodeId.get nodeId = some connId

/-- `handleConnClosed`, with the peer whose death the `onPeerDied` handlers are told of. -/
def handleConnClosed (t : Transport) (connId : ConnId) : Transport × Option Sender :=
  if t.isCurrent connId then
    let t' := t.rejectWhere (fun p => t.nodeIdByConnId.get connId = some p.nodeId) (js "peer-died")
    (t'.unbindPeer connId, some (t.senderOf connId))
  else (t.unbindPeer connId, none)

end Transport

end AxonaBridge
