import AxonaBridge.SocketBootstrap
import AxonaBridge.TransportModel
import Mathlib.Data.Int.Bitwise
import Mathlib.Data.Nat.Size

/-!
# The embedded node

`BridgeAxonaNode` of `bridge_axona_node.js`: the authenticated handshake over a socket, the handlers
of inbound requests and notifications, and the door of socket-is-bootstrap. What the node asks of the
server is a list of `NodeOut`. The kernel is not part of the repository: what it answers or does in
the course of one event is an argument, and what it does of its own accord is a `KernelAct`.
-/

open JsText

namespace AxonaBridge

/-! ### Log rows -/

inductive LogLevel where
  | info
  | error
  | debug
  deriving DecidableEq

/-- A value `JSON.stringify` writes without a replacer. -/
inductive LogVal where
  | null
  | bool (b : Bool)
  | int (i : Int)
  | str (s : JsString)
  | json (v : JsVal) (serializable : v.hasBigInt = false)

namespace LogVal

/-- A string or `null`. -/
def ofString? : Option JsString → LogVal
  | none => .null
  | some s => .str s

/-- A count or `null`. -/
def ofNat? : Option Nat → LogVal
  | none => .null
  | some n => .int n

/-- The fields of a row with values of the wire in it, if all of them can be written. -/
def ofFields : List (JsString × JsVal) → Option (List (JsString × LogVal))
  | [] => some []
  | (name, v) :: fields =>
      if h : v.hasBigInt = false then (ofFields fields).map fun row => (name, .json v h) :: row
      else none

theorem ofFields_eq_none_iff {fields : List (JsString × JsVal)} :
    ofFields fields = none ↔ ∃ field ∈ fields, field.2.hasBigInt = true := by
  induction fields with
  | nil => simp [ofFields]
  | cons field fields ih =>
      obtain ⟨name, v⟩ := field
      unfold ofFields
      split
      · rename_i h
        simp [ih, h]
      · rename_i h
        simp [h]

end LogVal

/-- A row of the log. -/
structure LogRow where
  level : LogLevel
  event : JsString
  fields : List (JsString × LogVal)

/-! ### Node identities -/

/-- `idToHex` -/
def idToHex (id : NodeId) : JsString := padStart (intToString 16 id) 66 48

theorem idToHex_injective {id id' : NodeId} (h : idToHex id = idToHex id') : id = id' :=
  padStart_intToString_injective (by omega) (by omega) h

/-- `Math.clz32` of a number below `2 ^ 32`. -/
def clz32 (n : Nat) : Nat := 32 - n.size

def clz64 (x : Int) : Nat :=
  if x = 0 then 64
  else
    let hi := x / 2 ^ 32 % 2 ^ 32
    if hi ≠ 0 then clz32 hi.toNat else 32 + clz32 (x % 2 ^ 32).toNat

/-! ### State -/

/-- A `Synapse`, as far as the bridge writes it. -/
structure Synapse where
  peerId : NodeId
  latencyMs : Int
  stratum : Nat
  weight : ℚ
  inertia : Int
  addedBy : JsString
  useCount : Option Nat := none
  deriving DecidableEq

inductive HelloState where
  | pending
  | complete
  deriving DecidableEq

inductive HelloLabel where
  | hello
  | helloAck
  deriving DecidableEq

def HelloLabel.text : HelloLabel → JsString
  | .hello => js "hello"
  | .helloAck => js "hello-ack"

/-- A `verifyAuthHello` that has not completed: the connection and the frame body it was called for,
and the nonce its channel-binding value was folded from. -/
structure Verifying where
  connId : ConnId
  label : HelloLabel
  body : Option JsVal
  serverNonce : JsString

/-- What is fixed while the process runs. -/
structure NodeConfig where
  id : NodeId
  epoch : JsString
  /-- Socket-is-bootstrap, where it is on. -/
  sb : Option SocketBootstrap.Config := none
  /-- The mesh cap; `0` is unbounded. -/
  cap : Int := 0
  fleetAllowlist : Option JsString := none
  /-- The request and notification types under which the kernel has put a handler of its own. -/
  kernelRequest : JsString → Bool := fun _ => false
  kernelNotification : JsString → Bool := fun _ => false

structure Node where
  transport : Transport
  synaptome : JsMap NodeId Synapse := JsMap.empty
  deadPeers : List NodeId := []
  serverNonceByConn : JsMap ConnId JsString := JsMap.empty
  helloByConnId : JsMap ConnId HelloState := JsMap.empty
  /-- The uplink's mesh transport is up. -/
  mesh : Bool := false
  doorChannelBound : List ConnId := []
  sbBudget : SocketBootstrap.SlidingBudget := { perMin := 0 }
  sbRetired : SocketBootstrap.RecentlyRetired := { cooldownMs := 0 }
  /-- The connections whose opening hello is being built. -/
  hellos : List ConnId := []
  verifying : List Verifying := []
  /-- The connections whose hello-ack is being built. -/
  acks : List ConnId := []
  /-- The requests being handled: the connection and the id each is answered under. -/
  handling : List (ConnId × Option JsVal) := []
  /-- The connections whose signals were handed to the mesh. -/
  negotiated : List ConnId := []

/-! ### The kernel's part -/

inductive Route where
  | socket
  | mesh
  deriving DecidableEq

/-- Something the kernel does to the node. -/
inductive KernelAct where
  | send (nodeId : NodeId) (type : JsString) (body : Option JsVal)
  | notify (nodeId : NodeId) (type : JsString) (body : Option JsVal)
  | closeConnection (nodeId : NodeId)
  | supersedePeer (nodeId : NodeId)
  | setSynaptome (synaptome : JsMap NodeId Synapse)

/-- What the kernel answers, and does, in the course of one event. -/
structure Kernel where
  simEpoch : Int := 0
  /-- The weight and inertia `Synapse.reinforce` leaves. -/
  reinforce : Synapse → ℚ × Int := fun syn => (syn.weight, syn.inertia)
  addByVitality : JsMap NodeId Synapse → Synapse → JsMap NodeId Synapse :=
    fun synaptome syn => synaptome.set syn.peerId syn
  /-- The message `_addByVitality` throws, where it does. -/
  admitError : Option JsString := none
  routeOf : NodeId → Option Route := fun _ => none
  /-- What a handler of the kernel's does before it returns, and the message it throws. -/
  acts : List KernelAct := []
  handlerError : Option JsString := none
  /-- The message the mesh's `onSignal` throws, where it does. -/
  signalError : Option JsString := none

/-! ### Outputs -/

/-- A frame of the transport. -/
inductive AxonaFrame where
  | req (id : Nat) (type : JsString) (body : Option JsVal)
  | res (id : Option JsVal) (ok : Bool) (body : Option JsVal)
  | ntf (type : JsString) (body : Option JsVal)

inductive NodeOut where
  | send (connId : ConnId) (payload : AxonaFrame)
  | signal (connId : ConnId) (sender : ConnId) (payload : JsVal)
  | close (connId : ConnId) (reason : JsString)
  | log (row : LogRow)

/-- A row of the node's log, which the server writes at the debug level. -/
def NodeOut.row (event : JsString) (fields : List (JsString × LogVal)) : NodeOut :=
  .log { level := .debug, event := js "axona:" ++ event, fields }

namespace NodeConfig

variable (cfg : NodeConfig)

/-- The entries of `FLEET_ALLOWLIST`. -/
def allowed : List JsString :=
  match cfg.fleetAllowlist with
  | none => []
  | some list => ((split list 44).map trim).filter (· ≠ [])

/-- The allowlist lets an identity through: it is on the list, or the list has no entry. -/
def admits (nodeId : JsString) : Bool := cfg.allowed = [] || nodeId ∈ cfg.allowed

def reservedId : JsString := SocketBootstrap.reservedId cfg.epoch

def isReservedId (id : JsString) : Bool := cfg.sb.isSome && id = cfg.reservedId

/-- The connection whose door key of this epoch a token is. -/
def ownDoorKey (token : JsString) : Option ConnId :=
  (SocketBootstrap.parseDoorKey token).bind fun p => if p.1 = cfg.epoch then some p.2 else none

end NodeConfig

namespace Node

variable (cfg : NodeConfig) (k : Kernel) (n : Node)

/-! ### The handshake -/

/-- `_bridgeCbv`, given by the nonce it is folded from. -/
def bridgeCbv (connId : ConnId) : Option JsString :=
  (n.serverNonceByConn.get connId).filter (· ≠ [])

def sendHello (connId : ConnId) (serverNonce : JsString) : Node × List NodeOut :=
  if n.helloByConnId.has connId then (n, [])
  else
    let n := { n with
      helloByConnId := n.helloByConnId.set connId .pending
      serverNonceByConn :=
        if serverNonce = [] then n.serverNonceByConn else n.serverNonceByConn.set connId serverNonce }
    match n.bridgeCbv connId with
    | none => (n, [.row (js "hello-no-cbv") [(js "connId", .str connId)]])
    | some _ => ({ n with hellos := n.hellos ++ [connId] }, [])

/-- `buildAuthHello` of the opening hello completes. -/
def helloBuilt (i : Nat) (hello : Except JsString JsVal) : Node × List NodeOut :=
  match n.hellos[i]? with
  | none => (n, [])
  | some connId =>
      let n := { n with hellos := n.hellos.eraseIdx i }
      match hello with
      | .ok hello => (n, [.send connId (.ntf (js "hello") (some hello))])
      | .error err =>
          (n, [.row (js "hello-build-failed") [(js "connId", .str connId), (js "err", .str err)]])

/-- `verifyPeerHello`, up to its call of `verifyAuthHello`. -/
def verifyPeerHello (sender : Sender) (body : Option JsVal) (label : HelloLabel) :
    Node × List NodeOut :=
  match sender with
  | .node _ => (n, [])
  | .conn connId =>
      match n.bridgeCbv connId with
      | none =>
          (n, [.row (js "auth-no-cbv") [(js "connId", .str connId), (js "label", .str label.text)]])
      | some serverNonce =>
          ({ n with verifying := n.verifying ++ [{ connId, label, body, serverNonce }] }, [])

/-- `_completeHandshake` -/
def completeHandshake (connId : ConnId) (peerNodeId : NodeId) : Node × List NodeOut :=
  if n.helloByConnId.get connId = some .complete then (n, [])
  else
    let n := { n with
      helloByConnId := n.helloByConnId.set connId .complete
      transport := n.transport.bindPeer peerNodeId connId }
    let peer : LogVal := .str (idToHex peerNodeId)
    if cfg.sb.isSome ∧ k.routeOf peerNodeId = some .mesh then
      (n, [.row (js "handshake-born-superseded") [(js "connId", .str connId), (js "peerNodeId", peer)]])
    else
      let isNew := !n.synaptome.has peerNodeId
      let n := if isNew then { n with
        synaptome := k.addByVitality n.synaptome
          { peerId := peerNodeId
            latencyMs := 50
            stratum := clz64 (Int.xor cfg.id peerNodeId)
            weight := 1 / 2
            inertia := 0
            addedBy := js "handshake" } } else n
      let failed := match k.admitError with
        | some err => if isNew then
            [NodeOut.row (js "admit-failed") [(js "peerNodeId", peer), (js "err", .str err)]] else []
        | none => []
      (n, failed ++ [.row (js "handshake-complete") [(js "connId", .str connId),
        (js "peerNodeId", peer), (js "synaptomeSize", .int n.synaptome.size)]])

/-- The answer of `verifyAuthHello`: the proven identity, or why there is none. -/
inductive AuthResult where
  | ok (nodeId : JsString)
  | refused (reason : JsString)

/-- `verifyPeerHello`, from the completion of one `verifyAuthHello` on. -/
def verified (i : Nat) (res : AuthResult) : Node × List NodeOut :=
  match n.verifying[i]? with
  | none => (n, [])
  | some v =>
      let n := { n with verifying := n.verifying.eraseIdx i }
      let on : List (JsString × LogVal) → List (JsString × LogVal) := fun fields =>
        (js "connId", .str v.connId) :: (js "label", .str v.label.text) :: fields
      match res with
      | .refused reason =>
          (n, [.row (js "auth-peer-rejected") (on [(js "reason", .str reason)]),
            .close v.connId
              (js "upgrade required: this network speaks axona/4 (" ++ reason ++ js ")")])
      | .ok nodeId =>
          if !cfg.admits nodeId then
            (n, [.row (js "auth-peer-not-allowlisted") (on [(js "peer", .str nodeId)]),
              .close v.connId (js "not on the closed-fleet allowlist")])
          else
            match hexValue nodeId with
            | none => (n, [])
            | some peerNodeId =>
                let r := n.completeHandshake cfg k v.connId peerNodeId
                ({ r.1 with acks := if v.label = .hello then r.1.acks ++ [v.connId] else r.1.acks },
                  r.2)

/-- `buildAuthHello` of a hello-ack completes. -/
def ackBuilt (i : Nat) (ack : Except JsString JsVal) : Node × List NodeOut :=
  match n.acks[i]? with
  | none => (n, [])
  | some connId =>
      let n := { n with acks := n.acks.eraseIdx i }
      match ack with
      | .ok ack => (n, [.send connId (.ntf (js "hello-ack") (some ack))])
      | .error err => (n, [.row (js "hello-ack-failed") [(js "err", .str err)]])

/-! ### The kernel's acts -/

def act (isConnOpen : ConnId → Bool) : KernelAct → Node × List NodeOut
  | .send nodeId type body =>
      let r := n.transport.send nodeId isConnOpen false
      ({ n with transport := r.1 },
        match r.2 with
        | .refused _ => []
        | .requested connId id _ => [.send connId (.req id type body)])
  | .notify nodeId type body =>
      if !n.transport.started then (n, [])
      else
        let about : List (JsString × LogVal) :=
          [(js "nodeId", .str (intToString 16 nodeId)), (js "type", .str type)]
        match n.transport.connIdByNodeId.get nodeId with
        | none => (n, [.row (js "ws-notify-no-binding") about])
        | some connId =>
            if connId = [] then (n, [.row (js "ws-notify-no-binding") about])
            else if isConnOpen connId then (n, [.send connId (.ntf type body)])
            else (n, [.row (js "ws-notify-conn-closed") about])
  | .closeConnection nodeId => ({ n with transport := n.transport.closeConnection nodeId }, [])
  | .supersedePeer nodeId => ({ n with transport := n.transport.supersedePeer nodeId }, [])
  | .setSynaptome synaptome => ({ n with synaptome }, [])

def runActs (isConnOpen : ConnId → Bool) : Node → List KernelAct → Node × List NodeOut
  | n, [] => (n, [])
  | n, a :: as =>
      let r := n.act isConnOpen a
      let rest := runActs isConnOpen r.1 as
      (rest.1, r.2 ++ rest.2)

/-! ### Inbound frames -/

/-- The request types the node has a handler for. -/
def requestTypes : List JsString :=
  [js "ping", js "lookahead_probe", js "local_probe", js "find_closest_set", js "lookup_step",
    js "route_msg"]

/-- The ones of these whose handler is the kernel's own code. -/
def delegatedTypes : List JsString := [js "lookup_step", js "route_msg"]

/-- `` `${v}` `` -/
def template : Option JsVal → Except JsError JsString
  | none => .ok (js "undefined")
  | some v => v.toStr

/-- `_handleRequest`. A handler's answer comes later; a type without handler is answered at once. -/
def handleRequest (isConnOpen : ConnId → Bool) (connId : ConnId) (msg : JsVal) :
    Node × List NodeOut :=
  let id := msg.field (js "id")
  let handled := match JsVal.asString (msg.field (js "type")) with
    | some type => if cfg.kernelRequest type ∨ type ∈ requestTypes then some type else none
    | none => none
  match handled with
  | some type =>
      let n := { n with handling := n.handling ++ [(connId, id)] }
      if cfg.kernelRequest type ∨ type ∈ delegatedTypes then n.runActs isConnOpen k.acts else (n, [])
  | none =>
      match template (msg.field (js "type")) with
      | .error _ => (n, [])
      | .ok type => (n, [.send connId (.res id false
          (some (.obj [(js "error", .str (js "no handler for '" ++ type ++ js "'"))])))])

/-- A handler answers, or throws, and `_reply` sends it. -/
def answered (i : Nat) (ok : Bool) (body : Option JsVal) : Node × List NodeOut :=
  match n.handling[i]? with
  | none => (n, [])
  | some (connId, id) =>
      ({ n with handling := n.handling.eraseIdx i }, [.send connId (.res id ok body)])

/-- The row `_handleNotification` writes for a handler that throws. -/
def handlerThrew (type err : JsString) : NodeOut :=
  .row (js "ntf-handler-threw") [(js "type", .str type), (js "err", .str err)]

/-- The handler of `reinforce`. -/
def reinforce (body : Option JsVal) : Node × List NodeOut :=
  match JsVal.read body (js "synapsePeerId") with
  | .error _ =>
      (n, [handlerThrew (js "reinforce") (js "Cannot read properties of " ++
        (if body.isSome then js "null" else js "undefined") ++
        js " (reading 'synapsePeerId')")])
  | .ok (some (.bigint peerId)) =>
      ({ n with
        synaptome := n.synaptome.modify peerId fun syn =>
          { syn with
            weight := (k.reinforce syn).1
            inertia := (k.reinforce syn).2
            useCount := some (syn.useCount.getD 0 + 1) } }, [])
  | .ok _ => (n, [])

/-- The handlers of `triadic_introduce` and `hop_cache`, which read the new peer's id from different
fields. An id that is no `BigInt` makes `node.id ^ id` throw. -/
def introduce (name addedBy : JsString) (body : Option JsVal) : Node :=
  match JsVal.readOpt body name with
  | some (.bigint peerId) =>
      if peerId = 0 ∨ n.synaptome.has peerId then n
      else { n with
        synaptome := k.addByVitality n.synaptome
          { peerId
            latencyMs := 0
            stratum := clz64 (Int.xor cfg.id peerId)
            weight := 1 / 2
            inertia := k.simEpoch
            addedBy } }
  | _ => n

def triadicIntroduce (body : Option JsVal) : Node := n.introduce cfg k (js "peerId") (js "triadic") body

def hopCache (body : Option JsVal) : Node := n.introduce cfg k (js "target") (js "hopCache") body

/-- `_handleNotification` -/
def handleNotification (isConnOpen : ConnId → Bool) (sender : Sender) (msg : JsVal) :
    Node × List NodeOut :=
  let body := msg.field (js "body")
  match JsVal.asString (msg.field (js "type")) with
  | none => (n, [])
  | some type =>
      if cfg.kernelNotification type then
        let r := n.runActs isConnOpen k.acts
        (r.1, r.2 ++ (k.handlerError.map fun err => handlerThrew type err).toList)
      else if type = js "hello" then n.verifyPeerHello sender body .hello
      else if type = js "hello-ack" then n.verifyPeerHello sender body .helloAck
      else if type = js "reinforce" then n.reinforce k body
      else if type = js "triadic_introduce" then (n.triadicIntroduce cfg k body, [])
      else if type = js "hop_cache" then (n.hopCache cfg k body, [])
      else (n, [])

/-- `handleAxonaFrame` -/
def handleAxonaFrame (isConnOpen : ConnId → Bool) (connId : ConnId) (payload : JsVal) :
    Node × List NodeOut × Option JsError :=
  let r := n.transport.handleIncoming connId payload
  let n := { n with transport := r.1 }
  match r.2 with
  | .dropped => (n, [], none)
  | .response thrown => (n, [], thrown)
  | .request _ msg =>
      let r := n.handleRequest cfg k isConnOpen connId msg
      (r.1, r.2, none)
  | .notification sender msg =>
      let r := n.handleNotification cfg k isConnOpen sender msg
      (r.1, r.2, none)

/-! ### The close of a socket -/

/-- The node's own `onPeerDied` handler. -/
def peerDied (died : Option Sender) : Node :=
  match died with
  | some (.node deadId) =>
      if cfg.sb.isSome ∧ (k.routeOf deadId).isSome then n
      else { n with deadPeers := if deadId ∈ n.deadPeers then n.deadPeers else n.deadPeers ++ [deadId] }
  | _ => n

def handleConnClosed (connId : ConnId) : Node :=
  let r := n.transport.handleConnClosed connId
  let n := { n with
    helloByConnId := n.helloByConnId.delete connId
    serverNonceByConn := n.serverNonceByConn.delete connId
    transport := r.1
    doorChannelBound :=
      if cfg.sb.isSome then n.doorChannelBound.filter (· ≠ connId) else n.doorChannelBound }
  n.peerDied cfg k r.2

/-! ### The door -/

/-- `reservedIdFor` -/
def reservedIdFor (kernelVersion peerVersion : Option JsString) : Option JsString :=
  match cfg.sb with
  | none => none
  | some sb =>
      if !n.mesh then none
      else
        -- `kernelVersion || peerVersion || '0.0.0'`
        let v := ((kernelVersion.filter (· ≠ [])).or (peerVersion.filter (· ≠ []))).getD (js "0.0.0")
        if SocketBootstrap.gteVersion v sb.minKernel then some cfg.reservedId else none

/-- `deliverDoorSignal`: whether the frame was consumed. -/
def deliverDoorSignal (now : Int) (connId : ConnId) (payload : Option JsVal) :
    Bool × Node × List NodeOut :=
  if cfg.sb.isNone ∨ !n.mesh then (false, n, [])
  else
    let isOffer := JsVal.asString (JsVal.readOpt payload (js "kind")) = some (js "sdp-offer")
    let hit := if isOffer then n.sbRetired.hasConn connId now else (false, n.sbRetired)
    let n := { n with sbRetired := hit.2 }
    if hit.1 then (true, n, [.row (js "door-offer-refused-cooldown") [(js "connId", .str connId)]])
    else (true, { n with negotiated := n.negotiated ++ [connId] },
      (k.signalError.map fun err =>
        NodeOut.row (js "door-signal-threw") [(js "connId", .str connId), (js "err", .str err)]).toList)

/-- The sink the mesh's answers for a door key go to. -/
def doorSink (isConnOpen : ConnId → Bool) (key : JsString) (payload : JsVal) : List NodeOut :=
  match cfg.ownDoorKey key with
  | none => []
  | some connId =>
      if isConnOpen connId then [.signal connId cfg.reservedId payload]
      else [.row (js "door-signal-drop-closed") [(js "connId", .str connId),
        (js "kind", .ofString? (JsVal.asString (payload.field (js "kind"))))]]

/-- What the mesh and the kernel answer the bind policy. -/
structure BindInput where
  /-- `gatePreflight`: whether it admits, with its reason, or what it throws. -/
  preflight : Except JsString (Bool × JsString)
  openCounted : Int := 0
  /-- The incumbent a dry run names. -/
  victim : Option JsString := none
  victimId : Option NodeId := none

/-- What became of a bind: none of the door's business, refused by the door, or let through by it. -/
inductive BindVerdict where
  | pass
  | refused (why : JsString)
  | bound
  deriving DecidableEq

/-- `refuse(why, extra)`, where `extra` may log another `why`, the error or the counts. -/
def refuseBind (connId : ConnId) (idHex why : JsString) (logged : JsString)
    (err : Option JsString := none) (counts : Option (Int × Int) := none) :
    BindVerdict × Node × List NodeOut :=
  let row : NodeOut := match err, counts with
    | some err, _ => .row (js "door-bind-refused") [(js "connId", .str connId),
        (js "peer", .str idHex), (js "why", .str logged), (js "err", .str err)]
    | none, some (openCounted, cap) => .row (js "door-bind-refused") [(js "connId", .str connId),
        (js "peer", .str idHex), (js "why", .str logged), (js "open", .int openCounted),
        (js "cap", .int cap)]
    | none, none => .row (js "door-bind-refused") [(js "connId", .str connId),
        (js "peer", .str idHex), (js "why", .str logged)]
  (.refused why, n, [row])

/-- The step that makes room at the cap: the retire of the dry run's victim, where one is due. -/
def makeRoom (now : Int) (input : BindInput) (connId : ConnId) (idHex : JsString) :
    BindVerdict × Node × List NodeOut :=
  if 0 < cfg.cap ∧ cfg.cap < input.openCounted then
    let counts := some (input.openCounted, cfg.cap)
    let ok := n.sbBudget.ok now
    let n := { n with sbBudget := ok.2 }
    if !ok.1 then n.refuseBind connId idHex (js "budget") (js "budget") none counts
    else
      match input.victim with
      | none => n.refuseBind connId idHex (js "noVictim") (js "noVictim") none counts
      | some victim =>
          let retired := match input.victimId with
            | some id => n.sbRetired.markIdentity (idToHex id) now
            | none => n.sbRetired
          let retired := match cfg.ownDoorKey victim with
            | some victimConn => retired.markConn victimConn now
            | none => retired
          (.bound, { n with sbBudget := n.sbBudget.spend now, sbRetired := retired },
            [.row (js "door-make-room") [(js "connId", .str connId), (js "newcomer", .str idHex),
              (js "victimKey", .str victim), (js "victim", .ofString? (input.victimId.map idToHex)),
              (js "open", .int input.openCounted), (js "cap", .int cfg.cap)]])
  else (.bound, n, [])

/-- `_bindPolicy`, for a bind on the mesh transport. -/
def bindPolicy (now : Int) (input : BindInput) (nodeId : NodeId) (token : JsString) :
    BindVerdict × Node × List NodeOut :=
  match cfg.ownDoorKey token with
  | none => (.pass, n, [])
  | some connId =>
      let idHex := idToHex nodeId
      let hit := n.sbRetired.hasIdentity idHex now
      let n := { n with sbRetired := hit.2 }
      if hit.1 then n.refuseBind connId idHex (js "cooldown") (js "cooldown")
      else
        match input.preflight with
        | .error err => n.refuseBind connId idHex (js "gate") (js "gate") (some err)
        | .ok (false, why) => n.refuseBind connId idHex (js "gate") why
        | .ok (true, how) =>
            match n.makeRoom cfg now input connId idHex with
            | (.bound, n, out) =>
                (.bound, { n with
                  doorChannelBound :=
                    if connId ∈ n.doorChannelBound then n.doorChannelBound
                    else n.doorChannelBound ++ [connId] },
                  out ++ [.row (js "door-channel-bound") [(js "connId", .str connId),
                    (js "peer", .str idHex), (js "how", .str how)]])
            | r => r

/-- `_onRouteToDoor` -/
def onRouteToDoor (nodeId : NodeId) (token : JsString) : Node × List NodeOut :=
  match cfg.ownDoorKey token with
  | none => (n, [])
  | some connId =>
      if connId ∈ n.doorChannelBound then (n, [])
      else ({ n with doorChannelBound := n.doorChannelBound ++ [connId] },
        [.row (js "door-channel-bound") [(js "connId", .str connId),
          (js "peer", .str (idToHex nodeId)), (js "how", .str (js "route-switch"))]])

end Node

end AxonaBridge
