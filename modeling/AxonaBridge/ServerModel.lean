import AxonaBridge.AnchorSelect
import AxonaBridge.GraduatedRegistry
import AxonaBridge.GraduationSelect
import AxonaBridge.NodeModel

/-!
# The server

The connection table of `server.js` and what its handlers do to it: the version gate, admission, the
switch over frame types, graduation, the close handler and the sweeps. What a handler sends, closes
or logs is appended to `out`. One `Io` goes with each event: the clock, what `ws.send` and `ws.close`
do on each connection, and whatever the handler draws or is answered from outside.
-/

open JsText

namespace AxonaBridge

/-! ### Configuration -/

/-- The graduated sample, where it is on. -/
structure SampleConfig where
  rSample : Nat := 16
  lRegMs : Int := 86400000
  mReg : Nat := 4096

/-- What the environment fixes when the process starts. -/
structure Config where
  node : NodeConfig
  version : JsString := js "2.176.0"
  kernelVersion : JsString := js "4.110.0"
  minPeerVersion : JsString := js "1.1.0"
  strictMinKernel : Option JsString := none
  helloTimeoutMs : Int := 5000
  minKernelVersion : JsString := js "3.15.0"
  minPeerAppVersion : JsString := js "3.15.0"
  requiredWireMajor : JsString := js "4"
  turnAuthSecret : Option JsString := none
  turnUrls : List JsString := [js "turn:turn.axona.net:3478"]
  /-- `base64(HMAC-SHA1(secret, username))` -/
  hmac : JsString → JsString → JsString := fun _ username => username
  idleTimeoutMs : Int := 15000
  unboundKickMs : Int := 120000
  nurseryOn : Bool := true
  anchorK : Int := 8
  anchorMinUptimeMs : Int := 15000
  anchorMinPool : Int := 24
  maxPeers : Int := 32
  graduationMinUptimeMs : Int := 30000
  graduationMinKernel : JsString := js "4.35.0"
  graduationSafeFloor : Int := 4
  graduationVitalityTtlMs : Int := 20000
  graduationMaxNurseryMs : Int := 600000
  graduationSlack : Int := 2
  graduationIntervalMs : Int := 3000
  graduationCooldownMs : Int := 60000
  signalRate : Int := 600
  signalWindowMs : Int := 60000
  graduatedSample : Option SampleConfig := none
  graduationGateOn : Bool := false
  cohortMs : Int := 60000
  /-- `LOG_LEVEL` is `debug`. -/
  logDebug : Bool := false
  /-- What the clock reads when the sampler of the loop is set up. -/
  loadedAt : Int := 0

/-- What one event is answered by everything outside the bridge. -/
structure Io where
  now : Int := 0
  /-- The message `ws.send` throws on a connection, where it does. -/
  sendError : ConnId → Option JsString := fun _ => none
  /-- `ws.close` throws on a connection for a reason other than its argument. -/
  closeError : ConnId → Bool := fun _ => false
  /-- The socket of a connection is closing or closed for what the other side did. -/
  gone : ConnId → Bool := fun _ => false
  nonce : JsString := js "nonce"
  turnToken : JsString := []
  draws : List Nat := []
  kernel : Kernel := {}

def upgradeRequired : Nat := 4426
def helloTimeoutCode : Nat := 4408
def unauthenticated : Nat := 4401
def graduated : Nat := 4200

/-- The longest close reason `ws` takes, in bytes of UTF-8. -/
def maxReasonBytes : Nat := 123

/-! ### State -/

structure Intro where
  anchorsOlderThanCohort : Bool := false
  graduatedListed : Bool := false
  deriving DecidableEq

/-- Add what one more introduction reached. -/
def Intro.record (prev : Intro) (older graduatedListed : Bool) : Intro where
  anchorsOlderThanCohort := prev.anchorsOlderThanCohort || older
  graduatedListed := prev.graduatedListed || graduatedListed

structure Conn where
  since : Int
  lastSeenAt : Int
  pings : Nat := 0
  pongs : Nat := 0
  signalsRelayed : Nat := 0
  admitted : Bool := false
  /-- The hello timer is armed. -/
  helloTimer : Bool := false
  helloRetried : Bool := false
  peerVersion : Option JsString := none
  kernelVersion : Option JsString := none
  claimedRegion : Option JsString := none
  turnRefreshOnly : Bool := false
  /-- The timer that releases a credential-only socket is armed. -/
  releaseTimer : Bool := false
  meshBound : Option Nat := none
  meshBoundAt : Int := 0
  anchorUses : Nat := 0
  intro : Option Intro := none
  sigWinStart : Option Int := none
  sigWinCount : Int := 0
  sigWinLogged : Bool := false
  signalsRateLimited : Int := 0
  deriving DecidableEq

structure TurnCredential where
  urls : List JsString
  username : JsString
  credential : JsString
  ttlSeconds : Int

/-- A frame to a client. -/
inductive Frame where
  | versionGate (minPeerVersion : JsString) (serverT : Int)
  | welcome (connId : ConnId) (serverT : Int) (version kernelVersion serverNonce : JsString)
      (turn : Option TurnCredential)
  | peerList (peers : List ConnId) (graduated : List JsString) (serverT : Int)
  | peerJoined (peerId : ConnId) (serverT : Int)
  | peerLeft (peerId : ConnId) (nodeId : Option JsString) (serverT : Int)
  | signal (sender : ConnId) (payload : Option JsVal)
  | pong (t : Option JsVal) (serverT : Int)
  | turn (turn : TurnCredential) (serverT : Int)
  | axona (payload : AxonaFrame)

/-- The `type` field of a frame. -/
def Frame.type : Frame → JsString
  | .versionGate .. => js "version-gate"
  | .welcome .. => js "welcome"
  | .peerList .. => js "peer-list"
  | .peerJoined .. => js "peer-joined"
  | .peerLeft .. => js "peer-left"
  | .signal .. => js "signal"
  | .pong .. => js "pong"
  | .turn .. => js "turn"
  | .axona .. => js "axona"

/-- What the server has done: a `ws.send` that returned, a close called (with whether it throws on an open
socket), a socket terminated, a log row written. -/
inductive Out where
  | frame (connId : ConnId) (frame : Frame)
  | close (connId : ConnId) (code : Nat) (reason : JsString) (threw : Bool)
  | terminate (connId : ConnId)
  | log (row : LogRow)

/-- The connection a close or a termination is for. -/
def Out.cutOff : Out → Option ConnId
  | .close connId .. => some connId
  | .terminate connId => some connId
  | _ => none

structure Server where
  connections : JsMap ConnId Conn := JsMap.empty
  node : Node
  nurseryIntros : Nat := 0
  nurseryFellBack : Nat := 0
  graduatedTotal : Nat := 0
  unboundKicked : Nat := 0
  turnRefreshOnlyTotal : Nat := 0
  signalRateLimitedTotal : Nat := 0
  gateHeldTotal : Nat := 0
  cohortOnlyGraduated : Nat := 0
  bootstrapSocketsClosed : Nat := 0
  lastGraduationAt : Int := 0
  graduatedRecently : JsMap JsString Int := JsMap.empty
  registry : Option GraduatedRegistry := none
  lastHeartbeatAt : Int := 0
  lastStallEndAt : Int := 0
  lastStallMs : Int := 0
  maxStallMs : Int := 0
  stallCount : Nat := 0
  out : List Out := []

/-! ### Versions -/

/-- `gteVersion` of the server: the first three components. -/
def gteVersion (a b : JsString) : Bool :=
  let pa := versionParts a
  let pb := versionParts b
  ((List.range 3).findSome? fun i =>
    let x := pa.getD i (.fin 0)
    let y := pb.getD i (.fin 0)
    if y.lt x then some true else if x.lt y then some false else none).getD true

/-- `flagDayFloor`: the floor of a version's namespace, and the namespace. -/
def Config.flagDayFloor (cfg : Config) (version : JsString) : JsString × JsString :=
  let major := (versionParts version).headD (.fin 0)
  if major.lt (.fin 3) then (cfg.minKernelVersion, js "kernel")
  else (cfg.minPeerAppVersion, js "peer-app")

/-- `c.kernelVersion || c.peerVersion || '0.0.0'` -/
def Conn.effectiveVersion (c : Conn) : JsString :=
  ((c.kernelVersion.filter (· ≠ [])).or (c.peerVersion.filter (· ≠ []))).getD (js "0.0.0")

namespace Server

variable (cfg : Config) (io : Io) (s : Server)

/-- Change a connection of the table in place. -/
def modifyConn (id : ConnId) (f : Conn → Conn) : Server :=
  { s with connections := s.connections.modify id f }

/-! ### Logging, sending, closing -/

/-- Write a row; a debug row only at that level. -/
def log (row : LogRow) : Server :=
  if row.level = .debug ∧ ¬cfg.logDebug then s else { s with out := s.out ++ [.log row] }

def logInfo (event : JsString) (fields : List (JsString × LogVal)) : Server :=
  s.log cfg { level := .info, event, fields }

def logErr (event : JsString) (fields : List (JsString × LogVal)) : Server :=
  s.log cfg { level := .error, event, fields }

def logDebug (event : JsString) (fields : List (JsString × LogVal)) : Server :=
  s.log cfg { level := .debug, event, fields }

/-- A row with values of the wire in it, which `JSON.stringify` may throw on. -/
def tryLog (level : LogLevel) (event : JsString) (fields : List (JsString × JsVal)) :
    Server × Option JsError :=
  if level = .debug ∧ ¬cfg.logDebug then (s, none)
  else
    match LogVal.ofFields fields with
    | some fields => (s.log cfg { level, event, fields }, none)
    | none => (s, some .bigintInJson)

/-- The socket of a connection is closing for what was called here: a termination, or a close, also one
that threw. `ws` drops what is sent on it then, and ignores a further close. -/
def Closing (connId : ConnId) : Prop := ∃ o ∈ s.out, o.cutOff = some connId

instance (connId : ConnId) : Decidable (s.Closing connId) :=
  inferInstanceAs (Decidable (∃ o ∈ s.out, o.cutOff = some connId))

/-- The socket of a connection is open. -/
def IsOpen (connId : ConnId) : Prop := io.gone connId = false ∧ ¬s.Closing connId

/-- `ws.send` on a connection: whether it returned, as it does on a socket that is closing too. -/
def wsSend (connId : ConnId) (frame : Frame) : Bool × Server :=
  if (io.sendError connId).isSome then (false, s)
  else (true, { s with out := s.out ++ [.frame connId frame] })

/-- The row of a `ws.send` that threw. -/
def sendFailed (event : JsString) (connId : ConnId) (frame : Frame) : Server :=
  s.logErr cfg event [(js "connId", .str connId), (js "type", .str frame.type),
    (js "err", .str ((io.sendError connId).getD []))]

def sendTo (peerId : ConnId) (msg : Frame) : Bool × Server :=
  if !s.connections.has peerId then (false, s)
  else
    let r := s.wsSend io peerId msg
    if r.1 then r else (false, r.2.sendFailed cfg io (js "send-failed") peerId msg)

def broadcast (msg : Frame) (exceptId : Option ConnId) : Nat × Server :=
  s.connections.entries.foldl (fun acc e =>
    if some e.1 = exceptId ∨ ¬e.2.admitted then acc
    else
      let r := acc.2.wsSend io e.1 msg
      if r.1 then (acc.1 + 1, r.2)
      else (acc.1, r.2.sendFailed cfg io (js "broadcast-send-failed") e.1 msg)) (0, s)

/-- `ws.close` throws on an open socket. -/
def closeThrows (connId : ConnId) (reason : JsString) : Bool :=
  maxReasonBytes < utf8Length reason || io.closeError connId

/-- `ws.close` on a connection. It sends a close frame where the socket is open and it does not throw. -/
def wsClose (connId : ConnId) (code : Nat) (reason : JsString) : Server :=
  { s with out := s.out ++ [.close connId code reason (closeThrows io connId reason)] }

/-- The node's `sendToConn`, `closeConn` and `log`. -/
def perform : NodeOut → Server
  | .send connId payload => (s.sendTo cfg io connId (.axona payload)).2
  | .signal connId sender payload => (s.sendTo cfg io connId (.signal sender (some payload))).2
  | .close connId reason =>
      if s.connections.has connId then s.wsClose io connId upgradeRequired reason else s
  | .log row => s.log cfg row

/-- Take over what the node came to and do what it asked for. -/
def withNode (r : Node × List NodeOut) : Server :=
  r.2.foldl (fun s o => s.perform cfg io o) { s with node := r.1 }

def isConnOpen (connId : ConnId) : Bool := s.connections.has connId

/-! ### Identities of connections -/

def connNodeHex (connId : ConnId) : Option JsString :=
  (s.node.transport.nodeIdByConnId.get connId).map idToHex

def connRegion (connId : ConnId) : Option JsString := (s.connNodeHex connId).map fun nh => nh.take 2

/-- The mesh size a connection reported recently. -/
def freshMeshBound (c : Conn) : Option Nat :=
  if io.now - c.meshBoundAt < cfg.graduationVitalityTtlMs then c.meshBound else none

/-! ### Introductions -/

def makeTurnCredential : Option TurnCredential :=
  (cfg.turnAuthSecret.filter (· ≠ [])).map fun secret =>
    let ttlSeconds : Int := 60 * 60 * 2
    let username := intToString 10 (io.now / 1000 + ttlSeconds) ++ js ":" ++ io.turnToken
    { urls := cfg.turnUrls, username, credential := cfg.hmac secret username, ttlSeconds }

/-- The ids of the admitted connections other than one, in the order of the table. -/
def admittedOthers (id : ConnId) : List ConnId :=
  (s.connections.entries.filter fun e => e.1 ≠ id && e.2.admitted).map Prod.fst

def recordIntroduction (id : ConnId) (conn : Conn) (admittedPeers : List ConnId)
    (graduatedListed : Bool) : Server :=
  let older := admittedPeers.any fun aid =>
    (s.connections.get aid).any fun ac => ac.admitted && cfg.cohortMs < conn.since - ac.since
  s.modifyConn id fun c =>
    { c with intro := some ((c.intro.getD {}).record older graduatedListed) }

/-- The sample of the graduated that goes with a peer-list. -/
def graduatedSample (id : ConnId) : List JsString × Server :=
  match s.registry, cfg.graduatedSample with
  | some registry, some sample =>
      let r := registry.sample sample.rSample (s.connNodeHex id) io.now io.draws
      (r.1, { s with registry := some r.2 })
  | _, _ => ([], s)

def introducedOutsideCohort (connId : ConnId) (conn : Conn) : Bool :=
  conn.intro.any (fun i => i.anchorsOlderThanCohort || i.graduatedListed) ||
    (cfg.node.sb.isSome && connId ∈ s.node.doorChannelBound)

def cohortSizeOf (conn : Conn) : Nat :=
  s.connections.entries.countP fun e =>
    e.2.admitted && (e.2.since - conn.since).natAbs ≤ cfg.cohortMs

/-- The peers the newcomer is introduced to, before its region-mates are put first. -/
def introduce (id : ConnId) (newRegion : Option JsString) : List ConnId × Server :=
  if cfg.nurseryOn then
    let candidates := s.connections.entries.map fun e =>
      ({ id := e.1, admitted := e.2.admitted, since := e.2.since, anchorUses := e.2.anchorUses,
         region := s.connRegion e.1 } : AnchorSelect.Candidate)
    let sel := AnchorSelect.selectAnchors
      { newId := id, newRegion, now := io.now, k := cfg.anchorK,
        minUptimeMs := cfg.anchorMinUptimeMs, minPool := cfg.anchorMinPool } candidates
    let s := sel.anchors.foldl (fun s aid =>
      s.modifyConn aid fun ac => { ac with anchorUses := ac.anchorUses + 1 }) s
    (sel.anchors, { s with
      nurseryIntros := s.nurseryIntros + 1
      nurseryFellBack := if sel.fellBack then s.nurseryFellBack + 1 else s.nurseryFellBack })
  else (s.admittedOthers id, s)

/-- The list with the bridge's reserved id in front, for a client that may be offered it. -/
def withReserved (conn : Conn) (peers : List ConnId) : List ConnId :=
  match s.node.reservedIdFor cfg.node conn.kernelVersion conn.peerVersion with
  | some rid => rid :: peers
  | none => peers

/-- Record an introduction and send the list: `peers`, and the sample in a field of its own. -/
def sendPeerList (id : ConnId) (conn : Conn) (peers : List ConnId) : List JsString × Server :=
  let sample := s.graduatedSample cfg io id
  let s := sample.2.recordIntroduction cfg id conn peers (sample.1 ≠ [])
  (sample.1, (s.sendTo cfg io id (.peerList peers sample.1 io.now)).2)

/-- The admission of a socket that only wants a credential. -/
def releaseLater (id : ConnId) (conn : Conn) : Server :=
  let s := { s with turnRefreshOnlyTotal := s.turnRefreshOnlyTotal + 1 }
  let s := s.logInfo cfg (js "client-hello-turn-refresh")
    [(js "connId", .str id), (js "peerVersion", .ofString? conn.peerVersion)]
  s.modifyConn id fun c => { c with releaseTimer := true }

/-- Introduce a newcomer to its anchors, announce it, and greet it. -/
def announce (id : ConnId) (conn : Conn) : Server :=
  let r := s.introduce cfg io id conn.claimedRegion
  let s := r.2
  let peers := s.withReserved cfg conn (orderSameRegionFirst r.1 s.connRegion conn.claimedRegion)
  let s := (s.sendPeerList cfg io id conn peers).2
  let announced := s.broadcast cfg io (.peerJoined id io.now) (some id)
  let s := announced.2.logInfo cfg (js "peer-announce") [(js "connId", .str id),
    (js "peers", .int peers.length), (js "announcedTo", .int announced.1)]
  s.withNode cfg io (s.node.sendHello id io.nonce)

/-- `admitConnection`, with the connection as the client-hello left it. -/
def admitConnection (id : ConnId) (conn : Conn) : Server :=
  let s := s.modifyConn id fun c => { c with helloTimer := false, admitted := true }
  let s := (s.sendTo cfg io id (.welcome id io.now cfg.version cfg.kernelVersion io.nonce
    (makeTurnCredential cfg io))).2
  if conn.turnRefreshOnly then s.releaseLater cfg id conn else s.announce cfg io id conn

/-! ### The version gate -/

inductive GateVerdict where
  | missingVersion
  | wireMismatch (peerVersion : JsString)
  | kernelTooOld (peerVersion : JsString) (peerKernel : Option JsString) (minKernel : JsString)
  | tooOld (peerVersion ns floor effectiveMin : JsString)
  | passed (peerVersion ns floor : JsString)

/-- What the gate makes of a client-hello. -/
def gate (msg : JsVal) : GateVerdict :=
  match (JsVal.asString (msg.field (js "version"))).filter (· ≠ []) with
  | none => .missingVersion
  | some peerVersion =>
      let peerWireMajor := (JsVal.asString (msg.field (js "wireVersion"))).map fun w =>
        (split w 46).headD []
      if peerWireMajor ≠ some cfg.requiredWireMajor then .wireMismatch peerVersion
      else
        let peerKernel := JsVal.asString (msg.field (js "kernelVersion"))
        let kernelFloor := cfg.strictMinKernel.filter (· ≠ [])
        match kernelFloor.filter fun min =>
            !(peerKernel.filter (· ≠ [])).any fun kernel => gteVersion kernel min with
        | some minKernel => .kernelTooOld peerVersion peerKernel minKernel
        | none =>
            let (floor, ns) := cfg.flagDayFloor peerVersion
            let effectiveMin :=
              if gteVersion floor cfg.minPeerVersion then floor else cfg.minPeerVersion
            if !gteVersion peerVersion cfg.minPeerVersion || !gteVersion peerVersion floor then
              .tooOld peerVersion ns floor effectiveMin
            else .passed peerVersion ns floor

/-- How a client-hello is refused: the row it is logged under and the close reason, whose template
may fail to convert. -/
structure Refusal where
  event : JsString
  fields : List (JsString × JsVal)
  reason : Except JsError JsString

/-- `` `${wireVersion ?? 'legacy'}` `` -/
def wireText : JsVal → Except JsError JsString
  | .null => .ok (js "legacy")
  | wire => wire.toStr

/-- The refusal a verdict comes to; `none` is an admission. -/
def refusal (id : ConnId) (msg : JsVal) : GateVerdict → Option Refusal
  | .missingVersion => some
      { event := js "client-hello-missing-version"
        fields := [(js "connId", .str id)]
        reason := .ok (js "client-hello must include 'version' (min v" ++ cfg.minPeerVersion ++ js ")") }
  | .wireMismatch peerVersion =>
      let peerWire := JsVal.orNull (msg.field (js "wireVersion"))
      some
        { event := js "client-hello-wire-mismatch"
          fields := [(js "connId", .str id), (js "peerVersion", .str peerVersion),
            (js "peerWire", peerWire), (js "requiredMajor", .str cfg.requiredWireMajor)]
          reason := (wireText peerWire).map fun wire =>
              js "wire " ++ wire ++ js " incompatible (need major " ++ cfg.requiredWireMajor ++
                js "); reload axona.net / the demo to upgrade" }
  | .kernelTooOld peerVersion peerKernel minKernel => some
      { event := js "client-hello-kernel-too-old"
        fields := [(js "connId", .str id), (js "peerVersion", .str peerVersion),
          (js "peerKernel", JsVal.ofString? peerKernel), (js "minKernel", .str minKernel)]
        reason := .ok (js "kernel v" ++ peerKernel.getD (js "legacy") ++ js " below minimum v" ++
          minKernel ++ js "; reload to upgrade") }
  | .tooOld peerVersion ns floor effectiveMin => some
      { event := js "client-hello-too-old"
        fields := [(js "connId", .str id), (js "peerVersion", .str peerVersion), (js "ns", .str ns),
          (js "floor", .str floor), (js "minPeerVersion", .str cfg.minPeerVersion),
          (js "effectiveMin", .str effectiveMin)]
        reason := .ok (js "peer v" ++ peerVersion ++ js " below minimum v" ++ effectiveMin ++
          js " (" ++ ns ++ js "); reload axona.net / the demo to upgrade") }
  | .passed .. => none

/-- The row is written before the close, and an error of the close is swallowed. -/
def refuse (id : ConnId) (r : Refusal) : Server × Option JsError :=
  match s.tryLog cfg .error r.event r.fields with
  | (s, some e) => (s, some e)
  | (s, none) =>
      match r.reason with
      | .error _ => (s, none)
      | .ok reason => (s.wsClose io id upgradeRequired reason, none)

/-- What a client-hello leaves in the connection before it is judged. -/
def Conn.ofHello (conn : Conn) (msg : JsVal) : Conn :=
  { conn with
    peerVersion := JsVal.asString (msg.field (js "version"))
    kernelVersion := JsVal.asString (msg.field (js "kernelVersion"))
    claimedRegion := claimedRegion (JsVal.asString (msg.field (js "nodeId")))
    turnRefreshOnly := JsVal.asString (msg.field (js "intent")) = some (js "turn-refresh") }

/-- The client-hello of a connection that is not admitted. -/
def onClientHello (id : ConnId) (conn : Conn) (msg : JsVal) : Server × Option JsError :=
  let conn := Conn.ofHello conn msg
  let s := s.modifyConn id fun _ => conn
  let verdict := gate cfg msg
  match refusal cfg id msg verdict, verdict with
  | some r, _ => s.refuse cfg io id r
  | none, .passed peerVersion ns floor =>
      let s := s.logInfo cfg (js "client-hello-admitted") [(js "connId", .str id),
        (js "peerVersion", .str peerVersion), (js "ns", .str ns), (js "floor", .str floor),
        (js "minPeerVersion", .str cfg.minPeerVersion)]
      (s.admitConnection cfg io id conn, none)
  | none, _ => (s, none)

/-! ### Graduation -/

def noteGraduated (nh : Option JsString) : Server :=
  match nh with
  | none => s
  | some nh =>
      { s with
        graduatedRecently := s.graduatedRecently.set nh io.now
        registry := s.registry.map fun r => r.note nh io.now }

def graduationCandidates : List (ConnId × Conn) := s.connections.entries.filter fun e => e.2.admitted

/-- The descriptor `selectGraduate` judges a connection by. -/
def describe (e : ConnId × Conn) : GraduationSelect.Candidate where
  id := e.1
  region := s.connRegion e.1
  since := e.2.since
  meshBound := freshMeshBound cfg io e.2
  kernelOk := gteVersion e.2.effectiveVersion cfg.graduationMinKernel
  inCooldown := ((s.connNodeHex e.1).bind fun nh => s.graduatedRecently.get nh).any fun gAt =>
    io.now - gAt < cfg.graduationCooldownMs

/-- A candidate the graduation gate holds back. -/
def heldBack (e : ConnId × Conn) : Bool :=
  !s.introducedOutsideCohort cfg e.1 e.2 && io.now - e.2.since < cfg.graduationMaxNurseryMs

/-- The row of a graduate that was held to the nursery ceiling. -/
def noteCohortOnly (pick : GraduationSelect.Pick) (c : Conn) : Server :=
  if cfg.graduationGateOn ∧ !s.introducedOutsideCohort cfg pick.id c then
    { s with cohortOnlyGraduated := s.cohortOnlyGraduated + 1 }.logInfo cfg
      (js "graduated-cohort-only") [(js "connId", .str pick.id),
        (js "cohort", .int (s.cohortSizeOf cfg c)), (js "uptimeMs", .int (io.now - c.since)),
        (js "basis", .ofString? (pick.basis.map GraduationSelect.Basis.text))]
  else s

/-- Bound the map of cooldowns. -/
def pruneCooldowns : Server :=
  { s with graduatedRecently :=
      if 1000 < s.graduatedRecently.size then
        s.graduatedRecently.filter fun e => io.now - e.2 ≤ cfg.graduationCooldownMs
      else s.graduatedRecently }

/-- Release the picked connection's slot. -/
def graduate (pick : GraduationSelect.Pick) (c : Conn) (admitted : Nat) : Server :=
  let s := s.wsClose io pick.id graduated
    (js "graduated — you are meshed; freeing the bridge slot")
  let s := s.noteGraduated io (s.connNodeHex pick.id)
  let s := { s with lastGraduationAt := io.now, graduatedTotal := s.graduatedTotal + 1 }
  let s := s.logInfo cfg (js "peer-graduated") [(js "connId", .str pick.id),
    (js "uptimeMs", .int (io.now - c.since)), (js "kernelVersion", .ofString? c.kernelVersion),
    (js "region", .ofString? pick.region), (js "meshBound", .ofNat? pick.meshBound),
    (js "basis", .ofString? (pick.basis.map GraduationSelect.Basis.text)),
    (js "admitted", .int admitted)]
  (s.noteCohortOnly cfg io pick c).pruneCooldowns cfg io

def maybeGraduate : Server :=
  if !cfg.nurseryOn then s
  else if io.now - s.lastGraduationAt < cfg.graduationIntervalMs then s
  else
    let admitted := s.graduationCandidates
    if (admitted.length : Int) ≤ cfg.maxPeers + cfg.graduationSlack then s
    else
      let held := if cfg.graduationGateOn then admitted.countP (s.heldBack cfg io) else 0
      let gated := if cfg.graduationGateOn then admitted.filter fun e => !s.heldBack cfg io e else admitted
      let s := { s with gateHeldTotal := s.gateHeldTotal + held }
      match GraduationSelect.selectGraduate
          { now := io.now, safeFloor := cfg.graduationSafeFloor,
            minUptimeMs := cfg.graduationMinUptimeMs,
            maxNurseryMs := cfg.graduationMaxNurseryMs } (gated.map (s.describe cfg io)) with
      | none => s
      | some pick =>
          match s.connections.get pick.id with
          | none => s
          | some c => s.graduate cfg io pick c admitted.length

/-- Rule 4: release the socket of a bound door channel on a fresh and sufficient report. -/
def maybeCloseBootstrapSocket (connId : ConnId) : Bool × Server :=
  match s.connections.get connId with
  | none => (false, s)
  | some c =>
      let mb := freshMeshBound cfg io c
      if cfg.node.sb.isSome ∧ c.admitted ∧ connId ∈ s.node.doorChannelBound ∧
          mb.any (fun m => cfg.graduationSafeFloor ≤ m) ∧
          gteVersion c.effectiveVersion cfg.graduationMinKernel then
        let s := s.wsClose io connId graduated
          (js "bootstrap complete — your channel to this bridge is bound; freeing the socket")
        let s := s.noteGraduated io (s.connNodeHex connId)
        let s := { s with bootstrapSocketsClosed := s.bootstrapSocketsClosed + 1 }
        let s := s.logDebug cfg (js "axona:door-socket-released") [(js "connId", .str connId)]
        (true, s.logInfo cfg (js "socket-released-bootstrap") [(js "connId", .str connId),
          (js "uptimeMs", .int (io.now - c.since)), (js "meshBound", .int (mb.getD 0)),
          (js "kernelVersion", .ofString? c.kernelVersion)])
      else (false, s)

/-! ### Frames of an admitted connection -/

def onPeerListRequest (id : ConnId) (conn : Conn) : Server :=
  let peers := s.withReserved cfg conn (s.admittedOthers id)
  let r := s.sendPeerList cfg io id conn peers
  r.2.logInfo cfg (js "peer-list-rerequest") [(js "connId", .str id),
    (js "peers", .int peers.length), (js "graduated", .int r.1.length)]

/-- The mesh size a ping carries, where it is a non-negative integer. -/
def reportedMeshBound (msg : JsVal) : Option Nat :=
  match msg.field (js "meshBound") with
  | some (.num (.fin q)) => if q.den = 1 ∧ 0 ≤ q.num then some q.num.toNat else none
  | _ => none

/-- The pong is serialized without the replacer, so that a `BigInt` in `t` fails it. -/
def sendPong (id : ConnId) (msg : JsVal) : Server :=
  let t := msg.field (js "t")
  if t.any JsVal.hasBigInt then
    s.logErr cfg (js "pong-send-failed") [(js "connId", .str id),
      (js "err", .str (js "Do not know how to serialize a BigInt"))]
  else
    let r := s.wsSend io id (.pong t io.now)
    if r.1 then
      let s := r.2.modifyConn id fun c => { c with pongs := c.pongs + 1 }
      s.logDebug cfg (js "pong") [(js "connId", .str id)]
    else s.logErr cfg (js "pong-send-failed") [(js "connId", .str id),
      (js "err", .str ((io.sendError id).getD []))]

def onPing (id : ConnId) (msg : JsVal) : Server :=
  let s := s.modifyConn id fun c => { c with pings := c.pings + 1 }
  match reportedMeshBound msg with
  | none => s.sendPong cfg io id msg
  | some m =>
      let s := s.modifyConn id fun c => { c with meshBound := some m, meshBoundAt := io.now }
      let r := s.maybeCloseBootstrapSocket cfg io id
      if r.1 then r.2 else r.2.sendPong cfg io id msg

def onTurnRefresh (id : ConnId) : Server :=
  let turn := makeTurnCredential cfg io
  let s := match turn with
    | some turn => (s.sendTo cfg io id (.turn turn io.now)).2
    | none => s
  s.logDebug cfg (js "turn-refresh") [(js "connId", .str id), (js "minted", .bool turn.isSome)]

def onAxona (id : ConnId) (msg : JsVal) : Server × Option JsError :=
  match msg.field (js "payload") with
  | some payload =>
      if payload.isObject then
        let r := s.node.handleAxonaFrame cfg.node io.kernel s.isConnOpen id payload
        (s.withNode cfg io (r.1, r.2.1), r.2.2)
      else (s, none)
  | none => (s, none)

/-- `x | 0` -/
def toInt32 (x : Int) : Int := (x + 2 ^ 31) % 2 ^ 32 - 2 ^ 31

/-- What the meter makes of a relay attempt. -/
inductive Metered where
  | relay
  | drop (logged : Bool)
  deriving DecidableEq

/-- Open a meter window where none is open. -/
def openWindow (conn : Conn) : Conn :=
  if conn.sigWinStart.all fun start => start = 0 ∨ cfg.signalWindowMs ≤ io.now - start then
    { conn with sigWinStart := some io.now, sigWinCount := 0, sigWinLogged := false }
  else conn

/-- The per-socket meter, with the connection after the attempt was counted. -/
def meter (conn : Conn) : Metered × Conn :=
  let conn := openWindow cfg io conn
  let conn := { conn with sigWinCount := toInt32 conn.sigWinCount + 1 }
  if cfg.signalRate < conn.sigWinCount then
    (.drop !conn.sigWinLogged, { conn with
      signalsRateLimited := toInt32 conn.signalsRateLimited + 1
      sigWinLogged := true })
  else (.relay, conn)

/-- A signal to a present connection goes out under the sender's id. -/
def relaySignal (id dest : ConnId) (payload : Option JsVal) : Server :=
  let r := s.sendTo cfg io dest (.signal id payload)
  if r.1 then
    let s := r.2.modifyConn id fun c => { c with signalsRelayed := c.signalsRelayed + 1 }
    s.logDebug cfg (js "signal-relay") [(js "from", .str id), (js "to", .str dest)]
  else r.2

/-- The relay of a signal to a present connection, metered. -/
def meteredRelay (id : ConnId) (conn : Conn) (dest : ConnId) (payload : Option JsVal) : Server :=
  if cfg.signalRate ≤ 0 then s.relaySignal cfg io id dest payload
  else
    let m := meter cfg io conn
    let s := s.modifyConn id fun _ => m.2
    match m.1 with
    | .relay => s.relaySignal cfg io id dest payload
    | .drop logged =>
        let s := { s with signalRateLimitedTotal := s.signalRateLimitedTotal + 1 }
        if logged then s.logInfo cfg (js "signal-rate-limited") [(js "connId", .str id),
          (js "limit", .int cfg.signalRate), (js "windowMs", .int cfg.signalWindowMs),
          (js "dropped", .int 1)]
        else s

def onSignal (id : ConnId) (conn : Conn) (msg : JsVal) : Server :=
  match JsVal.asString (msg.field (js "to")) with
  | none => s.logErr cfg (js "signal-missing-to") [(js "connId", .str id)]
  | some dest =>
      let payload := msg.field (js "payload")
      let door := if conn.admitted ∧ cfg.node.isReservedId dest then
          s.node.deliverDoorSignal cfg.node io.kernel io.now id payload
        else (false, s.node, [])
      if door.1 then s.withNode cfg io door.2
      else if !s.connections.has dest then
        s.logDebug cfg (js "signal-drop-unknown-to") [(js "connId", .str id), (js "to", .str dest)]
      else s.meteredRelay cfg io id conn dest payload

/-- The switch over the type of a frame of an admitted connection. -/
def onFrame (id : ConnId) (conn : Conn) (msg : JsVal) : Server × Option JsError :=
  let type := msg.field (js "type")
  let name := JsVal.asString type
  if name = some (js "peer-list-request") then (s.onPeerListRequest cfg io id conn, none)
  else if name = some (js "ping") then (s.onPing cfg io id msg, none)
  else if name = some (js "turn-refresh") then (s.onTurnRefresh cfg io id, none)
  else if name = some (js "axona") then s.onAxona cfg io id msg
  else if name = some (js "signal") then (s.onSignal cfg io id conn msg, none)
  else s.tryLog cfg .debug (js "unknown-type")
    ((js "connId", .str id) :: (type.map fun type => (js "type", type)).toList)

/-- What arrives on a socket: bytes, or text with what plain `JSON.parse` makes of it. -/
inductive Inbound where
  | binary (bytes : Nat)
  | text (parsed : Except JsString JsVal)

/-- `ws.on('message')` -/
def onMessage (id : ConnId) (data : Inbound) : Server × Option JsError :=
  match s.connections.get id with
  | none => (s, none)
  | some conn =>
      let conn := { conn with lastSeenAt := io.now }
      let s := s.modifyConn id fun _ => conn
      match data with
      | .binary bytes =>
          (s.logDebug cfg (js "binary-dropped") [(js "connId", .str id), (js "bytes", .int bytes)],
            none)
      | .text (.error err) =>
          (s.logErr cfg (js "bad-json") [(js "connId", .str id), (js "err", .str err)], none)
      | .text (.ok json) =>
          let msg := json.revive
          match JsVal.read (some msg) (js "type") with
          | .error e => (s, some e)
          | .ok type =>
              if conn.admitted then s.onFrame cfg io id conn msg
              else if JsVal.asString type ≠ some (js "client-hello") then
                s.tryLog cfg .debug (js "pre-hello-message-dropped")
                  ((js "connId", .str id) :: (type.map fun type => (js "type", type)).toList)
              else s.onClientHello cfg io id conn msg

/-! ### Connections come and go -/

/-- `wss.on('connection')`, for the id the counter mints. -/
def onConnection (id : ConnId) : Server :=
  let conn : Conn := { since := io.now, lastSeenAt := io.now, helloTimer := true }
  let s := { s with connections := s.connections.set id conn }
  let s := s.logInfo cfg (js "connect") [(js "connId", .str id), (js "total", .int s.connections.size)]
  (s.sendTo cfg io id (.versionGate cfg.minPeerVersion io.now)).2

def stallTaintedSince (sinceTs : Int) : Bool := sinceTs ≤ s.lastStallEndAt

/-- `STALL_SAMPLE_MS` and `STALL_MIN_MS` -/
def stallPending : Bool := 2000 ≤ io.now - s.lastHeartbeatAt - 1000

def onHelloTimeout (id : ConnId) : Server :=
  match s.connections.get id with
  | none => s
  | some conn =>
      if conn.admitted then s
      else if !conn.helloRetried && (s.stallTaintedSince conn.since || s.stallPending io) then
        let s := s.modifyConn id fun c => { c with helloRetried := true }
        s.logInfo cfg (js "client-hello-grace")
          [(js "connId", .str id), (js "stallMs", .int s.lastStallMs)]
      else
        let s := s.modifyConn id fun c => { c with helloTimer := false }
        let s := s.logErr cfg (js "client-hello-timeout")
          [(js "connId", .str id), (js "ms", .int cfg.helloTimeoutMs)]
        s.wsClose io id helloTimeoutCode
          (js "client-hello not received within " ++ intToString 10 cfg.helloTimeoutMs ++ js "ms")

/-- The release timer of a credential-only socket fires. -/
def onTurnRelease (id : ConnId) : Server :=
  if s.connections.has id then
    let s := s.modifyConn id fun c => { c with releaseTimer := false }
    s.wsClose io id graduated (js "turn credential refreshed — returning to graduated")
  else s

/-- The identity the close handler puts into `peer-left`. -/
def departedNodeId (id : ConnId) : Option JsString := s.connNodeHex id

/-- `ws.on('close')` -/
def onClose (id : ConnId) (code : Nat) (reason : JsString) : Server :=
  match s.connections.get id with
  | none => s
  | some conn =>
      let departed := s.departedNodeId id
      let s := { s with
        connections := s.connections.delete id
        node := s.node.handleConnClosed cfg.node io.kernel id }
      let notified := s.broadcast cfg io (.peerLeft id departed io.now) none
      notified.2.logInfo cfg (js "disconnect") [(js "connId", .str id),
        (js "nodeId", .ofString? (departed.map fun nodeId => nodeId.take 12)),
        (js "code", .int code), (js "reason", .str reason),
        (js "lifeS", .int ((io.now - conn.since) / 1000)), (js "pings", .int conn.pings),
        (js "pongs", .int conn.pongs), (js "signals", .int conn.signalsRelayed),
        (js "notified", .int notified.1), (js "remaining", .int s.connections.size)]

/-! ### The heartbeat and the sweep -/

def onHeartbeat : Server :=
  let lag := io.now - s.lastHeartbeatAt - 1000
  let s := { s with lastHeartbeatAt := io.now }
  if 2000 ≤ lag then
    { s with
      stallCount := s.stallCount + 1
      lastStallMs := lag
      lastStallEndAt := io.now
      maxStallMs := max s.maxStallMs lag }.logErr cfg (js "loop-stall")
        [(js "lagMs", .int lag), (js "connections", .int s.connections.size)]
  else s

def isIdle (e : ConnId × Conn) : Bool := cfg.idleTimeoutMs < io.now - e.2.lastSeenAt

/-- Admitted, past the deadline, and without an identity. -/
def isUnbound (e : ConnId × Conn) : Bool :=
  0 < cfg.unboundKickMs && e.2.admitted && cfg.unboundKickMs < io.now - e.2.since &&
    (s.node.transport.nodeIdByConnId.get e.1).all fun nodeId => nodeId = 0

def kickUnbound (e : ConnId × Conn) : Server :=
  let s := { s with unboundKicked := s.unboundKicked + 1 }.logInfo cfg (js "unbound-kick")
    [(js "connId", .str e.1), (js "ageMs", .int (io.now - e.2.since)),
      (js "peerVersion", .ofString? e.2.peerVersion), (js "pongs", .int e.2.pongs)]
  let reason :=
    js "no identity bound within " ++ intToString 10 cfg.unboundKickMs ++ js " ms of admission"
  let s := s.wsClose io e.1 unauthenticated reason
  if closeThrows io e.1 reason then s.logErr cfg (js "unbound-kick-close-failed") [(js "connId", .str e.1)]
  else s

def kickIdle (e : ConnId × Conn) : Server :=
  let s := s.logInfo cfg (js "idle-kick") [(js "connId", .str e.1),
    (js "idleMs", .int (io.now - e.2.lastSeenAt)), (js "lastPings", .int e.2.pings)]
  { s with out := s.out ++ [.terminate e.1] }

def sweepIdleConnections : Server :=
  if s.stallTaintedSince (io.now - cfg.idleTimeoutMs) || s.stallPending io then
    s.logInfo cfg (js "idle-sweep-skipped")
      [(js "reason", .str (js "loop-stall")), (js "stallMs", .int s.lastStallMs)]
  else
    let toKick := s.connections.entries.filter (isIdle cfg io)
    let unbound := s.connections.entries.filter fun e => !isIdle cfg io e && s.isUnbound cfg io e
    let s := unbound.foldl (fun s e => s.kickUnbound cfg io e) s
    toKick.foldl (fun s e => s.kickIdle cfg io e) s

end Server

end AxonaBridge
