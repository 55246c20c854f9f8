import AxonaBridge.Runs
import AxonaBridge.ServerModel

/-!
# The bridge

The server and its node under every interleaving of what can happen to them: sockets that open, send
and close, timers that fire, asynchronous work that completes, and the kernel acting of its own
accord. `everAdmitted` remembers the connections the server has admitted so far, which the program
does not.
-/

open JsText

namespace AxonaBridge

inductive Event where
  | connect (connId : ConnId)
  | message (connId : ConnId) (data : Server.Inbound)
  | closed (connId : ConnId) (code : Nat) (reason : JsString)
  | helloTimeout (connId : ConnId)
  | turnRelease (connId : ConnId)
  | maybeGraduate
  | heartbeat
  | sweep
  | requestTimeout (promise : Nat)
  | helloBuilt (i : Nat) (hello : Except JsString JsVal)
  | verified (i : Nat) (res : Node.AuthResult)
  | ackBuilt (i : Nat) (ack : Except JsString JsVal)
  | answered (i : Nat) (ok : Bool) (body : Option JsVal)
  | kernel (act : KernelAct)
  | meshUp
  | doorSink (key : JsString) (payload : JsVal)
  | doorBind (nodeId : NodeId) (token : JsString) (input : Node.BindInput)
  | routeToDoor (nodeId : NodeId) (token : JsString)

/-- The id the counter mints: `` `c${seq.toString(36)}` ``. -/
def mintConnId (seq : Nat) : ConnId := 99 :: natToString 36 seq

namespace Server

variable (cfg : Config)

def step (s : Server) (io : Io) : Event → Server
  | .connect connId => s.onConnection cfg io connId
  | .message connId data => (s.onMessage cfg io connId data).1
  | .closed connId code reason => s.onClose cfg io connId code reason
  | .helloTimeout connId => s.onHelloTimeout cfg io connId
  | .turnRelease connId => s.onTurnRelease io connId
  | .maybeGraduate => s.maybeGraduate cfg io
  | .heartbeat => s.onHeartbeat cfg io
  | .sweep => s.sweepIdleConnections cfg io
  | .requestTimeout promise =>
      { s with node := { s.node with transport := s.node.transport.timeout promise } }
  | .helloBuilt i hello => s.withNode cfg io (s.node.helloBuilt i hello)
  | .verified i res => s.withNode cfg io (s.node.verified cfg.node io.kernel i res)
  | .ackBuilt i ack => s.withNode cfg io (s.node.ackBuilt i ack)
  | .answered i ok body => s.withNode cfg io (s.node.answered i ok body)
  | .kernel act => s.withNode cfg io (s.node.act s.isConnOpen act)
  | .meshUp => { s with node := { s.node with mesh := true } }
  | .doorSink key payload =>
      s.withNode cfg io (s.node, Node.doorSink cfg.node s.isConnOpen key payload)
  | .doorBind nodeId token input =>
      s.withNode cfg io (s.node.bindPolicy cfg.node io.now input nodeId token).2
  | .routeToDoor nodeId token => s.withNode cfg io (s.node.onRouteToDoor cfg.node nodeId token)

/-- The connection is in the table and admitted. -/
def IsAdmitted (s : Server) (connId : ConnId) : Prop :=
  ∃ conn, s.connections.get connId = some conn ∧ conn.admitted = true

def admittedIds (s : Server) : List ConnId := s.graduationCandidates.map Prod.fst

theorem mem_admittedIds {s : Server} {connId : ConnId} :
    connId ∈ s.admittedIds ↔ s.IsAdmitted connId := by
  simp only [admittedIds, graduationCandidates, List.mem_map, List.mem_filter, Prod.exists,
    exists_and_right, exists_eq_right, JsMap.mem_entries_iff]
  rfl

end Server

structure Bridge where
  server : Server
  connSeq : Nat := 0
  everAdmitted : List ConnId := []

namespace Bridge

variable (cfg : Config)

def step (b : Bridge) (e : Io × Event) : Bridge :=
  let server := b.server.step cfg e.1 e.2
  { server
    connSeq := match e.2 with
      | .connect _ => b.connSeq + 1
      | _ => b.connSeq
    everAdmitted := b.everAdmitted ++ server.admittedIds }

/-- What the mesh answers goes to a connection whose signals it was handed. -/
def SinkEnabled (b : Bridge) (key : JsString) : Prop :=
  ∀ connId, cfg.node.ownDoorKey key = some connId → connId ∈ b.server.node.negotiated

/-- When each event can happen. The mesh binds and routes door keys only once it is up, and only the
keys it was handed signals under. -/
def Enabled (b : Bridge) (e : Io × Event) : Prop :=
  match e.2 with
  | .connect connId => connId = mintConnId (b.connSeq + 1)
  | .message connId _ => b.server.connections.has connId = true
  | .closed connId _ _ => b.server.connections.has connId = true
  | .helloTimeout connId => ∃ conn, b.server.connections.get connId = some conn ∧ conn.helloTimer = true
  | .turnRelease connId => ∃ conn, b.server.connections.get connId = some conn ∧ conn.releaseTimer = true
  | .requestTimeout promise => ∃ timer ∈ b.server.node.transport.timers, timer.1 = promise
  | .doorSink key _ => b.SinkEnabled cfg key
  | .doorBind _ token _ => b.SinkEnabled cfg token
  | .routeToDoor _ token => b.SinkEnabled cfg token
  | _ => True

/-- The node as `start()` leaves it. -/
def initNode (reportBound : Bool) : Node where
  transport := { reportBound, started := true }
  sbBudget := { perMin := (cfg.node.sb.getD {}).makeRoomPerMin }
  sbRetired := { cooldownMs := (cfg.node.sb.getD {}).cooldownMs }

/-- The bridge when it starts to listen. -/
def init (reportBound : Bool) : Bridge where
  server := {
    node := initNode cfg reportBound
    registry := cfg.graduatedSample.map fun sample => { lRegMs := sample.lRegMs, mReg := sample.mReg }
    lastHeartbeatAt := cfg.loadedAt }

/-- What the clock reads at an event. -/
def time (e : Io × Event) : Int := e.1.now

def system (reportBound : Bool) : System Bridge (Io × Event) where
  init := init cfg reportBound
  enabled := Enabled cfg
  step := step cfg

end Bridge

end AxonaBridge
