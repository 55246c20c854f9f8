import AxonaBridge.DirectoryFeed
import AxonaBridge.FillArming
import AxonaBridge.NodeIdentity

/-!
# The process comes to listen

From the environment to `httpServer.listen`: the settings that `server.js` and the constructor of
`bridge_axona_node.js` read, `start` with the identity that has to be minted in its region and the modules
that have to land on the peer, and what `StartUp` makes of the rest. A process listens with one cap, or it
does not listen.
-/

open JsText

namespace AxonaBridge

namespace Boot

/-! ### The settings -/

/-- What the process reads of its environment before it comes up. -/
structure Env where
  graduated : GraduatedSample.Env := {}
  /-- `BRIDGE_COHORT_MS` -/
  cohortMs : Option JsString := none
  fill : FillArming.Env := {}
  socketBootstrap : SocketBootstrap.Env := {}
  /-- `BRIDGE_REGION` -/
  region : Option JsString := none

structure Settings where
  graduatedSample : Option SampleConfig
  cohortMs : JsNum
  arming : FillArming.Arming
  sb : Option SocketBootstrap.Resolved

/-- `COHORT_MS`, which asks no safe integer of what it reads. -/
def cohortMs (raw : Option JsString) : Except JsString JsNum :=
  match raw with
  | none => .ok (.fin 60000)
  | some raw =>
      if isDigits raw = false ∨ parseInt raw ≤ .fin 0 then .error (refusedNumber (js "BRIDGE_COHORT_MS") raw)
      else .ok (parseInt raw)

/-- What the node runs with. A cap that is finite is an integer, and one that is not bounds nothing. -/
def Settings.node (s : Settings) (id : NodeId) (epoch : JsString) : NodeConfig where
  id := id
  epoch := epoch
  sb := s.sb.map SocketBootstrap.Resolved.config
  cap := match s.arming.meshCap with
    | .fin q => ⌊q⌋
    | _ => 0

/-- What the uplink runs with. -/
def Settings.uplink (env : Env) (s : Settings) : Uplink.Config where
  env := env.fill.uplink
  sb := s.sb.isSome
  meshCap := some s.arming.meshCap

/-! ### The peer -/

/-- What the kernel does for `start`; an error is the message it throws. -/
structure Kernel (μ γ : Type) where
  /-- `createNodeIdentity`, at the coordinates of the environment and in the region that is asked for: the id
  it mints -/
  createNodeIdentity : Option JsString → Except JsString JsString
  /-- The node, its transports and its peer, which is started -/
  startPeer : BridgeIdentity → FillArming.Options → Except JsString (FillArming.Peer μ γ)
  /-- `axonaManagerFor`, what it starts, and its log -/
  mountAxon : Except JsString Unit

/-- `_directoryFeed`, which only a peer that fills has. -/
def directoryFeed (arming : FillArming.Arming) (identity : BridgeIdentity) :
    Except JsString (Option (DirectoryFeed Unit)) :=
  if arming.armed then (DirectoryFeed.create identity.idHex false R_SAMPLE).map some else .ok none

/-- `effective`, where a module is asked for. -/
def effectiveModules {μ γ : Type} (arming : FillArming.Arming) (peer : FillArming.Peer μ γ) :
    Except JsString (Option (FillArming.Effective μ γ)) :=
  if arming.armedEnvs ≠ [] then (FillArming.assertArmedModules peer arming.armedEnvs).map some else .ok none

/-- `start` of `bridge_axona_node.js`. -/
def start {μ γ : Type} (env : Env) (s : Settings) (k : Kernel μ γ) : Except JsString BridgeIdentity := do
  let identity ← BridgeIdentity.loadOrDerive env.region k.createNodeIdentity
  let _ ← directoryFeed s.arming identity
  let peer ← k.startPeer identity s.arming.options
  let _ ← effectiveModules s.arming peer
  k.mountAxon
  return identity

section Boot

variable {env : Env} {s : Settings}

end Boot

end Boot

end AxonaBridge
