import AxonaBridge.StartUp
import AxonaBridge.StrictSettings

/-!
# One cap

`fill_arming.js`: whether the embedded peer fills, and toward which cap. The cap goes two ways, to the
fill and to the degree of the mesh that the uplink joins. Then the process from its environment to
`httpServer.listen`, which no setting that is refused and no module that did not land lets through.
-/

open JsText

namespace AxonaBridge

namespace FillArming

/-! ### Arming -/

/-- `BRIDGE_ARM_ENVS` -/
inductive ArmEnv where
  | synaptomeMaintain
  | attemptGuard
  | admissionGate
  deriving DecidableEq

namespace ArmEnv

def all : List ArmEnv := [synaptomeMaintain, attemptGuard, admissionGate]

def text : ArmEnv → JsString
  | synaptomeMaintain => js "BRIDGE_SYNAPTOME_MAINTAIN"
  | attemptGuard => js "BRIDGE_ATTEMPT_GUARD"
  | admissionGate => js "BRIDGE_ADMISSION_GATE"

end ArmEnv

/-- What the process reads of its environment to arm the peer, and for its uplink. -/
structure Env where
  arm : ArmEnv → Option JsString := fun _ => none
  uplink : Uplink.Env := {}

structure SynaptomeMaintain where
  kNear : Nat := 5
  intervalMs : Nat := 15000
  maxPerTick : Nat := 3

structure AdmissionGate where
  kNear : Nat := 5
  sparseFloor : Nat := 2
  kJoin : Nat := 2
  laneCooldownMs : Nat := 5000
  laneWindowMs : Nat := 300000

structure AttemptGuard where
  maxAttempts : Nat := 4
  baseMs : Nat := 30000
  factor : Nat := 2
  refillWindowMs : Nat := 60000
  deficitBaseMs : Nat := 30000
  deficitFactor : Nat := 2

/-- The options the peer is built with. -/
structure Options where
  synaptomeMaintain : Option SynaptomeMaintain := none
  admissionGate : Option AdmissionGate := none
  attemptGuard : Option AttemptGuard := none

structure Arming where
  armedEnvs : List ArmEnv
  armed : Bool
  options : Options
  cap : Option Nat
  meshCap : JsNum

def legacyMeshCap (env : Uplink.Env) : JsNum :=
  let wsCap := parseInt (env.maxPeers.getD (js "32"))
  let meshCap := parseInt (env.meshMaxPeers.getD wsCap.toString)
  match Uplink.positive meshCap with
  | some n => .fin n
  | none => .fin 0

/-- What the kernel has built of the options on its peer. -/
structure Peer (μ γ : Type) where
  /-- `_maintainCfg` -/
  maintainCfg : Option μ := none
  /-- `_gateCfg` -/
  gateCfg : Option γ := none
  /-- `_attemptGuard` -/
  attemptGuard : Option AttemptGuard := none

/-- The module the variable asks for is on the peer. -/
def Peer.landed {μ γ : Type} (peer : Peer μ γ) : ArmEnv → Bool
  | .synaptomeMaintain => peer.maintainCfg.isSome
  | .admissionGate => peer.gateCfg.isSome
  | .attemptGuard => peer.attemptGuard.isSome

/-- The name of the option the variable sets. -/
def ArmEnv.option : ArmEnv → JsString
  | .synaptomeMaintain => js "synaptomeMaintain"
  | .admissionGate => js "admissionGate"
  | .attemptGuard => js "attemptGuard"

/-- `effective` of `assertArmedModules`; of the guard, the four fields that are copied. -/
structure Effective (μ γ : Type) where
  synaptomeMaintain : Option μ
  admissionGate : Option γ
  attemptGuard : Option (Nat × Nat × Nat × Nat)

def assertArmedModules {μ γ : Type} (peer : Peer μ γ) (armedEnvs : List ArmEnv) :
    Except JsString (Effective μ γ) :=
  let missing := [ArmEnv.synaptomeMaintain, .admissionGate, .attemptGuard].filter fun e =>
    e ∈ armedEnvs ∧ peer.landed e = false
  if missing = [] then
    .ok
      { synaptomeMaintain := if .synaptomeMaintain ∈ armedEnvs then peer.maintainCfg else none
        admissionGate := if .admissionGate ∈ armedEnvs then peer.gateCfg else none
        attemptGuard := if .attemptGuard ∈ armedEnvs then peer.attemptGuard.map fun guard =>
          (guard.maxAttempts, guard.baseMs, guard.factor, guard.refillWindowMs) else none }
  else
    .error (js "arming refused: requested module(s) did not land on the peer: " ++
      joinComma (missing.map ArmEnv.option) ++
      js ". The pinned kernel accepted the option name(s) without building the machinery — do not serve in this state.")

/-! ### What is resolved -/

/-- The variable arms. -/
def Env.IsArmed (env : Env) (e : ArmEnv) : Prop := env.arm e = some (js "1")

/-- Maintenance goes with the guard and the gate. -/
def Env.IsCoherent (env : Env) : Prop :=
  env.IsArmed .synaptomeMaintain → env.IsArmed .attemptGuard ∧ env.IsArmed .admissionGate

/-- The cap of a peer that fills is the number that is written; any other peer has none, and its mesh
the cap it always had. -/
def CapOf (env : Env) (a : Arming) : Prop :=
  if a.armed then ∃ raw n, env.uplink.meshMaxPeers = some raw ∧ Writes raw n ∧ a.cap = some n ∧
    a.meshCap = .fin n
  else a.cap = none ∧ a.meshCap = legacyMeshCap env.uplink

structure ResolvedFrom (env : Env) (a : Arming) : Prop where
  coherent : env.IsCoherent
  envs : ∀ e, e ∈ a.armedEnvs ↔ env.IsArmed e
  armed : a.armed = true ↔ ∀ e, env.IsArmed e
  maintain : a.options.synaptomeMaintain.isSome ↔ env.IsArmed .synaptomeMaintain
  gate : a.options.admissionGate.isSome ↔ env.IsArmed .admissionGate
  guard : a.options.attemptGuard.isSome ↔ env.IsArmed .attemptGuard
  cap : CapOf env a

/-- What is refused: maintenance without the guard or the gate, and the three of them without a number. -/
def Refuses (env : Env) : Prop :=
  ¬env.IsCoherent ∨ (∀ e, env.IsArmed e) ∧ ∀ raw n, env.uplink.meshMaxPeers = some raw → ¬Writes raw n

section Resolver

variable {env : Env}

end Resolver

end FillArming

/-! ### The cap of the mesh -/

namespace Uplink

/-- The two bound the mesh alike. -/
structure SameCap (cfg cfg' : Config) : Prop where
  env : cfg.env = cfg'.env
  sb : cfg.sb = cfg'.sb
  cap : positive (meshCap cfg) = positive (meshCap cfg')

section SameCap

variable {cfg cfg' : Config}

theorem poolsFromEnv_congr {env : Env} {cap cap' wsCap : JsNum} (h : positive cap = positive cap') :
    poolsFromEnv env cap wsCap = poolsFromEnv env cap' wsCap := by
  unfold poolsFromEnv
  rw [h]

/-- The cap reaches the uplink through its positive part alone. -/
theorem SameCap.buildUplink (h : SameCap cfg cfg') : buildUplink cfg = buildUplink cfg' := by
  obtain ⟨env, sb, cap⟩ := cfg
  obtain ⟨env', sb', cap'⟩ := cfg'
  obtain ⟨rfl, rfl, hcap⟩ := h
  funext w book selfUrl
  unfold Uplink.buildUplink degreeFields
  dsimp only [wsCap]
  rw [poolsFromEnv_congr hcap, hcap]

theorem SameCap.startUplink (h : SameCap cfg cfg') : startUplink cfg = startUplink cfg' := by
  have hbuild := h.buildUplink
  obtain ⟨env, sb, cap⟩ := cfg
  obtain ⟨env', sb', cap'⟩ := cfg'
  obtain ⟨rfl, rfl, -⟩ := h
  funext w uplink book selfUrl
  unfold Uplink.startUplink
  rw [hbuild]
  rfl

theorem SameCap.startUp (h : SameCap cfg cfg') : startUp cfg = startUp cfg' := by
  have hstart := h.startUplink
  obtain ⟨env, sb, cap⟩ := cfg
  obtain ⟨env', sb', cap'⟩ := cfg'
  obtain ⟨rfl, rfl, -⟩ := h
  funext w
  unfold Uplink.startUp isolationGate
  rw [hstart]
  rfl

end SameCap

/-! ### What is dialled -/

section Dialled

variable {cfg : Config} {w : World} {book : Option Book} {options : TransportOptions}

end Dialled

end Uplink

end AxonaBridge
