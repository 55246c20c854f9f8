import AxonaBridge.UplinkPolicy

/-!
# The bridge comes up

`buildUplink` of `uplink.js`, `startUplink` of `bridge_axona_node.js` and the part of `server.js` from
the book of known bridges to `httpServer.listen`, with the isolation gate in it. What happens on the
way is a list of effects; what the kernel and the other bridges make of it is given.
-/

open JsText

namespace AxonaBridge

/-- A list of strings. -/
def LogVal.ofStrings (ss : List JsString) : LogVal :=
  .json (.arr (ss.map .str)) (by
    induction ss with
    | nil => rfl
    | cons s ss ih => exact ih)

namespace Uplink

/-! ### The pools -/

def isLetter (u : UInt16) : Bool := (65 ≤ u && u ≤ 90) || (97 ≤ u && u ≤ 122)

/-- `/^\s*([A-Za-z]+)\s*=\s*(-?\d+)\s*$/` -/
def parsePool (part : JsString) : Option (JsString × JsNum) :=
  let s := part.dropWhile isSpace
  let key := s.takeWhile isLetter
  match (s.dropWhile isLetter).dropWhile isSpace with
  | 61 :: s =>
      let s := s.dropWhile isSpace
      let sign := s.takeWhile (· = 45)
      let s := s.dropWhile (· = 45)
      let digits := s.takeWhile isDigit
      if key = [] ∨ 1 < sign.length ∨ digits = [] ∨ (s.dropWhile isDigit).any fun u => !isSpace u then none
      else some (key, parseInt (sign ++ digits))
  | _ => none

def poolNames : List JsString :=
  [js "M", js "I", js "H", js "pPending", js "cInbound", js "serveFloor", js "promoteMs",
    js "hostBudget", js "doorSockets"]

/-- The start of a refusal of `BRIDGE_MESH_POOLS`. -/
def refusedPools (raw why : JsString) : JsString :=
  js "arming refused: BRIDGE_MESH_POOLS " ++ raw ++ why

/-- The number, where it is finite and positive. -/
def positive : JsNum → Option ℚ
  | .fin q => if 0 < q then some q else none
  | _ => none

/-- The loop of `poolsFromEnv` over the parts. -/
def readPools (raw : JsString) (out : JsMap JsString JsNum) :
    List JsString → Except JsString (JsMap JsString JsNum)
  | [] => .ok out
  | part :: parts =>
      match parsePool part with
      | none => .error (refusedPools (quote raw)
          (js " is not a comma list of NAME=integer (got " ++ quote part ++ js ")"))
      | some (key, n) =>
          if key ∈ poolNames then readPools raw (out.set key n) parts
          else .error (refusedPools (js "names ") (quote key ++ js ", which the profile does not have"))

def poolsFromEnv (env : Env) (meshCap wsCap : JsNum) : Except JsString (Option (JsMap JsString JsNum)) :=
  match env.meshPools with
  | none => .ok none
  | some raw =>
      if trim raw = [] then .ok none
      else
        match readPools raw JsMap.empty (split raw 44) with
        | .error err => .error err
        | .ok out =>
            match out.get (js "M"), out.get (js "I") with
            | some m, some _ =>
                let cap := (positive meshCap).getD 0
                if 0 < cap ∧ m ≠ .fin cap then
                  .error (refusedPools (js "M=") (m.toString ++
                    js " but the mesh cap (BRIDGE_MESH_MAX_PEERS / BRIDGE_MAX_PEERS) is " ++
                    (JsNum.fin cap).toString ++ js " — one cap, one source"))
                else
                  .ok (some (if (out.get (js "doorSockets")).isNone ∧ (positive wsCap).isSome then
                    out.set (js "doorSockets") wsCap else out))
            | _, _ => .error (refusedPools (quote raw) (js " must name M and I"))

/-! ### The uplink -/

/-- What the uplink finds outside the bridge. -/
structure World where
  probe : Probe
  /-- The message of an import of `uplink.js` that fails. -/
  importError : Option JsString := none
  /-- The message `webTransport` throws. -/
  transportError : Option JsString := none
  /-- The surfaces that the kernel lacks for socket-is-bootstrap. -/
  missingKernelSurfaces : List JsString := []
  /-- The message the transport's `start` fails with. -/
  startError : Option JsString := none
  /-- The message `addSubtransport` throws. -/
  addError : Option JsString := none
  /-- The message that wiring the door's mesh throws. -/
  wireError : Option JsString := none

/-- What is fixed before the bridge comes up. -/
structure Config where
  env : Env := {}
  /-- Socket-is-bootstrap is on. -/
  sb : Bool := false
  /-- The cap `fill_arming.js` has resolved. -/
  meshCap : Option JsNum := none

/-- What `buildUplink` answers: the transport, without an upstream where it is mesh-only. -/
structure Built where
  upstream : Option JsString

variable (cfg : Config) (w : World)

def wsCap : JsNum := parseInt (cfg.env.maxPeers.getD (js "32"))

def meshCap : JsNum :=
  cfg.meshCap.getD (parseInt (cfg.env.meshMaxPeers.getD (wsCap cfg).toString))

/-- `{ cap: Number.isFinite(meshCap) && meshCap > 0 ? meshCap : 0, wsCap }` -/
def degreeFields : List (JsString × LogVal) :=
  [(js "cap", .json (.num (.fin ((positive (meshCap cfg)).getD 0))) rfl),
    (js "wsCap", .json (.num (wsCap cfg)) rfl)]

def poolsRow (pools : Option (JsMap JsString JsNum)) (enforce : Bool) : Effect :=
  let enforced : JsString × LogVal := (js "enforce", .bool enforce)
  uplinkRow (js "pools") (match pools with
    | some pools => (js "armed", .bool true) ::
        pools.entries.map (fun e => (e.1, LogVal.json (.num e.2) rfl)) ++ [enforced]
    | none => [(js "armed", .bool false), enforced])

def buildUplink (book : Option Book) (selfUrl : Option JsString) :
    List Effect × Except JsString (Option Built) :=
  let plan := planUplink cfg.env book selfUrl w.probe
  match plan.2 with
  | .error err => (plan.1, .error err)
  | .ok upstream =>
      if upstream.isNone ∧ !cfg.sb then (plan.1, .ok none)
      else
        match poolsFromEnv cfg.env (meshCap cfg) (wsCap cfg) with
        | .error err => (plan.1, .error err)
        | .ok meshPools =>
            let enforce := cfg.env.ledgerEnforce = some (js "1")
            let transport : Effect := .webTransport
              { bridgeUrl := upstream
                meshOnly := upstream.isNone
                reconnect := upstream.isSome
                meshDegree := positive (meshCap cfg)
                meshPools
                enforce }
            match w.transportError with
            | some err => (plan.1 ++ [transport], .error err)
            | none =>
                let only : List (JsString × LogVal) :=
                  if upstream.isNone then [(js "meshOnly", .bool true)] else []
                (plan.1 ++ [transport, uplinkRow (js "mesh-degree") (degreeFields cfg ++ only),
                  poolsRow meshPools enforce,
                  uplinkRow (js "selected") ((js "upstream", .ofString? upstream) :: only)],
                  .ok (some { upstream }))

/-- A row of the node's own. -/
def nodeRow (event : JsString) (fields : List (JsString × LogVal)) : Effect :=
  .row { level := .debug, event := js "axona:" ++ event, fields }

/-- `assertKernelSurfaces`: the message it throws. -/
def surfacesError : Option JsString :=
  if w.missingKernelSurfaces = [] then none
  else some (js "socket-bootstrap refused: the installed kernel lacks " ++
    joinComma w.missingKernelSurfaces ++ js " (needs @axona/protocol ≥ 4.107.0); unset " ++
    js "BRIDGE_SOCKET_IS_BOOTSTRAP or upgrade the pin")

/-- `startUplink` from the start of the transport on: the uplink that is kept, and what is answered. -/
def startTransport (built : Built) : List Effect × Option Built × Except JsString (Option JsString) :=
  let failed : JsString → List Effect := fun err =>
    [nodeRow (js "uplink-start-failed") [(js "upstream", .ofString? built.upstream),
      (js "err", .str err)], .stop]
  match w.startError with
  | some err => (.start :: failed err, none, .ok none)
  | none =>
      match w.addError with
      | some err => (.start :: failed err, none, .ok none)
      | none =>
          match if cfg.sb then w.wireError else none with
          | some err => (.start :: failed err, some built, .ok none)
          | none => ([.start, nodeRow (js "uplink-up") [(js "upstream", .ofString? built.upstream),
              (js "meshOnly", .bool built.upstream.isNone)]], some built, .ok built.upstream)

/-- `startUplink`: the uplink that is kept, and the upstream it answers or the message it throws. -/
def startUplink (uplink : Option Built) (book : Option Book) (selfUrl : Option JsString) :
    List Effect × Option Built × Except JsString (Option JsString) :=
  match uplink with
  | some uplink => ([], some uplink, .ok uplink.upstream)
  | none =>
      let build : List Effect × Except JsString (Option Built) := match w.importError with
        | some err => ([], .error err)
        | none => buildUplink cfg w book selfUrl
      match build.2 with
      | .error err =>
          (build.1 ++ [nodeRow (js "uplink-build-failed") [(js "err", .str err)]], none, .ok none)
      | .ok none => (build.1, none, .ok none)
      | .ok (some built) =>
          match if cfg.sb then surfacesError w else none with
          | some err => (build.1 ++ [.stop, nodeRow (js "socket-bootstrap-refused")
              [(js "err", .str err)]], none, .error err)
          | none =>
              let r := startTransport cfg w built
              (build.1 ++ r.1, r.2)

/-! ### Start-up -/

/-- A row of the server. -/
def serverRow (level : LogLevel) (event : JsString) (fields : List (JsString × LogVal)) : Effect :=
  .row { level, event, fields }

/-- `SELF_URL` -/
def selfUrl : Option JsString := cfg.env.publicUrl.filter (· ≠ [])

/-- `DIRECTORY_ON && SELF_URL` -/
def federates : Bool :=
  toLowerCase (cfg.env.directory.getD (js "on")) ≠ js "off" && (selfUrl cfg).isSome

/-- The isolation gate, and whether it lets the server start. -/
def isolationGate : List Effect × Bool :=
  let r := startUplink cfg w none none (selfUrl cfg)
  let failed : List Effect := [serverRow .error (js "uplink-isolation-gate-failed")
    [(js "reason", .str (js ("BRIDGE_UPSTREAMS_ONLY=on and no BRIDGE_UPSTREAMS seed reachable — " ++
      "exiting before directory and listen"))), (js "seeds", .ofStrings (envUpstreams cfg.env))],
    .exit 1]
  match r.2.2 with
  | .error err => (r.1 ++ serverRow .error (js "uplink-isolation-gate-error") [(js "err", .str err)] ::
      failed, false)
  | .ok none => (r.1 ++ failed, false)
  | .ok (some upstream) => (r.1 ++ [serverRow .info (js "uplink-up") [(js "upstream", .str upstream),
      (js "mode", .str (js "upstreams-only"))]], true)

/-- `server.js` from the directory publisher to `httpServer.listen`. -/
def serve : List Effect :=
  .startDirectoryPublisher ::
    (if !upstreamsOnly cfg.env && federates cfg then [.background] else []) ++ [.listen]

def startUp : List Effect :=
  let loaded : List Effect := if federates cfg then [.loadBook] else []
  if upstreamsOnly cfg.env then
    let gate := isolationGate cfg w
    loaded ++ gate.1 ++ if gate.2 then serve cfg else []
  else loaded ++ serve cfg

/-! ### Fail-closed -/

variable {cfg : Config} {w : World}

/-- `buildUplink` plans, and builds for the upstream of the plan. -/
theorem exists_buildUplink_eq (book : Option Book) (selfUrl : Option JsString) :
    ∃ fs, probes fs = [] ∧ (∀ e ∈ fs, e.isUplink = true) ∧
      (∀ options, .webTransport options ∈ fs →
        (planUplink cfg.env book selfUrl w.probe).2 = .ok options.bridgeUrl) ∧
      (buildUplink cfg w book selfUrl).1 = (planUplink cfg.env book selfUrl w.probe).1 ++ fs ∧
        ∀ built, (buildUplink cfg w book selfUrl).2 = .ok (some built) →
          (planUplink cfg.env book selfUrl w.probe).2 = .ok built.upstream := by
  -- what follows the plan is nothing, or a transport and rows
  have hnothing : ∀ {res : Except JsString (Option Built)}, (∀ built, res ≠ .ok (some built)) →
      ∃ fs, probes fs = [] ∧ (∀ e ∈ fs, e.isUplink = true) ∧
        (∀ options, .webTransport options ∈ fs →
          (planUplink cfg.env book selfUrl w.probe).2 = .ok options.bridgeUrl) ∧
        (planUplink cfg.env book selfUrl w.probe).1 =
          (planUplink cfg.env book selfUrl w.probe).1 ++ fs ∧
        ∀ built, res = .ok (some built) →
          (planUplink cfg.env book selfUrl w.probe).2 = .ok built.upstream := fun hres =>
    ⟨[], rfl, fun e he => absurd he List.not_mem_nil, fun options hmem => absurd hmem List.not_mem_nil,
      (List.append_nil _).symm, fun built hbuilt => absurd hbuilt (hres built)⟩
  have htransport : ∀ {options : TransportOptions} {rows : List Effect}
      {res : Except JsString (Option Built)}, Quiet rows →
      (planUplink cfg.env book selfUrl w.probe).2 = .ok options.bridgeUrl →
      (∀ built, res = .ok (some built) → built.upstream = options.bridgeUrl) →
      ∃ fs, probes fs = [] ∧ (∀ e ∈ fs, e.isUplink = true) ∧
        (∀ options, .webTransport options ∈ fs →
          (planUplink cfg.env book selfUrl w.probe).2 = .ok options.bridgeUrl) ∧
        (planUplink cfg.env book selfUrl w.probe).1 ++ .webTransport options :: rows =
          (planUplink cfg.env book selfUrl w.probe).1 ++ fs ∧
        ∀ built, res = .ok (some built) →
          (planUplink cfg.env book selfUrl w.probe).2 = .ok built.upstream := by
    intro options rows res hrows hplan hres
    refine ⟨.webTransport options :: rows, hrows.probes, fun e he => ?_, fun options' hmem => ?_, rfl,
      fun built hbuilt => by rw [hplan, hres built hbuilt]⟩
    · rcases List.mem_cons.mp he with rfl | he
      · rfl
      · exact hrows.uplink e he
    · rcases List.mem_cons.mp hmem with heq | hmem
      · cases heq
        exact hplan
      · exact absurd hmem (hrows.dials options')
  unfold buildUplink
  dsimp only
  split
  · exact hnothing fun built hbuilt => by cases hbuilt
  · rename_i upstream hplan
    split
    · exact hnothing fun built hbuilt => by cases hbuilt
    · split
      · exact hnothing fun built hbuilt => by cases hbuilt
      · split
        · exact htransport rfl hplan fun built hbuilt => by cases hbuilt
        · refine htransport rfl hplan fun built hbuilt => ?_
          cases hbuilt
          rfl

/-- Starting the transport answers its upstream or none. -/
theorem startTransport_spec (built : Built) :
    Quiet (startTransport cfg w built).1 ∧
      ∀ url, (startTransport cfg w built).2.2 = .ok (some url) → built.upstream = some url := by
  unfold startTransport
  dsimp only
  split
  · exact ⟨rfl, fun url hurl => by cases hurl⟩
  · split
    · exact ⟨rfl, fun url hurl => by cases hurl⟩
    · split
      · exact ⟨rfl, fun url hurl => by cases hurl⟩
      · refine ⟨rfl, fun url hurl => ?_⟩
        injection hurl

/-- With upstreams only, `startUplink` answers the choice among the entries of `BRIDGE_UPSTREAMS`. -/
theorem chooses_startUplink (h : upstreamsOnly cfg.env = true) (book : Option Book)
    (selfUrl : Option JsString) :
    Chooses w.probe (envSeeds cfg.env selfUrl) (startUplink cfg w none book selfUrl).1
      (startUplink cfg w none book selfUrl).2.2 := by
  have hplan := chooses_planUplink h book selfUrl w.probe
  obtain ⟨fs, hprobes, huplink, hdials, heffects, hbuilds⟩ := @exists_buildUplink_eq cfg w book selfUrl
  have hbuild : ∀ {res : Except JsString (Option JsString)},
      (∀ url, res = .ok (some url) →
        (planUplink cfg.env book selfUrl w.probe).2 = .ok (some url)) →
      Chooses w.probe (envSeeds cfg.env selfUrl) (buildUplink cfg w book selfUrl).1 res := fun hres => by
    rw [heffects]
    exact hplan.then hprobes huplink hdials hres
  unfold startUplink
  dsimp only
  cases w.importError with
  | some err =>
      refine Quiet.chooses ?_ _ _
      rfl
  | none =>
      dsimp only
      split
      · exact (@hbuild (.ok none) fun url hurl => by cases hurl).quiet rfl fun url hurl => by cases hurl
      · exact hbuild fun url hurl => by cases hurl
      · rename_i built hbuilt
        split
        · exact (@hbuild (.ok none) fun url hurl => by cases hurl).quiet rfl fun url hurl => by cases hurl
        · obtain ⟨hquiet, hanswers⟩ := @startTransport_spec cfg w built
          refine (hbuild fun url hurl => ?_).quiet hquiet fun url hurl => hurl
          rw [hbuilds built hbuilt, hanswers url hurl]

/-- What start-up does up to the gate's decision: the uplink, between the book's file and rows. -/
structure GateEffects (cfg : Config) (w : World) (before : List Effect) : Prop where
  probes : probes before = probes (startUplink cfg w none none (selfUrl cfg)).1
  dials : ∀ options, .webTransport options ∈ before →
    .webTransport options ∈ (startUplink cfg w none none (selfUrl cfg)).1
  own : ∀ e ∈ before, e.isUplink = true ∨ e = .loadBook

theorem gateEffects (h : upstreamsOnly cfg.env = true) {loaded rows : List Effect}
    (hloaded : loaded = [.loadBook] ∨ loaded = []) (hrows : Quiet rows) :
    GateEffects cfg w (loaded ++ ((startUplink cfg w none none (selfUrl cfg)).1 ++ rows)) := by
  have hchooses := @chooses_startUplink cfg w h none (selfUrl cfg)
  have hsplit : ∀ e ∈ loaded ++ ((startUplink cfg w none none (selfUrl cfg)).1 ++ rows),
      e = .loadBook ∨ e ∈ (startUplink cfg w none none (selfUrl cfg)).1 ∨ e ∈ rows := by
    intro e he
    rcases List.mem_append.mp he with he | he
    · rcases hloaded with rfl | rfl
      · exact Or.inl (List.mem_singleton.mp he)
      · exact absurd he List.not_mem_nil
    · exact Or.inr (List.mem_append.mp he)
  refine ⟨?_, fun options hmem => ?_, fun e he => ?_⟩
  · have hnone : probes loaded = [] := by rcases hloaded with rfl | rfl <;> rfl
    rw [probes_append, probes_append, hnone, hrows.probes, List.append_nil, List.nil_append]
  · rcases hsplit _ hmem with heq | hmem | hmem
    · cases heq
    · exact hmem
    · exact absurd hmem (hrows.dials options)
  · rcases hsplit e he with heq | he | he
    · exact Or.inr heq
    · exact Or.inl (hchooses.uplink e he)
    · exact Or.inl (hrows.uplink e he)

/-- The gate opens on an upstream, and elsewhere ends in the exit of the process. -/
theorem isolationGate_cases : ∃ rows, Quiet rows ∧
    (((∃ url, (startUplink cfg w none none (selfUrl cfg)).2.2 = .ok (some url)) ∧
        isolationGate cfg w = ((startUplink cfg w none none (selfUrl cfg)).1 ++ rows, true)) ∨
      ((∀ url, (startUplink cfg w none none (selfUrl cfg)).2.2 ≠ .ok (some url)) ∧
        isolationGate cfg w =
          ((startUplink cfg w none none (selfUrl cfg)).1 ++ (rows ++ [.exit 1]), false))) := by
  unfold isolationGate
  dsimp only
  cases (startUplink cfg w none none (selfUrl cfg)).2.2 with
  | error err =>
      refine ⟨[_, _], ?_, Or.inr ⟨fun url hurl => ?_, rfl⟩⟩
      · rfl
      · cases hurl
  | ok upstream =>
      cases upstream with
      | none =>
          refine ⟨[_], ?_, Or.inr ⟨fun url hurl => ?_, rfl⟩⟩
          · rfl
          · cases hurl
      | some url =>
          refine ⟨[_], ?_, Or.inl ⟨⟨url, rfl⟩, rfl⟩⟩
          rfl

/-- With upstreams only, start-up serves behind the open gate, and goes no further than a closed one. -/
theorem exists_startUp_eq (h : upstreamsOnly cfg.env = true) :
    ∃ before, GateEffects cfg w before ∧
      (((∃ url, (startUplink cfg w none none (selfUrl cfg)).2.2 = .ok (some url)) ∧
          startUp cfg w = before ++ [.startDirectoryPublisher, .listen]) ∨
        ((∀ url, (startUplink cfg w none none (selfUrl cfg)).2.2 ≠ .ok (some url)) ∧
          startUp cfg w = before ++ [.exit 1])) := by
  obtain ⟨rows, hrows, hcase⟩ := @isolationGate_cases cfg w
  have hloaded : (if federates cfg then [Effect.loadBook] else []) = [.loadBook] ∨
      (if federates cfg then [Effect.loadBook] else []) = [] := by
    cases federates cfg
    · exact Or.inr rfl
    · exact Or.inl rfl
  have hserve : serve cfg = [.startDirectoryPublisher, .listen] := by
    unfold serve
    rw [h]
    rfl
  refine ⟨_, gateEffects h hloaded hrows, ?_⟩
  unfold startUp
  dsimp only
  rw [if_pos h, hserve]
  rcases hcase with ⟨hsome, heq⟩ | ⟨hnone, heq⟩
  · refine Or.inl ⟨hsome, ?_⟩
    rw [heq]
    simp
  · refine Or.inr ⟨hnone, ?_⟩
    rw [heq]
    simp

/-- What comes before the gate's decision asks no other source, publishes nothing and does not listen. -/
theorem GateEffects.apart {before : List Effect} (h : GateEffects cfg w before) {e : Effect}
    (he : e ∈ before) : e.consults = false ∧ e ≠ .startDirectoryPublisher ∧ e ≠ .listen := by
  rcases h.own e he with huplink | rfl
  · cases e with
    | defaults => cases huplink
    | rankBook roots => cases huplink
    | startDirectoryPublisher => cases huplink
    | listen => cases huplink
    | _ => exact ⟨rfl, by simp, by simp⟩
  · exact ⟨rfl, by simp, by simp⟩

/-- With upstreams only, a bridge publishes and listens where `startUplink` answers an upstream. -/
theorem mem_startUp_iff (h : upstreamsOnly cfg.env = true) {e : Effect}
    (he : e ∈ [Effect.startDirectoryPublisher, .listen]) : e ∈ startUp cfg w ↔
      ∃ url, (startUplink cfg w none none (selfUrl cfg)).2.2 = .ok (some url) := by
  obtain ⟨before, hgate, ⟨hsome, heq⟩ | ⟨hnone, heq⟩⟩ := @exists_startUp_eq cfg w h
  · rw [heq]
    exact iff_of_true (List.mem_append_right _ he) hsome
  · rw [heq]
    refine iff_of_false (fun hmem => ?_) (fun hsome => hsome.elim hnone)
    rcases List.mem_append.mp hmem with hmem | hmem
    · rcases List.mem_pair.mp he with rfl | rfl
      · exact (hgate.apart hmem).2.1 rfl
      · exact (hgate.apart hmem).2.2 rfl
    · rw [List.mem_singleton.mp hmem] at he
      simp at he

/-- **Fail-closed federation.** With upstreams only, whatever the book, the probes and the kernel
answer, `startUplink` probes the entries of `BRIDGE_UPSTREAMS` in order up to the first that answers,
and dials and answers no other. Start-up probes and dials the same, consults no other source of
candidates, and reaches the directory publisher and `listen` exactly where `startUplink` answers an
upstream; elsewhere the process exits. -/
theorem startUp_failClosed (cfg : Config) (w : World) (h : upstreamsOnly cfg.env = true) :
    (∀ book, Chooses w.probe (envSeeds cfg.env (selfUrl cfg))
      (startUplink cfg w none book (selfUrl cfg)).1 (startUplink cfg w none book (selfUrl cfg)).2.2) ∧
    probes (startUp cfg w) = probes (startUplink cfg w none none (selfUrl cfg)).1 ∧
    (∀ options, .webTransport options ∈ startUp cfg w →
      .webTransport options ∈ (startUplink cfg w none none (selfUrl cfg)).1) ∧
    (∀ e ∈ startUp cfg w, e.consults = false) ∧
    (∀ e ∈ [Effect.startDirectoryPublisher, .listen], e ∈ startUp cfg w ↔
      ∃ url, (startUplink cfg w none none (selfUrl cfg)).2.2 = .ok (some url)) ∧
    ((∀ url, (startUplink cfg w none none (selfUrl cfg)).2.2 ≠ .ok (some url)) →
      ∃ before, startUp cfg w = before ++ [.exit 1]) := by
  obtain ⟨before, hgate, hcase⟩ := @exists_startUp_eq cfg w h
  -- either way the gate's effects are followed by ones that probe, dial and consult nothing
  obtain ⟨last, hlast, hstartUp⟩ : ∃ last, (last = [Effect.startDirectoryPublisher, .listen] ∨
      last = [.exit 1]) ∧ startUp cfg w = before ++ last := by
    rcases hcase with ⟨-, heq⟩ | ⟨-, heq⟩
    · exact ⟨_, Or.inl rfl, heq⟩
    · exact ⟨_, Or.inr rfl, heq⟩
  refine ⟨fun book => chooses_startUplink h book _, ?_, fun options hmem => ?_, fun e he => ?_,
    fun e he => mem_startUp_iff h he, fun hnone => ?_⟩
  · rw [hstartUp, probes_append, hgate.probes]
    rcases hlast with rfl | rfl
    · exact List.append_nil _
    · exact List.append_nil _
  · rw [hstartUp] at hmem
    rcases List.mem_append.mp hmem with hmem | hmem
    · exact hgate.dials options hmem
    · rcases hlast with rfl | rfl <;> simp at hmem
  · rw [hstartUp] at he
    rcases List.mem_append.mp he with he | he
    · exact (hgate.apart he).1
    · rcases hlast with rfl | rfl
      · rcases List.mem_pair.mp he with rfl | rfl <;> rfl
      · rw [List.mem_singleton.mp he]
        rfl
  · rcases hcase with ⟨⟨url, hurl⟩, -⟩ | ⟨-, heq⟩
    · exact absurd hurl (hnone url)
    · exact ⟨before, heq⟩

/-- A test bridge with two named upstreams, one of them named twice, and its door open. -/
def testBridge : Config where
  env :=
    { upstreamsOnly := some (js "On")
      upstreams := some (js "wss://b1, wss://b1 ,,wss://b2")
      directory := some (js "off") }
  sb := true

/-- One URL answers the probe. -/
def reaches (answering : JsString) : World where
  probe _ url := .ok (decide (url = answering))

theorem startUp_failClosed_testBridge :
    .listen ∈ startUp testBridge (reaches (js "wss://b2")) ∧
      probes (startUp testBridge (reaches (js "wss://b2"))) = [js "wss://b1", js "wss://b2"] ∧
      (∃ before, startUp testBridge (reaches (js "wss://b3")) = before ++ [.exit 1]) := by
  have honly : upstreamsOnly testBridge.env = true := by decide +kernel
  obtain ⟨-, hprobes, -, -, hserves, -⟩ :=
    startUp_failClosed testBridge (reaches (js "wss://b2")) honly
  obtain ⟨-, -, -, -, -, hexits⟩ := startUp_failClosed testBridge (reaches (js "wss://b3")) honly
  refine ⟨(hserves .listen (by simp)).mpr ⟨js "wss://b2", by rfl⟩, ?_, hexits fun url => ?_⟩
  · rw [hprobes]
    decide +kernel
  · have hnone : (startUplink testBridge (reaches (js "wss://b3")) none none
        (selfUrl testBridge)).2.2 = .ok none := by rfl
    rw [hnone]
    exact fun heq => by cases heq

end Uplink

end AxonaBridge
