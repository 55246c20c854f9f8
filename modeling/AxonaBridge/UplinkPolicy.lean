import AxonaBridge.NodeModel

/-!
# Which upstream a bridge may dial

`uplink_policy.js`: the seeds of the uplink and the choice of the first that answers. What a choice
does on its way, the questions put to the book of known bridges and the probes among it, is a list of
effects. A probe is an argument, and may answer by what was probed before it.
-/

open JsText

namespace AxonaBridge

namespace Uplink

/-- What the process reads of its environment on its way into the mesh. -/
structure Env where
  /-- `BRIDGE_UPSTREAMS_ONLY` -/
  upstreamsOnly : Option JsString := none
  /-- `BRIDGE_UPSTREAMS` -/
  upstreams : Option JsString := none
  /-- `BRIDGE_MAX_PEERS` -/
  maxPeers : Option JsString := none
  /-- `BRIDGE_MESH_MAX_PEERS` -/
  meshMaxPeers : Option JsString := none
  /-- `BRIDGE_MESH_POOLS` -/
  meshPools : Option JsString := none
  /-- `BRIDGE_LEDGER_ENFORCE` -/
  ledgerEnforce : Option JsString := none
  /-- `BRIDGE_DIRECTORY` -/
  directory : Option JsString := none
  /-- `BRIDGE_PUBLIC_URL` -/
  publicUrl : Option JsString := none

/-- What the bridge asks `webTransport` for. -/
structure TransportOptions where
  bridgeUrl : Option JsString
  meshOnly : Bool
  reconnect : Bool
  /-- `maxPeers` of the mesh degree. -/
  meshDegree : Option ℚ
  meshPools : Option (JsMap JsString JsNum)
  enforce : Bool

inductive Effect where
  /-- The built-in production bridges are made candidates. -/
  | defaults
  /-- The book is asked to rank candidates. -/
  | rankBook (roots : List JsString)
  | probe (url : JsString)
  | webTransport (options : TransportOptions)
  | start
  | stop
  | row (row : LogRow)
  | loadBook
  | startDirectoryPublisher
  /-- `startUplink` in the background. -/
  | background
  | listen
  | exit (code : Nat)

/-- The effect consults a source of candidates other than `BRIDGE_UPSTREAMS`. -/
def Effect.consults : Effect → Bool
  | .defaults => true
  | .rankBook _ => true
  | _ => false

/-- The effect is one of the uplink's own: a probe, an act of its transport or a row of the log. -/
def Effect.isUplink : Effect → Bool
  | .probe _ => true
  | .webTransport _ => true
  | .start => true
  | .stop => true
  | .row _ => true
  | _ => false

/-- The effect is one of the uplink's own, and neither probes nor dials. -/
def Effect.isQuiet : Effect → Bool
  | .start => true
  | .stop => true
  | .row _ => true
  | _ => false

/-- The URLs probed, in order. -/
def probes : List Effect → List JsString :=
  List.filterMap fun
    | .probe url => some url
    | _ => none

@[simp] theorem probes_nil : probes [] = [] := rfl

@[simp] theorem probes_append (es fs : List Effect) : probes (es ++ fs) = probes es ++ probes fs :=
  List.filterMap_append

@[simp] theorem probes_probe (url : JsString) (es : List Effect) :
    probes (.probe url :: es) = url :: probes es := rfl

@[simp] theorem probes_row (row : LogRow) (es : List Effect) : probes (.row row :: es) = probes es := rfl

/-- A row the node writes for its uplink. -/
def uplinkRow (event : JsString) (fields : List (JsString × LogVal)) : Effect :=
  .row { level := .debug, event := js "axona:uplink:" ++ event, fields }

/-- The book of known bridges: its own URL, and how the kernel ranks its entries after some roots. -/
structure Book where
  selfUrl : Option JsString := none
  rankBridges : List JsString → List JsString

inductive Mode where
  | default
  | upstreamsOnly
  deriving DecidableEq

def Mode.text : Mode → JsString
  | .default => js "default"
  | .upstreamsOnly => js "upstreams-only"

/-! ### Seeds -/

/-- `DEFAULT_UPSTREAMS` -/
def defaultUpstreams : List JsString :=
  [js "wss://bridge.axona.net", js "wss://bridge-west.axona.net"]

def upstreamsOnly (env : Env) : Bool :=
  toLowerCase (env.upstreamsOnly.getD (js "off")) = js "on"

def envUpstreams (env : Env) : List JsString :=
  ((split (env.upstreams.getD []) 44).map trim).filter (· ≠ [])

/-- The filter of `dedupeMinusSelf`, with what it has seen. -/
def dedupeFrom (selfUrl : Option JsString) : List JsString → List JsString → List JsString
  | _, [] => []
  | seen, url :: urls =>
      if url ≠ [] ∧ some url ≠ selfUrl ∧ url ∉ seen then url :: dedupeFrom selfUrl (url :: seen) urls
      else dedupeFrom selfUrl seen urls

def dedupeMinusSelf (urls : List JsString) (selfUrl : Option JsString) : List JsString :=
  dedupeFrom selfUrl [] urls

/-- `candidates` of the book -/
def Book.candidates (book : Book) (extraRoots : List JsString) : List JsString :=
  dedupeMinusSelf (book.rankBridges extraRoots) book.selfUrl

def resolveSeeds (env : Env) (book : Option Book) (selfUrl : Option JsString) :
    List Effect × List JsString :=
  let fromEnv := envUpstreams env
  if upstreamsOnly env then ([], dedupeMinusSelf fromEnv selfUrl)
  else
    let roots := fromEnv ++ defaultUpstreams
    match book with
    | some book => ([.defaults, .rankBook roots], dedupeMinusSelf (book.candidates roots) selfUrl)
    | none => ([.defaults], dedupeMinusSelf roots selfUrl)

/-! ### The choice -/

/-- What the reachability test answers for a URL after the ones probed before it, or the message it
throws. -/
abbrev Probe := List JsString → JsString → Except JsString Bool

/-- The loop of `planUplink` over the seeds. -/
def probeSeeds (probe : Probe) (mode : Mode) :
    List JsString → List JsString → List Effect × Except JsString (Option JsString)
  | _, [] => ([], .ok none)
  | probed, url :: urls =>
      match probe probed url with
      | .error err => ([.probe url], .error err)
      | .ok true => ([.probe url], .ok (some url))
      | .ok false =>
          let r := probeSeeds probe mode (probed ++ [url]) urls
          (.probe url :: uplinkRow (js "seed-unreachable") [(js "url", .str url),
            (js "mode", .str mode.text)] :: r.1, r.2)

def planUplink (env : Env) (book : Option Book) (selfUrl : Option JsString) (probe : Probe) :
    List Effect × Except JsString (Option JsString) :=
  let mode := if upstreamsOnly env then Mode.upstreamsOnly else .default
  let seeds := resolveSeeds env book selfUrl
  if seeds.2 = [] then
    (seeds.1 ++ [uplinkRow (js "no-seeds") [(js "mode", .str mode.text)]], .ok none)
  else
    let r := probeSeeds probe mode [] seeds.2
    match r.2 with
    | .ok none => (seeds.1 ++ r.1 ++ [uplinkRow (js "no-reachable-seed")
        [(js "tried", .int seeds.2.length), (js "mode", .str mode.text)]], .ok none)
    | _ => (seeds.1 ++ r.1, r.2)

/-! ### What is probed -/

/-- The entries of `BRIDGE_UPSTREAMS` without the bridge's own URL, each where it first stands. -/
def envSeeds (env : Env) (selfUrl : Option JsString) : List JsString :=
  ((envUpstreams env).filter fun url => some url ≠ selfUrl).eraseDups

theorem dedupeFrom_eq (selfUrl : Option JsString) (seen urls : List JsString) :
    dedupeFrom selfUrl seen urls =
      (urls.filter fun url => url ≠ [] ∧ some url ≠ selfUrl ∧ url ∉ seen).eraseDups := by
  induction urls generalizing seen with
  | nil => rfl
  | cons url urls ih =>
      unfold dedupeFrom
      by_cases hnew : url ≠ [] ∧ some url ≠ selfUrl ∧ url ∉ seen
      · rw [if_pos hnew, List.filter_cons_of_pos (by simpa using hnew), List.eraseDups_cons, ih,
          List.filter_filter]
        congr 2
        apply List.filter_congr
        intro v _
        by_cases hv : v = url
        · simp [hv]
        · simp [hv]
      · rw [if_neg hnew, List.filter_cons_of_neg (by simpa using hnew), ih]

theorem seeds_of_upstreamsOnly {env : Env} (h : upstreamsOnly env = true) (book : Option Book)
    (selfUrl : Option JsString) : resolveSeeds env book selfUrl = ([], envSeeds env selfUrl) := by
  unfold resolveSeeds envSeeds dedupeMinusSelf
  dsimp only
  rw [if_pos h, dedupeFrom_eq]
  congr 2
  apply List.filter_congr
  intro url hurl
  have hne : url ≠ [] := of_decide_eq_true (List.mem_filter.mp hurl).2
  simp [hne]

/-- The URL is the last one probed, it answered, and none before it did. -/
def FirstAnswer (probe : Probe) (probed : List JsString) (url : JsString) : Prop :=
  ∃ before, probed = before ++ [url] ∧ probe before url = .ok true ∧
    ∀ earlier v later, before = earlier ++ v :: later → probe earlier v = .ok false

/-- One more silent URL in front leaves the first answer where it is. -/
theorem FirstAnswer.cons {probe : Probe} {before probed : List JsString} {url v : JsString}
    (hsilent : probe before url = .ok false)
    (h : FirstAnswer (fun further => probe (before ++ [url] ++ further)) probed v) :
    FirstAnswer (fun further => probe (before ++ further)) (url :: probed) v := by
  obtain ⟨between, rfl, hanswers, hnone⟩ := h
  refine ⟨url :: between, rfl, ?_, fun earlier u later hsplit => ?_⟩
  · dsimp only at hanswers ⊢
    rw [← hanswers, List.append_assoc]
    rfl
  · cases earlier with
    | nil =>
        cases hsplit
        dsimp only
        rw [List.append_nil]
        exact hsilent
    | cons u' earlier =>
        cases hsplit
        have hu := hnone earlier u later rfl
        dsimp only at hu ⊢
        rw [← hu, List.append_assoc]
        rfl

/-- A choice among seeds: it probes them in order, and dials and answers none but the first that
answers. -/
structure Chooses (probe : Probe) (seeds : List JsString) (es : List Effect)
    (res : Except JsString (Option JsString)) : Prop where
  probed : probes es <+: seeds
  uplink : ∀ e ∈ es, e.isUplink = true
  dials : ∀ options, .webTransport options ∈ es → ∀ url, options.bridgeUrl = some url →
    FirstAnswer probe (probes es) url
  answers : ∀ url, res = .ok (some url) → FirstAnswer probe (probes es) url

/-- What follows a choice and probes nothing may give it up, and may not change it. -/
theorem Chooses.then {probe : Probe} {seeds : List JsString} {es fs : List Effect}
    {res res' : Except JsString (Option JsString)} (h : Chooses probe seeds es res)
    (hprobes : probes fs = []) (huplink : ∀ e ∈ fs, e.isUplink = true)
    (hdials : ∀ options, .webTransport options ∈ fs → res = .ok options.bridgeUrl)
    (hres : ∀ url, res' = .ok (some url) → res = .ok (some url)) :
    Chooses probe seeds (es ++ fs) res' := by
  have hsame : probes (es ++ fs) = probes es := by rw [probes_append, hprobes, List.append_nil]
  constructor
  · exact hsame ▸ h.probed
  · exact fun e he => (List.mem_append.mp he).elim (h.uplink e) (huplink e)
  · intro options hmem url hurl
    rw [hsame]
    rcases List.mem_append.mp hmem with hmem | hmem
    · exact h.dials options hmem url hurl
    · exact h.answers url (hurl ▸ hdials options hmem)
  · exact fun url hurl => hsame ▸ h.answers url (hres url hurl)

/-- The effects are the uplink's own, and probe and dial nothing. -/
def Quiet (fs : List Effect) : Prop := fs.all Effect.isQuiet = true

theorem Quiet.uplink {fs : List Effect} (h : Quiet fs) : ∀ e ∈ fs, e.isUplink = true := by
  intro e he
  have hquiet := List.all_eq_true.mp h e he
  cases e with
  | row row => rfl
  | start => rfl
  | stop => rfl
  | _ => cases hquiet

theorem Quiet.dials {fs : List Effect} (h : Quiet fs) (options : TransportOptions) :
    .webTransport options ∉ fs := by
  intro hmem
  cases List.all_eq_true.mp h _ hmem

theorem Quiet.probes {fs : List Effect} (h : Quiet fs) : probes fs = [] := by
  refine List.filterMap_eq_nil_iff.mpr fun e he => ?_
  have hquiet := List.all_eq_true.mp h e he
  cases e with
  | probe url => cases hquiet
  | _ => rfl

theorem Quiet.append {es fs : List Effect} (h : Quiet es) (h' : Quiet fs) : Quiet (es ++ fs) := by
  unfold Quiet at *
  rw [List.all_append, h, h']
  rfl

/-- Nothing probed, nothing chosen. -/
theorem Quiet.chooses {fs : List Effect} (h : Quiet fs) (probe : Probe) (seeds : List JsString) :
    Chooses probe seeds fs (.ok none) where
  probed := h.probes ▸ List.nil_prefix
  uplink := h.uplink
  dials options hmem := absurd hmem (h.dials options)
  answers url hurl := by cases hurl

theorem Chooses.quiet {probe : Probe} {seeds : List JsString} {es fs : List Effect}
    {res res' : Except JsString (Option JsString)} (h : Chooses probe seeds es res) (hfs : Quiet fs)
    (hres : ∀ url, res' = .ok (some url) → res = .ok (some url)) :
    Chooses probe seeds (es ++ fs) res' :=
  h.then hfs.probes hfs.uplink (fun options hmem => absurd hmem (hfs.dials options)) hres

/-- The loop chooses, for a probe that knows what was probed before the loop. -/
theorem chooses_probeSeeds (probe : Probe) (mode : Mode) (probed seeds : List JsString) :
    Chooses (fun before => probe (probed ++ before)) seeds (probeSeeds probe mode probed seeds).1
      (probeSeeds probe mode probed seeds).2 := by
  induction seeds generalizing probed with
  | nil =>
      refine Quiet.chooses ?_ _ _
      rfl
  | cons url urls ih =>
      have hone : [url] <+: url :: urls := List.cons_prefix_cons.mpr ⟨rfl, List.nil_prefix⟩
      have huplink : ∀ e ∈ [Effect.probe url], e.isUplink = true := fun _ he => by
        rw [List.mem_singleton.mp he]
        rfl
      have hdials : ∀ options, Effect.webTransport options ∉ [Effect.probe url] := fun options hmem => by
        cases List.mem_singleton.mp hmem
      unfold probeSeeds
      split
      · exact ⟨hone, huplink, fun options hmem => absurd hmem (hdials options), fun v hv => by cases hv⟩
      · rename_i hprobe
        refine ⟨hone, huplink, fun options hmem => absurd hmem (hdials options), fun v hv => ?_⟩
        cases hv
        refine ⟨[], rfl, ?_, fun earlier v later hsplit => absurd hsplit (by simp)⟩
        dsimp only
        rw [List.append_nil]
        exact hprobe
      · rename_i hprobe
        have hrest := ih (probed ++ [url])
        refine ⟨List.cons_prefix_cons.mpr ⟨rfl, hrest.probed⟩, fun e he => ?_,
          fun options hmem v hv => ?_, fun v hv => (hrest.answers v hv).cons hprobe⟩
        · rcases List.mem_cons.mp he with rfl | he
          · rfl
          · rcases List.mem_cons.mp he with rfl | he
            · rfl
            · exact hrest.uplink e he
        · rcases List.mem_cons.mp hmem with heq | hmem
          · cases heq
          · rcases List.mem_cons.mp hmem with heq | hmem
            · cases heq
            · exact (hrest.dials options hmem v hv).cons hprobe

/-- With upstreams only, the choice is among the entries of `BRIDGE_UPSTREAMS`, whatever the book. -/
theorem chooses_planUplink {env : Env} (h : upstreamsOnly env = true) (book : Option Book)
    (selfUrl : Option JsString) (probe : Probe) :
    Chooses probe (envSeeds env selfUrl) (planUplink env book selfUrl probe).1
      (planUplink env book selfUrl probe).2 := by
  unfold planUplink
  dsimp only
  rw [seeds_of_upstreamsOnly h, if_pos h]
  dsimp only
  split
  · refine Quiet.chooses ?_ _ _
    rfl
  · have hchooses := chooses_probeSeeds probe .upstreamsOnly [] (envSeeds env selfUrl)
    rw [List.nil_append]
    split
    · exact hchooses.quiet rfl fun url hurl => by cases hurl
    · exact hchooses

end Uplink

end AxonaBridge
