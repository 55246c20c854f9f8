import AxonaBridge.BridgeLists
import AxonaBridge.NodeProofs
import AxonaBridge.ServerRecord

/-!
# Back for a credential

A connection admitted for a credential alone is announced to nobody and greeted with no hello, and so
proves no identity. It stands in the table as admitted until its close event, though, and what reads the
table does not tell it apart: the lists drawn up for others, the notice of its close, and the band.
-/

open JsText

namespace AxonaBridge

namespace Server

variable {cfg : Config} {io : Io} {s : Server} {id : ConnId}

/-- The connection is admitted, and for a credential alone. -/
def CredentialOnly (s : Server) (id : ConnId) : Prop :=
  ∃ m, s.record.marks id = some m ∧ m.admitted = true ∧ m.turnRefreshOnly = true

theorem CredentialOnly.isAdmitted (h : s.CredentialOnly id) : s.IsAdmitted id := by
  obtain ⟨m, hm, hadm, -⟩ := h
  obtain ⟨conn, hget, rfl⟩ := Option.map_eq_some_iff.mp hm
  exact ⟨conn, hget, hadm⟩

/-- A client-hello for a credential does not have the node greet the connection. -/
theorem node_onMessage_credential {conn : Conn} {json : JsVal} (h : Admits cfg s id (.text (.ok json)))
    (hget : s.connections.get id = some conn)
    (hrefresh : (Conn.ofHello conn json.revive).turnRefreshOnly = true) :
    (s.onMessage cfg io id (.text (.ok json))).1.node = s.node := by
  obtain ⟨hpending, json', hdata, hhello, peerVersion, ns, floor, hgate⟩ := h
  cases hdata
  have hno : conn.admitted = false := by
    rw [admission, hget] at hpending
    exact Option.some.inj hpending
  rw [onMessage_hello hget hno hhello]
  unfold onClientHello
  dsimp only
  rw [hgate]
  dsimp only [refusal]
  rw [node_admitConnection]
  have hrefresh' : (Conn.ofHello { conn with lastSeenAt := io.now } json.revive).turnRefreshOnly = true :=
    hrefresh
  rw [if_pos hrefresh', node_logInfo, node_modifyConn, node_modifyConn]

/-- A client-hello that admits a connection for a credential alone asks for no more. -/
theorem refresh_of_credentialOnly {conn : Conn} {json : JsVal} (hget : s.connections.get id = some conn)
    (hpending : conn.admitted = false)
    (h : (s.onMessage cfg io id (.text (.ok json))).1.CredentialOnly id) :
    (Conn.ofHello conn json.revive).turnRefreshOnly = true := by
  obtain ⟨m, hm, hadm, hrefresh⟩ := h
  have hremembers := @remembers_onMessage cfg io s id (.text (.ok json))
  have hmark : s.record.marks id = some conn.mark := congrArg (Option.map Conn.mark) hget
  have hreceives : ∀ {conn' type}, ¬Receives s id conn' json type := fun h => by
    have heq := Option.some.inj (hget.symm.trans h.get)
    rw [heq, h.admitted] at hpending
    cases hpending
  generalize (s.onMessage cfg io id (.text (.ok json))).1.record = r at hremembers hm
  cases hremembers with
  | same hleaves =>
      obtain rfl := Option.some.inj (hmark.symm.trans hm)
      exact absurd hadm (by rw [Conn.mark, hpending]; exact Bool.false_ne_true)
  | refused hget' hadm' =>
      dsimp only [Record.modify] at hm
      rw [if_pos rfl, hmark] at hm
      obtain rfl := Option.some.inj hm
      exact absurd hadm (by rw [Conn.mark, hpending]; exact Bool.false_ne_true)
  | credential hadmits hget' hrefresh' =>
      obtain rfl := Option.some.inj (hget.symm.trans hget')
      exact hrefresh'
  | introduced hintro =>
      dsimp only [Record.introduce, Record.modify] at hm
      rw [if_pos rfl, if_pos rfl, hmark] at hm
      obtain rfl := Option.some.inj hm
      cases hrefresh
  | relisted hlist => exact absurd hlist hreceives
  | released hrelease =>
      obtain ⟨conn', m', hping, -⟩ := hrelease
      exact absurd hping hreceives

/-! ### The band -/

/-- The admitted connections that are there for more than a credential. -/
def ordinary (s : Server) : List (ConnId × Conn) :=
  s.graduationCandidates.filter fun c => !c.2.turnRefreshOnly

/-- What `maybeGraduate` does when it takes the number of admitted connections to be `count`. -/
def maybeGraduateCounting (cfg : Config) (io : Io) (s : Server) (count : Nat) : Server :=
  if !cfg.nurseryOn then s
  else if io.now - s.lastGraduationAt < cfg.graduationIntervalMs then s
  else if (count : Int) ≤ cfg.maxPeers + cfg.graduationSlack then s
  else
    let held := if cfg.graduationGateOn then s.graduationCandidates.countP (s.heldBack cfg io) else 0
    let picked := s.selection cfg io
    let s := { s with gateHeldTotal := s.gateHeldTotal + held }
    match picked with
    | none => s
    | some pick =>
        match s.connections.get pick.id with
        | none => s
        | some c => s.graduate cfg io pick c count

/-- It takes them all. -/
theorem maybeGraduate_eq_counting :
    s.maybeGraduate cfg io = s.maybeGraduateCounting cfg io s.graduationCandidates.length := rfl

theorem length_ordinary_le : s.ordinary.length ≤ s.graduationCandidates.length :=
  List.length_filter_le _ _

theorem ordinary_eq_candidates (h : ∀ id, ¬s.CredentialOnly id) : s.ordinary = s.graduationCandidates := by
  refine List.filter_eq_self.mpr fun c hc => ?_
  obtain ⟨hmem, hadm⟩ := List.mem_filter.mp hc
  rw [Bool.not_eq_true', Bool.eq_false_iff]
  intro hrefresh
  exact h c.1 ⟨c.2.mark, congrArg (Option.map Conn.mark) (JsMap.mem_entries_iff.mp hmem), hadm, hrefresh⟩

/-- With few enough connections it does nothing, whichever of them it counts. -/
theorem maybeGraduateCounting_of_not_due (h : ¬GraduationDue cfg io s) {count : Nat}
    (hcount : count ≤ s.graduationCandidates.length) : s.maybeGraduateCounting cfg io count = s := by
  unfold maybeGraduateCounting
  split
  · rfl
  · rename_i hon
    split
    · rfl
    · rename_i hinterval
      refine if_pos (le_of_not_gt fun hband => h ⟨?_, not_lt.mp hinterval, ?_⟩)
      · simpa using hon
      · omega

/-- Where nobody is there for a credential alone when it gets past its band, none is counted. -/
theorem maybeGraduate_eq_ordinary (h : GraduationDue cfg io s → ∀ id, ¬s.CredentialOnly id) :
    s.maybeGraduate cfg io = s.maybeGraduateCounting cfg io s.ordinary.length := by
  rw [maybeGraduate_eq_counting]
  by_cases hdue : GraduationDue cfg io s
  · rw [ordinary_eq_candidates (h hdue)]
  · rw [maybeGraduateCounting_of_not_due hdue le_rfl,
      maybeGraduateCounting_of_not_due hdue length_ordinary_le]

end Server

namespace Bridge

variable {cfg : Config} {reportBound : Bool} {b : Bridge} {e : Io × Event} {id : ConnId}

/-- The step admits the connection for a credential alone. -/
def AdmitsForCredential (cfg : Config) (b : Bridge) (e : Io × Event) (id : ConnId) : Prop :=
  ¬b.server.IsAdmitted id ∧ (b.step cfg e).server.CredentialOnly id

theorem admitsForCredential_of_mark (hpending : b.server.admission id = some false)
    (hmark : ((b.step cfg e).server.record.marks id).map (fun m => m.admitted && m.turnRefreshOnly) =
      some true) : AdmitsForCredential cfg b e id := by
  refine ⟨fun hadm => ?_, ?_⟩
  · rw [Server.isAdmitted_iff, hpending] at hadm
    cases hadm
  · obtain ⟨m, hm, hboth⟩ := Option.map_eq_some_iff.mp hmark
    obtain ⟨hadm, hrefresh⟩ := Bool.and_eq_true_iff.mp hboth
    exact ⟨m, hm, hadm, hrefresh⟩

/-- It is a client-hello that asks for no more. -/
theorem AdmitsForCredential.hello (h : AdmitsForCredential cfg b e id) :
    ∃ conn json, e.2 = .message id (.text (.ok json)) ∧
      Server.Admits cfg b.server id (.text (.ok json)) ∧ b.server.connections.get id = some conn ∧
        (Server.Conn.ofHello conn json.revive).turnRefreshOnly = true := by
  obtain ⟨hbefore, hafter⟩ := h
  have hadm := Server.isAdmitted_iff.mp hafter.isAdmitted
  rcases @Server.admission_step cfg e.1 b.server e.2 id with
    ⟨-, hadmission⟩ | ⟨code, reason, -, hadmission⟩ | ⟨data, hevent, hadmits, -⟩ | hadmission
  · cases hadmission.symm.trans hadm
  · cases hadmission.symm.trans hadm
  · obtain ⟨hpending, json, hdata, hhello, hpass⟩ := hadmits
    subst hdata
    obtain ⟨conn, hget, hno⟩ := Option.map_eq_some_iff.mp hpending
    refine ⟨conn, json, hevent, ⟨hpending, json, rfl, hhello, hpass⟩, hget, ?_⟩
    have hstep : (b.step cfg e).server = (b.server.onMessage cfg e.1 id (.text (.ok json))).1 :=
      server_step_of_event hevent
    rw [hstep] at hafter
    exact Server.refresh_of_credentialOnly hget hno hafter
  · exact absurd (Server.isAdmitted_iff.mpr (hadmission.symm.trans hadm)) hbefore

/-! ### Gone for good -/

/-- The id was minted and has left the table. -/
def Gone (b : Bridge) (id : ConnId) : Prop :=
  b.server.admission id = none ∧ ∃ i, i ≤ b.connSeq ∧ id = mintConnId i

theorem Gone.step (h : b.Gone id) (he : b.Enabled cfg e) : (b.step cfg e).Gone id := by
  obtain ⟨hnone, i, hi, hid⟩ := h
  refine ⟨?_, i, hi.trans connSeq_le_step, hid⟩
  rcases @Server.admission_step cfg e.1 b.server e.2 id with
    ⟨hevent, -⟩ | ⟨code, reason, -, hadmission⟩ | ⟨data, -, hadmits, -⟩ | hadmission
  · exact absurd hevent (ne_connect_of_minted he ⟨i, hi, hid⟩)
  · exact hadmission
  · cases hnone.symm.trans hadmits.1
  · exact hadmission.trans hnone

/-- The connections admitted so far, and notices of the close of those that are gone. -/
def quietScope (b : Bridge) : Scope where
  admitted := (· ∈ b.everAdmitted)
  signalled _ := True
  left := b.Gone
  signalled_of_admitted _ _ := trivial

theorem spoken_quietScope_step (hspoken : b.Spoken cfg b.quietScope) (hb : b.Tracked)
    (he : b.Enabled cfg e) : (b.step cfg e).Spoken cfg (b.step cfg e).quietScope := by
  have hmono : b.Spoken cfg (b.step cfg e).quietScope :=
    hspoken.mono (fun connId h => mem_everAdmitted_step.mpr (Or.inl h)) (fun _ h => h) fun _ h => h.step he
  refine hmono.step hb he (fun _ h => h) (fun _ _ _ _ _ => trivial) fun c code reason hclosed _ _ _ _ => ?_
  have he' := he.of_event hclosed
  obtain ⟨i, hi, hid⟩ := hb.minted c (Or.inr (Server.has_iff_admission.mp he'))
  refine ⟨?_, i, hi.trans connSeq_le_step, hid⟩
  change (b.server.step cfg e.1 e.2).admission c = none
  rw [hclosed]
  exact (Server.admission_onClose c code reason c).trans (if_pos rfl)

theorem spoken_quietScope {es : List (Io × Event)}
    (h : (system cfg reportBound).Valid (init cfg reportBound) es) :
    ((system cfg reportBound).after (init cfg reportBound) es).Spoken cfg
      ((system cfg reportBound).after (init cfg reportBound) es).quietScope := by
  have hboth := System.Along.invariant
    (I := fun b : Bridge => b.Tracked ∧ b.Spoken cfg b.quietScope) ?_ ?_ h
  · exact hboth.2
  · exact fun b e hb he => ⟨tracked_step hb.1 he, spoken_quietScope_step hb.2 hb.1 he⟩
  · exact ⟨tracked_init reportBound, fun connId frame hmem => by cases hmem⟩

/-! ### Who is named -/

/-- No frame has named a connection that waits to be admitted. -/
theorem not_named_of_pending (hb : b.Tracked) (hspoken : b.Spoken cfg b.quietScope)
    (hpending : b.server.admission id = some false) {recipient : ConnId} {frame : Frame}
    (hmem : .frame recipient frame ∈ b.server.out) : id ∉ frame.names := by
  have hrid : id ≠ cfg.node.reservedId := ne_reservedId_of_isSome hb (by rw [hpending]; rfl)
  have hnew : id ∉ b.everAdmitted := fun hever => hb.kept id hever hpending
  have hallows := hspoken recipient frame hmem
  have hother : (∀ connId ∈ frame.names, connId ∈ b.everAdmitted ∨ connId = cfg.node.reservedId) →
      id ∉ frame.names := fun h hnamed => by
    rcases h id hnamed with hever | heq
    · exact hnew hever
    · exact hrid heq
  cases frame with
  | versionGate minPeerVersion serverT => exact List.not_mem_nil
  | signal sender payload =>
      refine hother fun connId hnamed => ?_
      rw [List.mem_singleton.mp hnamed]
      exact hallows.2
  | peerLeft peerId nodeId serverT =>
      intro hnamed
      have hgone : b.Gone id := List.mem_singleton.mp hnamed ▸ hallows.2
      cases hgone.1.symm.trans hpending
  | _ => exact hother hallows.2

/-- What the table does with the connection is not noticed: no list for another connection is drawn from
it, nobody is left to be told of its close, it signals to nobody else, and nobody is there for a credential
alone when `maybeGraduate` gets past its band. -/
structure Overlooked (cfg : Config) (id : ConnId) (b : Bridge) (e : Io × Event) : Prop where
  introduction : ∀ other conn json, other ≠ id → e.2 = .message other (.text (.ok json)) →
    Server.Introduces cfg b.server other conn json → id ∉ b.server.anchorPool cfg e.1 other
  relisted : ∀ other conn json, other ≠ id → e.2 = .message other (.text (.ok json)) →
    Server.Receives b.server other conn json (js "peer-list-request") → id ∉ b.server.admittedOthers other
  closed : ∀ code reason, e.2 = .closed id code reason →
    ∀ other, other ≠ id → b.server.IsAdmitted other → e.1.sendError other ≠ none
  signals : ∀ data dest, e.2 = .message id data → b.server.Signals id data dest → dest = id
  band : e.2 = .maybeGraduate → Server.GraduationDue cfg e.1 b.server →
    ∀ other, ¬b.server.CredentialOnly other

/-- An event that overlooks a connection says nothing of it to others. -/
theorem Overlooked.emits (h : Overlooked cfg id b e) (hb : b.Tracked) (hever : id ∈ b.everAdmitted) :
    Server.Emits (fun recipient frame => recipient ≠ id → id ∉ frame.names) b.server
      (b.step cfg e).server := by
  have hrid : id ≠ cfg.node.reservedId := by
    obtain ⟨i, -, rfl⟩ := hb.minted id (Or.inl hever)
    exact mintConnId_ne_reservedId i cfg.node.epoch
  refine (says_step b e).mono fun recipient frame hsays hne hnamed => ?_
  generalize hevent : e.2 = event at hsays
  cases hsays with
  | welcome hadmits => exact hne (List.mem_singleton.mp hnamed).symm
  | introduction hintro graduated =>
      rcases Server.mem_introductions hnamed with hmem | heq
      · have hpool := Server.mem_anchorPool_of_mem_introduce hmem
        rw [Server.anchorPool_greet] at hpool
        exact h.introduction _ _ _ hne hevent hintro hpool
      · exact hrid heq
  | joined hintro hadm hother =>
      have heq := List.mem_singleton.mp hnamed
      exact hb.kept id hever (heq ▸ hintro.admits.1)
  | relisted hreceives graduated =>
      rcases Server.mem_withReserved hnamed with hmem | heq
      · exact h.relisted _ _ _ hne hevent hreceives hmem
      · exact hrid heq
  | relay hsignals =>
      have heq := List.mem_singleton.mp hnamed
      subst heq
      exact hne (h.signals _ _ hevent hsignals)
  | left code reason hother hadm hsend =>
      have heq := List.mem_singleton.mp hnamed
      subst heq
      exact h.closed code reason hevent recipient hother hadm hsend
  | door payload hA => exact hrid (List.mem_singleton.mp hnamed)
  | _ => cases hnamed

/-- Nor does the admission itself. -/
theorem AdmitsForCredential.emits (h : AdmitsForCredential cfg b e id) (hb : b.Tracked) :
    Server.Emits (fun recipient frame => recipient ≠ id → id ∉ frame.names) b.server
      (b.step cfg e).server := by
  obtain ⟨conn, json, hevent, hadmits, hget, hrefresh⟩ := h.hello
  have hpending := hadmits.1
  have hrid : id ≠ cfg.node.reservedId := ne_reservedId_of_isSome hb (by rw [hpending]; rfl)
  refine (says_step b e).mono fun recipient frame hsays hne hnamed => ?_
  rw [hevent] at hsays
  cases hsays with
  | joined hintro hadm hother =>
      have hfull := hintro.full
      rw [Option.some.inj (hintro.get.symm.trans hget), hrefresh] at hfull
      cases hfull
  | relay hsignals => exact h.1 hsignals.1
  | door payload hA => exact hrid (List.mem_singleton.mp hnamed)
  | axona payload hA => cases hnamed
  | _ => exact hne rfl

/-- `maybeGraduate` goes by the number of admitted connections without those that are there for a credential
alone: it compares that number with the band, and writes it in its row. -/
def BandLeavesOut (cfg : Config) (b : Bridge) (e : Io × Event) : Prop :=
  e.2 = .maybeGraduate →
    (b.step cfg e).server = b.server.maybeGraduateCounting cfg e.1 b.server.ordinary.length

theorem Overlooked.bandLeavesOut (h : Overlooked cfg id b e) : BandLeavesOut cfg b e := fun hevent =>
  (server_step_of_event hevent).trans (Server.maybeGraduate_eq_ordinary (h.band hevent))

/-! ### The run -/

/-- Nobody else hears of the connection, and it is bound to no identity. -/
structure Unnoticed (b : Bridge) (id : ConnId) : Prop where
  unnamed : ∀ recipient frame, .frame recipient frame ∈ b.server.out → recipient ≠ id → id ∉ frame.names
  unbound : b.server.connNodeHex id = none

/-- What keeps the connection unnoticed from its admission on. -/
structure Hidden (b : Bridge) (id : ConnId) : Prop where
  tracked : b.Tracked
  ever : id ∈ b.everAdmitted
  ungreeted : b.server.node.Ungreeted id
  unbound : b.server.node.bindings.reverse.get id = none
  unnamed : ∀ recipient frame, .frame recipient frame ∈ b.server.out → recipient ≠ id → id ∉ frame.names

theorem Hidden.unnoticed (h : b.Hidden id) : b.Unnoticed id where
  unnamed := h.unnamed
  unbound := congrArg (Option.map idToHex) h.unbound

theorem Hidden.step (h : b.Hidden id) (he : b.Enabled cfg e) (hover : Overlooked cfg id b e) :
    (b.step cfg e).Hidden id where
  tracked := tracked_step h.tracked he
  ever := mem_everAdmitted_step.mpr (Or.inl h.ever)
  ungreeted := Server.ungreeted_step h.ungreeted e.2 fun _ _ hadmits =>
    absurd hadmits.1 (h.tracked.kept id h.ever)
  unbound := Server.unbound_step h.ungreeted h.unbound e.2
  unnamed recipient frame hmem := by
    rcases (hover.emits h.tracked h.ever).mem hmem with hold | hsaid
    · exact h.unnamed recipient frame hold
    · exact hsaid

/-- The admission of a connection nobody was told of. -/
theorem hidden_of_admitsForCredential (hb : b.Tracked) (hspoken : b.Spoken cfg b.quietScope)
    (he : b.Enabled cfg e) (h : AdmitsForCredential cfg b e id) : (b.step cfg e).Hidden id := by
  obtain ⟨conn, json, hevent, hadmits, hget, hrefresh⟩ := h.hello
  have hnew : id ∉ b.everAdmitted := fun hever => hb.kept id hever hadmits.1
  have hungreeted : b.server.node.Ungreeted id :=
    { nonce := JsMap.not_mem_keys_iff.mp fun hmem => hnew (hb.node.nonce id hmem)
      verifying := fun v hv heq => hnew (heq ▸ hb.node.verifying v hv) }
  have hunbound : b.server.node.bindings.reverse.get id = none := by
    cases hbound : b.server.node.bindings.reverse.get id with
    | none => rfl
    | some nodeId => exact absurd (hb.node.transport.reverse id nodeId hbound) hnew
  refine ⟨tracked_step hb he, ?_, ?_, Server.unbound_step hungreeted hunbound e.2, ?_⟩
  · exact mem_everAdmitted_step.mpr (Or.inr h.2.isAdmitted)
  · refine Server.ungreeted_step hungreeted e.2 fun data hdata _ => ?_
    obtain rfl : data = .text (.ok json) := (Event.message.inj (hdata.symm.trans hevent)).2
    rw [hdata]
    exact Server.node_onMessage_credential hadmits hget hrefresh
  · intro recipient frame hmem hne
    rcases (h.emits hb).mem hmem with hold | hsaid
    · exact not_named_of_pending hb hspoken hadmits.1 hold
    · exact hsaid hne

/-- **Back for a credential**: from its admission on nobody else hears of the connection, it is bound to
no identity, and the band leaves it and its like out, in every run that overlooks it. -/
theorem unnoticed_of_overlooked (cfg : Config) (reportBound : Bool) {es₁ es₂ : List (Io × Event)}
    {e : Io × Event} {id : ConnId}
    (hes : (system cfg reportBound).Valid (init cfg reportBound) (es₁ ++ e :: es₂))
    (hid : AdmitsForCredential cfg ((system cfg reportBound).after (init cfg reportBound) es₁) e id)
    (h : (system cfg reportBound).Along (Overlooked cfg id)
      ((system cfg reportBound).after (init cfg reportBound) (es₁ ++ [e])) es₂) :
    ((system cfg reportBound).after (init cfg reportBound) (es₁ ++ e :: es₂)).Unnoticed id ∧
      (system cfg reportBound).Along (BandLeavesOut cfg)
        ((system cfg reportBound).after (init cfg reportBound) (es₁ ++ [e])) es₂ := by
  obtain ⟨hbefore, henabled, hafter⟩ := System.along_append.mp hes
  have hstart := hidden_of_admitsForCredential (tracked_of_valid hbefore) (spoken_quietScope hbefore)
    henabled hid
  rw [System.after_append] at h ⊢
  rw [System.after_append]
  have hend := System.Along.invariant (I := fun b : Bridge => b.Hidden id)
    (fun b e hb hC => hb.step hC.1 hC.2) hstart (System.along_and.mpr ⟨hafter, h⟩)
  exact ⟨hend.unnoticed, h.mono fun _ _ hover => hover.bandLeavesOut⟩

/-- The client-hello of a client that is back for a credential. -/
def credentialHello : Server.Inbound :=
  .text (.ok (.obj [(js "type", .str (js "client-hello")), (js "version", .str (js "4.0.0")),
    (js "wireVersion", .str (js "4.0")), (js "intent", .str (js "turn-refresh"))]))

/-- A connection opens. -/
def opens : List (Io × Event) := [({}, .connect (js "c1"))]

/-- It asks for a credential. -/
def asksForCredential : Io × Event := ({}, .message (js "c1") credentialHello)

/-- It is released, and goes. -/
def goesAgain : List (Io × Event) := [({}, .turnRelease (js "c1")), ({}, .closed (js "c1") 4200 [])]

theorem admitsForCredential_opens : AdmitsForCredential Server.plain
    ((system Server.plain false).after (init Server.plain false) opens) asksForCredential (js "c1") :=
  admitsForCredential_of_mark (by decide +kernel) (by decide +kernel)

theorem valid_goesAgain : (system Server.plain false).Valid (init Server.plain false)
    (opens ++ asksForCredential :: goesAgain) := by
  have htimer : (((system Server.plain false).after (init Server.plain false)
      (opens ++ [asksForCredential])).server.connections.get (js "c1")).map Conn.releaseTimer =
        some true := by decide +kernel
  refine ⟨?_, ?_, Option.map_eq_some_iff.mp htimer, ?_, trivial⟩
  · change js "c1" = mintConnId 1
    decide +kernel
  · change JsMap.has _ _ = true
    decide +kernel
  · change JsMap.has _ _ = true
    decide +kernel

/-- With nobody else there it goes unnoticed. -/
theorem unnoticed_goesAgain : ((system Server.plain false).after (init Server.plain false)
    (opens ++ asksForCredential :: goesAgain)).Unnoticed (js "c1") := by
  refine (@unnoticed_of_overlooked Server.plain false opens goesAgain asksForCredential (js "c1")
    valid_goesAgain admitsForCredential_opens ?_).1
  refine ⟨?_, ?_, trivial⟩
  · exact {
      introduction := fun _ _ _ _ hevent => by cases hevent
      relisted := fun _ _ _ _ hevent => by cases hevent
      closed := fun _ _ hevent => by cases hevent
      signals := fun _ _ hevent => by cases hevent
      band := fun hevent => by cases hevent }
  · have halone : ((system Server.plain false).after (init Server.plain false)
        (opens ++ [asksForCredential, ({}, .turnRelease (js "c1"))])).server.admittedIds =
          [js "c1"] := by decide +kernel
    exact {
      introduction := fun _ _ _ _ hevent => by cases hevent
      relisted := fun _ _ _ _ hevent => by cases hevent
      closed := fun _ _ _ other hne hadm => by
        have hmem : other ∈ ((system Server.plain false).after (init Server.plain false)
          (opens ++ [asksForCredential, ({}, .turnRelease (js "c1"))])).server.admittedIds :=
            Server.mem_admittedIds.mpr hadm
        rw [halone] at hmem
        exact absurd (List.mem_singleton.mp hmem) hne
      signals := fun _ _ hevent => by cases hevent
      band := fun hevent => by cases hevent }

/-- Another connection is there first. -/
def opensSecond : List (Io × Event) :=
  [({}, .connect (js "c1")), ({}, .message (js "c1") presentHello), ({}, .connect (js "c2"))]

/-- The second asks for a credential while the first stays. -/
def asksBeside : Io × Event := ({}, .message (js "c2") credentialHello)

/-- The first asks for its peers, and the second goes. -/
def goesBeside : List (Io × Event) :=
  [({}, .message (js "c1") peerListRequest), ({}, .closed (js "c2") 4200 [])]

theorem admitsForCredential_opensSecond : AdmitsForCredential Server.plain
    ((system Server.plain false).after (init Server.plain false) opensSecond) asksBeside (js "c2") :=
  admitsForCredential_of_mark (by decide +kernel) (by decide +kernel)

/-- The first is sent the second on its list, and told of its close. -/
theorem not_unnoticed_goesBeside :
    (system Server.plain false).Valid (init Server.plain false) (opensSecond ++ asksBeside :: goesBeside) ∧
      AdmitsForCredential Server.plain
        ((system Server.plain false).after (init Server.plain false) opensSecond) asksBeside (js "c2") ∧
      ¬((system Server.plain false).after (init Server.plain false)
        (opensSecond ++ asksBeside :: goesBeside)).Unnoticed (js "c2") := by
  refine ⟨valid_of_openRun (by decide +kernel), admitsForCredential_opensSecond, fun h => ?_⟩
  have hlisted : ((system Server.plain false).after (init Server.plain false)
      (opensSecond ++ asksBeside :: goesBeside)).server.out.any
        (Out.isListFor (js "c1") [js "c2"] 0) = true := by decide +kernel
  obtain ⟨o, hmem, ho⟩ := List.any_eq_true.mp hlisted
  obtain ⟨graduated, rfl⟩ := Out.exists_of_isListFor ho
  exact h.unnamed _ _ hmem (by decide +kernel) (List.mem_singleton_self _)

end Bridge

end AxonaBridge
