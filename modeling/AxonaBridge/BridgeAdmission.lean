import AxonaBridge.ServerScope

/-!
# Connections that are turned away

A close called on a pending connection leaves it pending, and the message handler does not look
whether it was called: a client-hello that the gate lets through admits the connection as long as it
is in the table. Runs in which no such hello arrives introduce no connection that was turned away.
-/

open JsText

namespace AxonaBridge

/-! ### The ids the counter mints -/

theorem mintConnId_injective {i j : Nat} (h : mintConnId i = mintConnId j) : i = j :=
  natToString_injective (by omega) (by omega) (List.cons.inj h).2

/-- No connection bears the bridge's own id. -/
theorem mintConnId_ne_reservedId (seq : Nat) (epoch : JsString) :
    mintConnId seq ≠ SocketBootstrap.reservedId epoch := by
  intro h
  have htail : natToString 36 seq = (js "c-self-" ++ epoch).tail := (List.cons.inj h).2
  refine @minus_notMem_natToString 36 (by omega) (by omega) seq ?_
  rw [htail]
  exact List.mem_cons_self

namespace Scope

/-- A frame stays allowed when more connections are admitted. -/
theorem Allows.mono {S S' : Scope} {rid recipient : ConnId} {frame : Frame}
    (hadmitted : ∀ connId, S.admitted connId → S'.admitted connId)
    (hsignalled : ∀ connId, S.signalled connId → S'.signalled connId)
    (hleft : ∀ connId, S.left connId → S'.left connId)
    (h : S.Allows rid recipient frame) : S'.Allows rid recipient frame := by
  cases frame with
  | versionGate minPeerVersion serverT => trivial
  | signal sender payload => exact ⟨hsignalled recipient h.1, h.2.imp_left (hadmitted sender)⟩
  | peerLeft peerId nodeId serverT => exact ⟨hadmitted recipient h.1, hleft peerId h.2⟩
  | _ => exact ⟨hadmitted recipient h.1, fun connId hmem => (h.2 connId hmem).imp_left (hadmitted connId)⟩

end Scope

namespace Bridge

variable {cfg : Config}

theorem mem_everAdmitted_step {b : Bridge} {e : Io × Event} {connId : ConnId} :
    connId ∈ (b.step cfg e).everAdmitted ↔
      connId ∈ b.everAdmitted ∨ (b.step cfg e).server.IsAdmitted connId := by
  unfold step
  rw [List.mem_append, Server.mem_admittedIds]

theorem mem_everAdmitted_after {reportBound : Bool} {b : Bridge} {es : List (Io × Event)}
    {connId : ConnId} (h : connId ∈ b.everAdmitted) :
    connId ∈ ((system cfg reportBound).after b es).everAdmitted := by
  induction es generalizing b with
  | nil => exact h
  | cons e es ih => exact ih (mem_everAdmitted_step.mpr (Or.inl h))

/-- What the bridge keeps track of: the connections of its table are minted and admitted for good,
and its node knows of admitted ones only. -/
structure Tracked (b : Bridge) : Prop where
  admitted : ∀ connId, b.server.IsAdmitted connId → connId ∈ b.everAdmitted
  node : b.server.node.Knows (· ∈ b.everAdmitted)
  minted : ∀ connId, connId ∈ b.everAdmitted ∨ (b.server.admission connId).isSome = true →
    ∃ i, i ≤ b.connSeq ∧ connId = mintConnId i
  kept : ∀ connId ∈ b.everAdmitted, b.server.admission connId ≠ some false

theorem connSeq_le_step {b : Bridge} {e : Io × Event} : b.connSeq ≤ (b.step cfg e).connSeq := by
  unfold step
  dsimp only
  split <;> omega

theorem Enabled.of_event {b : Bridge} {e : Io × Event} {event : Event} (he : b.Enabled cfg e)
    (h : e.2 = event) : b.Enabled cfg (e.1, event) := by
  rw [← h]
  exact he

theorem server_step_of_event {b : Bridge} {e : Io × Event} {event : Event} (h : e.2 = event) :
    (b.step cfg e).server = b.server.step cfg e.1 event := by
  rw [← h]
  rfl

theorem connSeq_step_connect {b : Bridge} {e : Io × Event} {connId : ConnId} (h : e.2 = .connect connId) :
    (b.step cfg e).connSeq = b.connSeq + 1 := by
  unfold step
  rw [h]

/-- A minted id is not minted again. -/
theorem ne_connect_of_minted {b : Bridge} {e : Io × Event} {connId : ConnId} (he : b.Enabled cfg e)
    (h : ∃ i, i ≤ b.connSeq ∧ connId = mintConnId i) : e.2 ≠ .connect connId := by
  intro hconnect
  obtain ⟨i, hi, hid⟩ := h
  have hfresh : connId = mintConnId (b.connSeq + 1) := he.of_event hconnect
  have := mintConnId_injective (hid.symm.trans hfresh)
  omega

/-- The door keys the mesh uses are of connections the node knows of. -/
theorem mem_everAdmitted_of_doorToken {b : Bridge} (hb : b.Tracked) {e : Io × Event}
    (he : b.Enabled cfg e) {token : JsString} {connId : ConnId} (htoken : e.2.doorToken = some token)
    (hkey : cfg.node.ownDoorKey token = some connId) : connId ∈ b.everAdmitted := by
  have hsink : ∀ token', b.SinkEnabled cfg token' → token' = token → connId ∈ b.everAdmitted := by
    intro token' hsink heq
    exact hb.node.negotiated connId (hsink connId (heq ▸ hkey))
  obtain ⟨io, e⟩ := e
  cases e with
  | doorSink key payload => exact hsink key he (Option.some.inj htoken)
  | doorBind nodeId token' input => exact hsink token' he (Option.some.inj htoken)
  | routeToDoor nodeId token' => exact hsink token' he (Option.some.inj htoken)
  | _ => cases htoken

theorem tracked_step {b : Bridge} (hb : b.Tracked) {e : Io × Event} (he : b.Enabled cfg e) :
    (b.step cfg e).Tracked := by
  have hadmission := fun connId => @Server.admission_step cfg e.1 b.server e.2 connId
  have hfresh : ∀ connId, e.2 = .connect connId →
      connId = mintConnId (b.connSeq + 1) ∧ (b.step cfg e).connSeq = b.connSeq + 1 :=
    fun connId hconnect => ⟨he.of_event hconnect, connSeq_step_connect hconnect⟩
  constructor
  · exact fun connId h => mem_everAdmitted_step.mpr (Or.inr h)
  · have hmono : b.server.node.Knows (· ∈ (b.step cfg e).everAdmitted) :=
      hb.node.mono fun connId h => mem_everAdmitted_step.mpr (Or.inl h)
    refine Server.knows_step hmono e.2 (fun connId h => ?_) (fun connId h => ?_) fun token connId ht hk => ?_
    · exact mem_everAdmitted_step.mpr (Or.inl (hb.admitted connId h))
    · exact mem_everAdmitted_step.mpr (Or.inr h)
    · exact mem_everAdmitted_step.mpr (Or.inl (mem_everAdmitted_of_doorToken hb he ht hk))
  · intro connId h
    have hold : connId ∈ b.everAdmitted ∨ (b.server.admission connId).isSome = true →
        ∃ i, i ≤ (b.step cfg e).connSeq ∧ connId = mintConnId i := by
      intro h
      obtain ⟨i, hi, heq⟩ := hb.minted connId h
      exact ⟨i, hi.trans connSeq_le_step, heq⟩
    have hpresent : ((b.step cfg e).server.admission connId).isSome = true →
        ∃ i, i ≤ (b.step cfg e).connSeq ∧ connId = mintConnId i := by
      intro h
      rcases hadmission connId with ⟨hc, -⟩ | ⟨_, _, -, hnone⟩ | ⟨_, -, hadmits, -⟩ | hsame
      · obtain ⟨hid, hseq⟩ := hfresh connId hc
        exact ⟨b.connSeq + 1, hseq.ge, hid⟩
      · rw [show (b.step cfg e).server.admission connId = none from hnone] at h
        cases h
      · exact hold (Or.inr (by rw [hadmits.1]; rfl))
      · exact hold (Or.inr (hsame ▸ h))
    rcases h with h | h
    · rcases mem_everAdmitted_step.mp h with h | h
      · exact hold (Or.inl h)
      · exact hpresent (by rw [Server.isAdmitted_iff.mp h]; rfl)
    · exact hpresent h
  · intro connId h hfalse
    rcases mem_everAdmitted_step.mp h with h | h
    · rcases hadmission connId with ⟨hc, -⟩ | ⟨_, _, -, hnone⟩ | ⟨_, -, -, htrue⟩ | hsame
      · exact absurd hc (ne_connect_of_minted he (hb.minted connId (Or.inl h)))
      · cases hnone.symm.trans hfalse
      · cases htrue.symm.trans hfalse
      · exact hb.kept connId h (hsame.symm.trans hfalse)
    · cases (Server.isAdmitted_iff.mp h).symm.trans hfalse

theorem tracked_init (reportBound : Bool) : (init cfg reportBound).Tracked where
  admitted connId h := by
    obtain ⟨conn, hget, -⟩ := h
    cases hget
  node :=
    { transport := ⟨fun _ _ h => (by cases h), fun _ _ h => (by cases h)⟩
      hello := fun _ h => by cases h
      nonce := fun _ h => by cases h
      hellos := fun _ h => by cases h
      verifying := fun _ h => by cases h
      acks := fun _ h => by cases h
      handling := fun _ h => by cases h
      negotiated := fun _ h => by cases h
      bound := fun _ h => by cases h }
  minted connId h := by
    rcases h with h | h
    · cases h
    · cases h
  kept connId h := by cases h

theorem tracked_of_valid {reportBound : Bool} {es : List (Io × Event)}
    (h : (system cfg reportBound).Valid (init cfg reportBound) es) :
    ((system cfg reportBound).after (init cfg reportBound) es).Tracked :=
  h.invariant (tracked_init reportBound) fun _ _ hb he => tracked_step hb he

/-! ### What has been sent -/

/-- Every frame sent so far is one the scope allows. -/
def Spoken (cfg : Config) (S : Scope) (b : Bridge) : Prop :=
  ∀ connId frame, .frame connId frame ∈ b.server.out → S.Allows cfg.node.reservedId connId frame

theorem says_step (b : Bridge) (e : Io × Event) :
    Server.Emits (Server.Says cfg e.1 (fun _ => True) b.server e.2) b.server (b.step cfg e).server :=
  Server.says_step e.2 (Node.Knows.any _) (fun _ _ => trivial) fun _ _ _ _ => trivial

theorem emits_step {b : Bridge} (hb : b.Tracked) {e : Io × Event} (he : b.Enabled cfg e) {S : Scope}
    (hS : ∀ connId ∈ (b.step cfg e).everAdmitted, S.admitted connId)
    (hdest : ∀ id data dest, e.2 = .message id data → b.server.Signals id data dest →
      S.signalled dest)
    (hleft : ∀ id code reason, e.2 = .closed id code reason → ∀ connId, connId ≠ id →
      b.server.IsAdmitted connId → e.1.sendError connId = none → S.left id) :
    Server.Emits (S.Allows cfg.node.reservedId) b.server (b.step cfg e).server := by
  have hold : ∀ connId ∈ b.everAdmitted, S.admitted connId := fun connId h =>
    hS connId (mem_everAdmitted_step.mpr (Or.inl h))
  refine Server.emits_step e.2 (hb.node.mono hold) (fun connId h => ?_) (fun connId h => ?_)
    (fun token connId ht hk => ?_) hdest hleft
  · exact hold connId (hb.admitted connId h)
  · exact hS connId (mem_everAdmitted_step.mpr (Or.inr h))
  · exact hold connId (mem_everAdmitted_of_doorToken hb he ht hk)

theorem Spoken.step {b : Bridge} {S : Scope} (hspoken : b.Spoken cfg S) (hb : b.Tracked)
    {e : Io × Event} (he : b.Enabled cfg e)
    (hS : ∀ connId ∈ (b.step cfg e).everAdmitted, S.admitted connId)
    (hdest : ∀ id data dest, e.2 = .message id data → b.server.Signals id data dest →
      S.signalled dest)
    (hleft : ∀ id code reason, e.2 = .closed id code reason → ∀ connId, connId ≠ id →
      b.server.IsAdmitted connId → e.1.sendError connId = none → S.left id) :
    (b.step cfg e).Spoken cfg S := by
  intro connId frame hmem
  rcases (emits_step hb he hS hdest hleft).mem hmem with hmem | hallows
  · exact hspoken connId frame hmem
  · exact hallows

theorem Spoken.mono {b : Bridge} {S S' : Scope} (h : b.Spoken cfg S)
    (hadmitted : ∀ connId, S.admitted connId → S'.admitted connId)
    (hsignalled : ∀ connId, S.signalled connId → S'.signalled connId)
    (hleft : ∀ connId, S.left connId → S'.left connId) : b.Spoken cfg S' := fun connId frame hmem =>
  (h connId frame hmem).mono hadmitted hsignalled hleft

/-! ### Turned away -/

/-- The connections admitted so far, with signals and notices of a close to and of any. -/
def looseScope (b : Bridge) : Scope where
  admitted := (· ∈ b.everAdmitted)
  signalled _ := True
  left _ := True
  signalled_of_admitted _ _ := trivial

theorem spoken_looseScope_step {b : Bridge} (hspoken : b.Spoken cfg b.looseScope) (hb : b.Tracked)
    {e : Io × Event} (he : b.Enabled cfg e) :
    (b.step cfg e).Spoken cfg (b.step cfg e).looseScope := by
  have hmono : b.Spoken cfg (b.step cfg e).looseScope :=
    hspoken.mono (fun connId h => mem_everAdmitted_step.mpr (Or.inl h)) (fun _ h => h) fun _ h => h
  exact hmono.step hb he (fun _ h => h) (fun _ _ _ _ _ => trivial) fun _ _ _ _ _ _ _ _ => trivial

theorem spoken_of_valid {reportBound : Bool} {es : List (Io × Event)}
    (h : (system cfg reportBound).Valid (init cfg reportBound) es) :
    ((system cfg reportBound).after (init cfg reportBound) es).Spoken cfg
      ((system cfg reportBound).after (init cfg reportBound) es).looseScope := by
  have hboth := System.Along.invariant
    (I := fun b : Bridge => b.Tracked ∧ b.Spoken cfg b.looseScope) ?_ ?_ h
  · exact hboth.2
  · exact fun b e hb he => ⟨tracked_step hb.1 he, spoken_looseScope_step hb.2 hb.1 he⟩
  · exact ⟨tracked_init reportBound, fun connId frame hmem => by cases hmem⟩

/-- A close under the code of a refused or a missing client-hello has been called on a connection
that is still in the table and not admitted. -/
def TurnedAway (b : Bridge) (id : ConnId) : Prop :=
  b.server.admission id = some false ∧
    ∃ code reason threw, .close id code reason threw ∈ b.server.out ∧
      (code = upgradeRequired ∨ code = helloTimeoutCode)

/-- Nobody has heard of the connection, and it has been sent neither a welcome nor a hello. -/
structure NotIntroduced (b : Bridge) (id : ConnId) : Prop where
  admitted : id ∉ b.everAdmitted
  welcome : ∀ frame, .frame id frame ∈ b.server.out → frame.type ≠ js "welcome"
  named : ∀ connId frame, .frame connId frame ∈ b.server.out →
    frame.type = js "peer-list" ∨ frame.type = js "peer-joined" → id ∉ frame.names
  hello : id ∉ b.server.node.helloByConnId.keys ∧ id ∉ b.server.node.hellos

/-- No client-hello that the gate lets through arrives on a connection that was turned away. -/
def StaysAway (cfg : Config) (b : Bridge) (e : Io × Event) : Prop :=
  ∀ id data, e.2 = .message id data → b.TurnedAway id → ¬Server.Admits cfg b.server id data

theorem notIntroduced_of_not_mem {b : Bridge} (hb : b.Tracked) (hspoken : b.Spoken cfg b.looseScope)
    {id : ConnId} (hid : id ∉ b.everAdmitted) (hrid : id ≠ cfg.node.reservedId) :
    b.NotIntroduced id := by
  refine ⟨hid, fun frame hmem htype => ?_, fun connId frame hmem htype hnamed => ?_, ?_, ?_⟩
  · have hallows := hspoken id frame hmem
    cases frame with
    | welcome => exact hid hallows.1
    | _ =>
        simp only [Frame.type] at htype
        exact absurd htype (by decide)
  · have hallows := hspoken connId frame hmem
    cases frame with
    | peerList => exact (hallows.2 id hnamed).elim hid hrid
    | peerJoined => exact (hallows.2 id hnamed).elim hid hrid
    | _ =>
        simp only [Frame.type] at htype
        exact absurd htype (by decide)
  · exact fun h => hid (hb.node.hello id h)
  · exact fun h => hid (hb.node.hellos id h)

/-- What holds of a connection from the moment it was turned away, as long as no step admits it. -/
structure Away (cfg : Config) (id : ConnId) (b : Bridge) : Prop where
  tracked : b.Tracked
  spoken : b.Spoken cfg b.looseScope
  notAdmitted : id ∉ b.everAdmitted
  minted : ∃ i, i ≤ b.connSeq ∧ id = mintConnId i
  goneOrAway : b.server.admission id = none ∨ b.TurnedAway id

theorem Away.step {id : ConnId} {b : Bridge} (h : Away cfg id b) {e : Io × Event}
    (he : b.Enabled cfg e) (hstays : b.StaysAway cfg e) : Away cfg id (b.step cfg e) := by
  have hsent : Server.Emits ((b.step cfg e).looseScope.Allows cfg.node.reservedId) b.server
      (b.step cfg e).server :=
    emits_step h.tracked he (fun _ h => h) (fun _ _ _ _ _ => trivial) fun _ _ _ _ _ _ _ _ => trivial
  have hstep : (b.step cfg e).server.admission id = none ∨ (b.step cfg e).TurnedAway id := by
    rcases @Server.admission_step cfg e.1 b.server e.2 id with
      ⟨hc, -⟩ | ⟨_, _, -, hnone⟩ | ⟨data, hmessage, hadmits, -⟩ | hsame
    · exact absurd hc (ne_connect_of_minted he h.minted)
    · exact Or.inl hnone
    · rcases h.goneOrAway with hgone | haway
      · cases hgone.symm.trans hadmits.1
      · exact absurd hadmits (hstays id data hmessage haway)
    · rcases h.goneOrAway with hgone | ⟨hfalse, code, reason, threw, hclose, hcode⟩
      · exact Or.inl (hsame.trans hgone)
      · exact Or.inr ⟨hsame.trans hfalse, code, reason, threw, hsent.out_mem hclose, hcode⟩
  have hnotAdmitted : ¬(b.step cfg e).server.IsAdmitted id := by
    intro hadm
    rw [Server.isAdmitted_iff] at hadm
    rcases hstep with hnone | haway
    · cases hnone.symm.trans hadm
    · cases haway.1.symm.trans hadm
  obtain ⟨i, hi, heq⟩ := h.minted
  exact {
    tracked := tracked_step h.tracked he
    spoken := spoken_looseScope_step h.spoken h.tracked he
    notAdmitted := fun hmem => (mem_everAdmitted_step.mp hmem).elim h.notAdmitted hnotAdmitted
    minted := ⟨i, hi.trans connSeq_le_step, heq⟩
    goneOrAway := hstep }

section Runs

variable (cfg : Config) (reportBound : Bool) (es : List (Io × Event))

/-- **Turned away for good.** In a run from the start, every connection that was turned away stays
unknown to all others exactly when no client-hello that passes the gate arrives on such a connection. -/
theorem notIntroduced_iff (hes : (system cfg reportBound).Valid (init cfg reportBound) es) :
    (∀ es₁ es₂ es₃ id, es = es₁ ++ es₂ ++ es₃ →
      ((system cfg reportBound).after (init cfg reportBound) es₁).TurnedAway id →
        ((system cfg reportBound).after (init cfg reportBound) (es₁ ++ es₂)).NotIntroduced id) ↔
      (system cfg reportBound).Along (StaysAway cfg) (init cfg reportBound) es := by
  constructor
  · intro h
    rw [System.along_iff_split]
    intro es₁ e es₂ hsplit id data hmessage haway hadmits
    have hni := h es₁ [e] es₂ id (by rw [hsplit, List.append_assoc, List.singleton_append]) haway
    refine hni.admitted ?_
    rw [System.after_append]
    refine mem_everAdmitted_step.mpr (Or.inr (Server.isAdmitted_iff.mpr ?_))
    unfold step
    rw [hmessage]
    exact ((Server.admission_onMessage id data id).1 hadmits).trans (if_pos rfl)
  · intro hstays es₁ es₂ es₃ id hsplit haway
    rw [hsplit, System.Valid, System.along_append, System.along_append] at hes
    rw [hsplit, System.along_append, System.along_append] at hstays
    have htracked : ((system cfg reportBound).after (init cfg reportBound) es₁).Tracked :=
      tracked_of_valid hes.1.1
    have hspoken := spoken_of_valid hes.1.1
    have hstart : Away cfg id ((system cfg reportBound).after (init cfg reportBound) es₁) := {
      tracked := htracked
      spoken := hspoken
      notAdmitted := fun hmem => htracked.kept id hmem haway.1
      minted := htracked.minted id (Or.inr (by rw [haway.1]; rfl))
      goneOrAway := Or.inr haway }
    have hend := System.Along.invariant (fun b e (h : Away cfg id b) hC => h.step hC.1 hC.2) hstart
      (System.along_and.mpr ⟨hes.1.2, hstays.1.2⟩)
    rw [System.after_append]
    refine notIntroduced_of_not_mem hend.tracked hend.spoken hend.notAdmitted ?_
    obtain ⟨i, -, heq⟩ := hend.minted
    rw [heq]
    exact mintConnId_ne_reservedId i cfg.node.epoch

end Runs

/-! ### Runs whose events alone say that they can happen -/

/-- The run opens connections in turn and uses the open ones, from `conns` and the `seq`-th on; no timer
of a connection fires and no door is used. -/
def openRun : List ConnId → Nat → List (Io × Event) → Bool
  | _, _, [] => true
  | conns, seq, e :: es =>
      match e.2 with
      | .connect connId => connId = mintConnId (seq + 1) && openRun (connId :: conns) (seq + 1) es
      | .message connId _ => connId ∈ conns && openRun conns seq es
      | .closed connId _ _ => connId ∈ conns && openRun (conns.filter (· ≠ connId)) seq es
      | .helloTimeout _ | .turnRelease _ | .requestTimeout _ => false
      | .doorSink .. | .doorBind .. | .routeToDoor .. => false
      | _ => openRun conns seq es

theorem valid_of_openRun_from {reportBound : Bool} {b : Bridge} {conns : List ConnId}
    {es : List (Io × Event)} (hopen : ∀ connId ∈ conns, b.server.connections.has connId = true)
    (h : openRun conns b.connSeq es = true) : (system cfg reportBound).Valid b es := by
  induction es generalizing b conns with
  | nil => trivial
  | cons e es ih =>
      obtain ⟨io, e⟩ := e
      have hstays : ∀ connId ∈ conns, (∀ code reason, e ≠ .closed connId code reason) →
          (b.step cfg (io, e)).server.connections.has connId = true := fun connId hmem hnot =>
        Server.has_step (hopen connId hmem) hnot
      cases e with
      | connect id =>
          obtain ⟨hid, hrest⟩ := Bool.and_eq_true_iff.mp h
          have hminted : id = mintConnId (b.connSeq + 1) := of_decide_eq_true hid
          refine ⟨hminted, @ih _ (id :: conns) (fun connId hmem => ?_) hrest⟩
          rcases List.mem_cons.mp hmem with rfl | hmem
          · rw [Server.has_iff_admission]
            exact congrArg Option.isSome ((Server.admission_onConnection connId connId).trans (if_pos rfl))
          · exact hstays connId hmem fun _ _ hclosed => by cases hclosed
      | message id data =>
          obtain ⟨hid, hrest⟩ := Bool.and_eq_true_iff.mp h
          refine ⟨hopen id (of_decide_eq_true hid), ih (fun connId hmem => ?_) hrest⟩
          exact hstays connId hmem fun _ _ hclosed => by cases hclosed
      | closed id code reason =>
          obtain ⟨hid, hrest⟩ := Bool.and_eq_true_iff.mp h
          refine ⟨hopen id (of_decide_eq_true hid), ih (fun connId hmem => ?_) hrest⟩
          obtain ⟨hmem, hne⟩ := List.mem_filter.mp hmem
          refine hstays connId hmem fun _ _ hclosed => ?_
          cases hclosed
          exact of_decide_eq_true hne rfl
      | helloTimeout id => cases h
      | turnRelease id => cases h
      | requestTimeout promise => cases h
      | doorSink key payload => cases h
      | doorBind nodeId token input => cases h
      | routeToDoor nodeId token => cases h
      | _ =>
          refine ⟨trivial, ih (fun connId hmem => ?_) h⟩
          exact hstays connId hmem fun _ _ hclosed => by cases hclosed

theorem valid_of_openRun {reportBound : Bool} {es : List (Io × Event)} (h : openRun [] 0 es = true) :
    (system cfg reportBound).Valid (init cfg reportBound) es :=
  valid_of_openRun_from (fun _ hmem => by cases hmem) h

/-- A connection that sends no client-hello is closed for it, and goes. -/
def timedOut : List (Io × Event) :=
  [({ now := 1 }, .connect (js "c1")), ({ now := 2000 }, .heartbeat), ({ now := 4000 }, .heartbeat),
    ({ now := 5001 }, .helloTimeout (js "c1")), ({ now := 5002 }, .closed (js "c1") 4408 [])]

theorem valid_timedOut :
    (system Server.plain false).Valid (init Server.plain false) timedOut := by
  refine ⟨?_, trivial, trivial, ⟨_, rfl, rfl⟩, ?_, trivial⟩
  · change js "c1" = mintConnId 1
    decide +kernel
  · change JsMap.has _ _ = true
    decide +kernel

theorem notIntroduced_timedOut :
    (∀ es₁ es₂ es₃ id, timedOut = es₁ ++ es₂ ++ es₃ →
      ((system Server.plain false).after (init Server.plain false) es₁).TurnedAway id →
        ((system Server.plain false).after (init Server.plain false) (es₁ ++ es₂)).NotIntroduced id) ↔
      (system Server.plain false).Along (StaysAway Server.plain) (init Server.plain false) timedOut :=
  notIntroduced_iff Server.plain false timedOut valid_timedOut

/-- The hello timer closes the connection, and a client-hello that was on its way arrives before the
close is complete. -/
def helloTooLate : List (Io × Event) :=
  [({ now := 1 }, .connect (js "c1")), ({ now := 2000 }, .heartbeat), ({ now := 4000 }, .heartbeat),
    ({ now := 5001 }, .helloTimeout (js "c1")), ({ now := 5002 }, .message (js "c1")
      (.text (.ok (Server.clientHello (.str (js "4.0.0")) (.str (js "4.0"))))))]

theorem not_notIntroduced_helloTooLate :
    (system Server.plain false).Valid (init Server.plain false) helloTooLate ∧
      ¬∀ es₁ es₂ es₃ id, helloTooLate = es₁ ++ es₂ ++ es₃ →
        ((system Server.plain false).after (init Server.plain false) es₁).TurnedAway id →
          ((system Server.plain false).after (init Server.plain false)
            (es₁ ++ es₂)).NotIntroduced id := by
  refine ⟨⟨?_, trivial, trivial, ⟨_, rfl, rfl⟩, ?_, trivial⟩, fun h => ?_⟩
  · change js "c1" = mintConnId 1
    decide +kernel
  · change JsMap.has _ _ = true
    decide +kernel
  · have haway : ((system Server.plain false).after (init Server.plain false)
        (helloTooLate.take 4)).TurnedAway (js "c1") :=
      ⟨by decide +kernel, helloTimeoutCode, _,
        Server.closeThrows {} (js "c1")
          (js "client-hello not received within " ++ intToString 10 5000 ++ js "ms"),
        List.mem_of_getElem? (i := 3) rfl, Or.inr rfl⟩
    have hunknown := h (helloTooLate.take 4) (helloTooLate.drop 4) [] (js "c1") rfl haway
    exact hunknown.admitted (by decide +kernel)

end Bridge

end AxonaBridge
