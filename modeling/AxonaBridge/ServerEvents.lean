import AxonaBridge.NodeKnows
import AxonaBridge.ServerGate

/-!
# What one event does

One event changes the admission of one connection at most: it enters the table, leaves it, or is
admitted. The node moves with the frames of admitted connections, with their closes, and with what
completes or fires in the node itself.
-/

open JsText

namespace AxonaBridge

namespace Server

variable {cfg : Config} {io : Io} {s : Server}

/-! ### The remaining events leave the table and the node alone -/

@[simp] theorem connections_kickUnbound (e : ConnId × Conn) :
    (s.kickUnbound cfg io e).connections = s.connections := by
  unfold kickUnbound
  dsimp only
  split
  · rw [connections_logErr, connections_wsClose, connections_logInfo]
  · rw [connections_wsClose, connections_logInfo]

@[simp] theorem node_kickUnbound (e : ConnId × Conn) :
    (s.kickUnbound cfg io e).node = s.node := by
  unfold kickUnbound
  dsimp only
  split
  · rw [node_logErr, node_wsClose, node_logInfo]
  · rw [node_wsClose, node_logInfo]

@[simp] theorem connections_kickIdle (e : ConnId × Conn) :
    (s.kickIdle cfg io e).connections = s.connections := by
  simp [kickIdle]

@[simp] theorem node_kickIdle (e : ConnId × Conn) : (s.kickIdle cfg io e).node = s.node := by
  simp [kickIdle]

@[simp] theorem connections_sweepIdleConnections :
    (s.sweepIdleConnections cfg io).connections = s.connections := by
  unfold sweepIdleConnections
  split
  · exact connections_logInfo _ _
  · dsimp only
    rw [foldl_keeps Server.connections _ fun s e => connections_kickIdle e,
      foldl_keeps Server.connections _ fun s e => connections_kickUnbound e]

@[simp] theorem node_sweepIdleConnections : (s.sweepIdleConnections cfg io).node = s.node := by
  unfold sweepIdleConnections
  split
  · exact node_logInfo _ _
  · dsimp only
    rw [foldl_keeps Server.node _ fun s e => node_kickIdle e,
      foldl_keeps Server.node _ fun s e => node_kickUnbound e]

@[simp] theorem connections_onHeartbeat : (s.onHeartbeat cfg io).connections = s.connections := by
  unfold onHeartbeat
  dsimp only
  split
  · exact connections_logErr _ _
  · rfl

@[simp] theorem node_onHeartbeat : (s.onHeartbeat cfg io).node = s.node := by
  unfold onHeartbeat
  dsimp only
  split
  · exact node_logErr _ _
  · rfl

theorem noteCohortOnly_keeps (pick : GraduationSelect.Pick) (c : Conn) :
    (s.noteCohortOnly cfg io pick c).connections = s.connections ∧
      (s.noteCohortOnly cfg io pick c).node = s.node := by
  unfold noteCohortOnly
  split
  · exact ⟨connections_logInfo _ _, node_logInfo _ _⟩
  · exact ⟨rfl, rfl⟩

theorem graduate_keeps (pick : GraduationSelect.Pick) (c : Conn) (admitted : Nat) :
    (s.graduate cfg io pick c admitted).connections = s.connections ∧
      (s.graduate cfg io pick c admitted).node = s.node := by
  unfold graduate pruneCooldowns
  simp [noteCohortOnly_keeps]

/-- The thresholds of a selection at a moment. -/
def graduationOptions (cfg : Config) (io : Io) : GraduationSelect.Options where
  now := io.now
  safeFloor := cfg.graduationSafeFloor
  minUptimeMs := cfg.graduationMinUptimeMs
  maxNurseryMs := cfg.graduationMaxNurseryMs

/-- `maybeGraduate` past its interval and band checks: the pick is made among `gated`, `held`
candidates are held back, and `admitted` are there in all. -/
def graduateFrom (cfg : Config) (io : Io) (gated : List (ConnId × Conn)) (held admitted : Nat)
    (s : Server) : Server :=
  let s := { s with gateHeldTotal := s.gateHeldTotal + held }
  match GraduationSelect.selectGraduate (graduationOptions cfg io) (gated.map (s.describe cfg io)) with
  | none => s
  | some pick =>
      match s.connections.get pick.id with
      | none => s
      | some c => s.graduate cfg io pick c admitted

theorem maybeGraduate_eq :
    s.maybeGraduate cfg io =
      if !cfg.nurseryOn then s
      else if io.now - s.lastGraduationAt < cfg.graduationIntervalMs then s
      else if (s.graduationCandidates.length : Int) ≤ cfg.maxPeers + cfg.graduationSlack then s
      else s.graduateFrom cfg io
        (if cfg.graduationGateOn then s.graduationCandidates.filter fun e => !s.heldBack cfg io e
          else s.graduationCandidates)
        (if cfg.graduationGateOn then s.graduationCandidates.countP (s.heldBack cfg io) else 0)
        s.graduationCandidates.length := rfl

theorem maybeGraduate_keeps :
    (s.maybeGraduate cfg io).connections = s.connections ∧ (s.maybeGraduate cfg io).node = s.node := by
  unfold maybeGraduate
  split
  · exact ⟨rfl, rfl⟩
  · split
    · exact ⟨rfl, rfl⟩
    · dsimp only
      split
      · exact ⟨rfl, rfl⟩
      · split
        · exact ⟨rfl, rfl⟩
        · split
          · exact ⟨rfl, rfl⟩
          · exact graduate_keeps _ _ _

/-- Rule 4 applies to a connection. -/
def ReleaseDue (cfg : Config) (io : Io) (s : Server) (connId : ConnId) (c : Conn) : Prop :=
  let mb := freshMeshBound cfg io c
  cfg.node.sb.isSome ∧ c.admitted ∧ connId ∈ s.node.doorChannelBound ∧
    mb.any (fun m => cfg.graduationSafeFloor ≤ m) ∧
    gteVersion c.effectiveVersion cfg.graduationMinKernel

instance (connId : ConnId) (c : Conn) : Decidable (ReleaseDue cfg io s connId c) := by
  unfold ReleaseDue
  infer_instance

/-- The release of rule 4. -/
def releaseSocket (cfg : Config) (io : Io) (connId : ConnId) (c : Conn) (s : Server) : Server :=
  let mb := freshMeshBound cfg io c
  let s := s.wsClose io connId graduated
    (js "bootstrap complete — your channel to this bridge is bound; freeing the socket")
  let s := s.noteGraduated io (s.connNodeHex connId)
  let s := { s with bootstrapSocketsClosed := s.bootstrapSocketsClosed + 1 }
  let s := s.logDebug cfg (js "axona:door-socket-released") [(js "connId", .str connId)]
  s.logInfo cfg (js "socket-released-bootstrap") [(js "connId", .str connId),
    (js "uptimeMs", .int (io.now - c.since)),
    (js "meshBound", .int (mb.getD 0)),
    (js "kernelVersion", .ofString? c.kernelVersion)]

theorem maybeCloseBootstrapSocket_eq (connId : ConnId) :
    s.maybeCloseBootstrapSocket cfg io connId =
      match s.connections.get connId with
      | none => (false, s)
      | some c =>
          if ReleaseDue cfg io s connId c then (true, s.releaseSocket cfg io connId c) else (false, s) := by
  unfold maybeCloseBootstrapSocket
  cases s.connections.get connId with
  | none => rfl
  | some c =>
      by_cases hdue : ReleaseDue cfg io s connId c
      · exact (if_pos hdue).trans (if_pos hdue).symm
      · exact (if_neg hdue).trans (if_neg hdue).symm

@[simp] theorem node_onConnection (id : ConnId) : (s.onConnection cfg io id).node = s.node := by
  simp [onConnection]

@[simp] theorem node_onHelloTimeout (id : ConnId) :
    (s.onHelloTimeout cfg io id).node = s.node := by
  unfold onHelloTimeout
  split
  · rfl
  · split
    · rfl
    · split <;> simp

@[simp] theorem node_onTurnRelease (id : ConnId) : (s.onTurnRelease io id).node = s.node := by
  unfold onTurnRelease
  split <;> rfl

theorem node_onClose {id : ConnId} (h : s.connections.has id = true) (code : Nat)
    (reason : JsString) :
    (s.onClose cfg io id code reason).node = s.node.handleConnClosed cfg.node io.kernel id := by
  obtain ⟨conn, hget⟩ := Option.isSome_iff_exists.mp h
  simp [onClose, hget]

/-! ### Admission -/

theorem admission_onConnection (id connId : ConnId) :
    (s.onConnection cfg io id).admission connId =
      if connId = id then some false else s.admission connId := by
  unfold onConnection
  dsimp only
  rw [admission_sendTo, admission_logInfo, admission, JsMap.get_set]
  split <;> rfl

theorem connections_onClose (id : ConnId) (code : Nat) (reason : JsString) :
    (s.onClose cfg io id code reason).connections = s.connections.delete id := by
  unfold onClose
  split
  · rename_i hget
    exact (JsMap.delete_eq_self (JsMap.not_mem_keys_iff.mpr hget)).symm
  · simp

theorem admission_onClose (id : ConnId) (code : Nat) (reason : JsString) (connId : ConnId) :
    (s.onClose cfg io id code reason).admission connId =
      if connId = id then none else s.admission connId := by
  rw [admission, connections_onClose, JsMap.get_delete]
  split <;> rfl

@[simp] theorem admission_onHelloTimeout (id : ConnId) :
    (s.onHelloTimeout cfg io id).admission = s.admission := by
  unfold onHelloTimeout
  split
  · rfl
  · split
    · rfl
    · split
      · dsimp only
        rw [admission_logInfo]
        exact admission_modifyConn fun _ => rfl
      · dsimp only
        rw [admission_wsClose, admission_logErr]
        exact admission_modifyConn fun _ => rfl

@[simp] theorem admission_onTurnRelease (id : ConnId) :
    (s.onTurnRelease io id).admission = s.admission := by
  unfold onTurnRelease
  split
  · exact admission_modifyConn fun _ => rfl
  · rfl

/-- What one event can do to the admission of a connection. -/
theorem admission_step (e : Event) (connId : ConnId) :
    (e = .connect connId ∧ (s.step cfg io e).admission connId = some false) ∨
      (∃ code reason, e = .closed connId code reason ∧ (s.step cfg io e).admission connId = none) ∨
      (∃ data, e = .message connId data ∧ Admits cfg s connId data ∧
        (s.step cfg io e).admission connId = some true) ∨
      (s.step cfg io e).admission connId = s.admission connId := by
  have hsame : ∀ s' : Server, s'.connections = s.connections → s'.admission connId =
      s.admission connId := fun s' h => congrFun (admission_congr h) connId
  cases e with
  | connect id =>
      have h := @admission_onConnection cfg io s id connId
      by_cases hid : connId = id
      · rw [if_pos hid] at h
        exact Or.inl ⟨by rw [hid], h⟩
      · rw [if_neg hid] at h
        exact Or.inr (Or.inr (Or.inr h))
  | closed id code reason =>
      have h := @admission_onClose cfg io s id code reason connId
      by_cases hid : connId = id
      · rw [if_pos hid] at h
        exact Or.inr (Or.inl ⟨code, reason, by rw [hid], h⟩)
      · rw [if_neg hid] at h
        exact Or.inr (Or.inr (Or.inr h))
  | message id data =>
      obtain ⟨hyes, hno⟩ := @admission_onMessage cfg io s id data connId
      by_cases hadmits : Admits cfg s id data
      · have h := hyes hadmits
        by_cases hid : connId = id
        · rw [if_pos hid] at h
          exact Or.inr (Or.inr (Or.inl ⟨data, by rw [hid], by rw [hid]; exact hadmits, h⟩))
        · rw [if_neg hid] at h
          exact Or.inr (Or.inr (Or.inr h))
      · exact Or.inr (Or.inr (Or.inr (hno hadmits)))
  | helloTimeout id => exact Or.inr (Or.inr (Or.inr (congrFun (admission_onHelloTimeout id) connId)))
  | turnRelease id => exact Or.inr (Or.inr (Or.inr (congrFun (admission_onTurnRelease id) connId)))
  | maybeGraduate => exact Or.inr (Or.inr (Or.inr (hsame _ maybeGraduate_keeps.1)))
  | heartbeat => exact Or.inr (Or.inr (Or.inr (hsame _ connections_onHeartbeat)))
  | sweep => exact Or.inr (Or.inr (Or.inr (hsame _ connections_sweepIdleConnections)))
  | requestTimeout promise => exact Or.inr (Or.inr (Or.inr rfl))
  | meshUp => exact Or.inr (Or.inr (Or.inr rfl))
  | _ => exact Or.inr (Or.inr (Or.inr (hsame _ (connections_withNode _))))

/-- A connection stays in the table until it closes. -/
theorem has_step {e : Event} {connId : ConnId} (h : s.connections.has connId = true)
    (hopen : ∀ code reason, e ≠ .closed connId code reason) :
    (s.step cfg io e).connections.has connId = true := by
  rw [has_iff_admission] at h ⊢
  rcases @admission_step cfg io s e connId with
    ⟨-, hstep⟩ | ⟨code, reason, hclosed, -⟩ | ⟨_, -, -, hstep⟩ | hstep
  · rw [hstep]
    rfl
  · exact absurd hclosed (hopen code reason)
  · rw [hstep]
    rfl
  · rw [hstep]
    exact h

/-- An admitted connection stays admitted until it closes. -/
theorem isAdmitted_step {e : Event} {connId : ConnId} (h : s.IsAdmitted connId)
    (hfresh : e ≠ .connect connId) (hopen : ∀ code reason, e ≠ .closed connId code reason) :
    (s.step cfg io e).IsAdmitted connId := by
  rw [isAdmitted_iff] at h ⊢
  rcases @admission_step cfg io s e connId with
    ⟨hconnect, -⟩ | ⟨code, reason, hclosed, -⟩ | ⟨_, -, -, hstep⟩ | hstep
  · exact absurd hconnect hfresh
  · exact absurd hclosed (hopen code reason)
  · exact hstep
  · exact hstep.trans h

/-! ### The node -/

@[simp] theorem node_onPeerListRequest (id : ConnId) (conn : Conn) :
    (s.onPeerListRequest cfg io id conn).node = s.node := by
  simp [onPeerListRequest]

@[simp] theorem node_maybeCloseBootstrapSocket (id : ConnId) :
    (s.maybeCloseBootstrapSocket cfg io id).2.node = s.node := by
  unfold maybeCloseBootstrapSocket
  split
  · rfl
  · dsimp only
    split
    · simp
    · rfl

@[simp] theorem node_sendPong (id : ConnId) (msg : JsVal) :
    (s.sendPong cfg io id msg).node = s.node := by
  unfold sendPong
  dsimp only
  split
  · exact node_logErr _ _
  · split <;> simp

@[simp] theorem node_onPing (id : ConnId) (msg : JsVal) : (s.onPing cfg io id msg).node = s.node := by
  unfold onPing
  dsimp only
  split
  · simp
  · split <;> simp

@[simp] theorem node_onTurnRefresh (id : ConnId) : (s.onTurnRefresh cfg io id).node = s.node := by
  unfold onTurnRefresh
  dsimp only
  rw [node_logDebug]
  split
  · exact node_sendTo _ _
  · rfl

@[simp] theorem node_relaySignal (id dest : ConnId) (payload : Option JsVal) :
    (s.relaySignal cfg io id dest payload).node = s.node := by
  unfold relaySignal
  dsimp only
  split <;> simp

@[simp] theorem node_meteredRelay (id : ConnId) (conn : Conn) (dest : ConnId)
    (payload : Option JsVal) : (s.meteredRelay cfg io id conn dest payload).node = s.node := by
  unfold meteredRelay
  dsimp only
  split
  · simp
  · split
    · simp
    · split <;> simp

@[simp] theorem node_refuse (id : ConnId) (r : Refusal) :
    (s.refuse cfg io id r).1.node = s.node := by
  have hlog : (s.tryLog cfg .error r.event r.fields).1.node = s.node :=
    node_tryLog .error r.event r.fields
  unfold refuse
  split
  · rename_i s' e h
    rwa [h] at hlog
  · rename_i s' h
    rw [h] at hlog
    split
    · exact hlog
    · exact hlog

theorem node_admitConnection (id : ConnId) (conn : Conn) :
    (s.admitConnection cfg io id conn).node =
      if conn.turnRefreshOnly then s.node else (s.node.sendHello id io.nonce).1 := by
  unfold admitConnection
  dsimp only
  split
  · simp [releaseLater]
  · simp [announce]

theorem node_onClientHello (id : ConnId) (conn : Conn) (msg : JsVal) :
    (s.onClientHello cfg io id conn msg).1.node = s.node ∨
      (Passes cfg msg ∧
        (s.onClientHello cfg io id conn msg).1.node = (s.node.sendHello id io.nonce).1) := by
  unfold onClientHello
  dsimp only
  split
  · exact Or.inl (node_refuse _ _)
  · rename_i peerVersion ns floor hnone hpassed
    rw [node_admitConnection, node_logInfo, node_modifyConn]
    split
    · exact Or.inl rfl
    · exact Or.inr ⟨⟨peerVersion, ns, floor, hpassed⟩, rfl⟩
  · exact Or.inl rfl

theorem node_onSignal (id : ConnId) (conn : Conn) (msg : JsVal) :
    (s.onSignal cfg io id conn msg).node = s.node ∨
      ∃ payload, (s.onSignal cfg io id conn msg).node =
        (s.node.deliverDoorSignal cfg.node io.kernel io.now id payload).2.1 := by
  unfold onSignal
  split
  · exact Or.inl (node_logErr _ _)
  · rename_i dest _
    dsimp only
    have hrelay : ∀ door : Bool × Node × List NodeOut,
        (if door.1 then s.withNode cfg io door.2
          else if !s.connections.has dest then s.logDebug cfg (js "signal-drop-unknown-to")
            [(js "connId", .str id), (js "to", .str dest)]
          else s.meteredRelay cfg io id conn dest (msg.field (js "payload"))).node =
            if door.1 then door.2.1 else s.node := by
      intro door
      split_ifs
      · exact node_withNode _
      · exact node_logDebug _ _
      · exact node_meteredRelay _ _ _ _
    rw [hrelay]
    split
    · split
      · exact Or.inr ⟨_, rfl⟩
      · exact Or.inl rfl
    · exact Or.inl rfl

/-- The payload a frame of the transport arrives in. -/
def Carries (data : Inbound) (payload : JsVal) : Prop :=
  ∃ json, data = .text (.ok json) ∧
    JsVal.asString (json.revive.field (js "type")) = some (js "axona") ∧
      json.revive.field (js "payload") = some payload ∧ payload.isObject = true

theorem node_onFrame (id : ConnId) (conn : Conn) (msg : JsVal) :
    (s.onFrame cfg io id conn msg).1.node = s.node ∨
      (∃ payload, JsVal.asString (msg.field (js "type")) = some (js "axona") ∧
        msg.field (js "payload") = some payload ∧ payload.isObject = true ∧
          (s.onFrame cfg io id conn msg).1.node =
            (s.node.handleAxonaFrame cfg.node io.kernel s.isConnOpen id payload).1) ∨
      ∃ payload, (s.onFrame cfg io id conn msg).1.node =
        (s.node.deliverDoorSignal cfg.node io.kernel io.now id payload).2.1 := by
  unfold onFrame
  dsimp only
  split_ifs with hlist hping hturn haxona hsignal
  · exact Or.inl (node_onPeerListRequest _ _)
  · exact Or.inl (node_onPing _ _)
  · exact Or.inl (node_onTurnRefresh _)
  · unfold onAxona
    split
    · rename_i payload hpayload
      split
      · rename_i hobject
        exact Or.inr (Or.inl ⟨payload, haxona, hpayload, hobject, node_withNode _⟩)
      · exact Or.inl rfl
    · exact Or.inl rfl
  · rcases @node_onSignal cfg io s id conn msg with h | h
    · exact Or.inl h
    · exact Or.inr (Or.inr h)
  · exact Or.inl (node_tryLog _ _ _)

/-- What a message can do to the node. -/
theorem node_onMessage (id : ConnId) (data : Inbound) :
    (s.onMessage cfg io id data).1.node = s.node ∨
      (Admits cfg s id data ∧
        (s.onMessage cfg io id data).1.node = (s.node.sendHello id io.nonce).1) ∨
      (s.IsAdmitted id ∧ ∃ payload, Carries data payload ∧
        (s.onMessage cfg io id data).1.node =
          (s.node.handleAxonaFrame cfg.node io.kernel s.isConnOpen id payload).1) ∨
      (s.IsAdmitted id ∧ ∃ payload, (s.onMessage cfg io id data).1.node =
        (s.node.deliverDoorSignal cfg.node io.kernel io.now id payload).2.1) := by
  unfold onMessage
  split
  · exact Or.inl rfl
  · rename_i conn hget
    have hopen : (s.modifyConn id fun _ => { conn with lastSeenAt := io.now }).isConnOpen =
        s.isConnOpen := by
      funext connId
      exact JsMap.has_modify _ _ _ _
    dsimp only
    split
    · exact Or.inl (node_logDebug _ _)
    · refine Or.inl ?_
      rw [node_logErr, node_modifyConn]
    · rename_i json
      rcases @read_some json.revive (js "type") with ⟨-, hread⟩ | hread
      · rw [hread]
        exact Or.inl rfl
      · rw [hread]
        dsimp only
        split
        · rename_i hadm
          have hid : s.IsAdmitted id := ⟨conn, hget, hadm⟩
          rcases @node_onFrame cfg io (s.modifyConn id fun _ => { conn with lastSeenAt := io.now }) id
            { conn with lastSeenAt := io.now } json.revive with h | ⟨payload, ht, hp, ho, h⟩ | ⟨payload, h⟩
          · exact Or.inl h
          · rw [hopen] at h
            exact Or.inr (Or.inr (Or.inl ⟨hid, payload, ⟨json, rfl, ht, hp, ho⟩, h⟩))
          · exact Or.inr (Or.inr (Or.inr ⟨hid, payload, h⟩))
        · rename_i hadm
          split
          · exact Or.inl (node_tryLog _ _ _)
          · rename_i htype
            rcases @node_onClientHello cfg io (s.modifyConn id fun _ => { conn with lastSeenAt := io.now })
              id { conn with lastSeenAt := io.now } json.revive with h | ⟨hpass, h⟩
            · exact Or.inl h
            · refine Or.inr (Or.inl ⟨⟨?_, json, rfl, not_not.mp htype, hpass⟩, h⟩)
              rw [admission, hget, Option.map_some, Bool.eq_false_iff.mpr hadm]

end Server

/-- The door key an event of the mesh is about. -/
def Event.doorToken : Event → Option JsString
  | .doorSink key _ => some key
  | .doorBind _ token _ => some token
  | .routeToDoor _ token => some token
  | _ => none

namespace Server

variable {cfg : Config} {io : Io} {s : Server}

/-- What an event can make of the node. -/
inductive NodeStep (cfg : Config) (io : Io) (s : Server) : Event → Node → Prop where
  | same (e : Event) : NodeStep cfg io s e s.node
  | hello {id : ConnId} {data : Inbound} (hadmits : Admits cfg s id data) :
      NodeStep cfg io s (.message id data) (s.node.sendHello id io.nonce).1
  | axona {id : ConnId} {data : Inbound} {payload : JsVal} (hid : s.IsAdmitted id)
      (hcarries : Carries data payload) : NodeStep cfg io s (.message id data)
        (s.node.handleAxonaFrame cfg.node io.kernel s.isConnOpen id payload).1
  | signal {id : ConnId} (data : Inbound) (payload : Option JsVal) (hid : s.IsAdmitted id) :
      NodeStep cfg io s (.message id data)
        (s.node.deliverDoorSignal cfg.node io.kernel io.now id payload).2.1
  | closed {id : ConnId} (code : Nat) (reason : JsString) (hhas : s.connections.has id = true) :
      NodeStep cfg io s (.closed id code reason) (s.node.handleConnClosed cfg.node io.kernel id)
  | requestTimeout (promise : Nat) : NodeStep cfg io s (.requestTimeout promise)
      { s.node with transport := s.node.transport.timeout promise }
  | meshUp : NodeStep cfg io s .meshUp { s.node with mesh := true }
  | helloBuilt (i : Nat) (hello : Except JsString JsVal) :
      NodeStep cfg io s (.helloBuilt i hello) (s.node.helloBuilt i hello).1
  | verified (i : Nat) (res : Node.AuthResult) :
      NodeStep cfg io s (.verified i res) (s.node.verified cfg.node io.kernel i res).1
  | ackBuilt (i : Nat) (ack : Except JsString JsVal) :
      NodeStep cfg io s (.ackBuilt i ack) (s.node.ackBuilt i ack).1
  | answered (i : Nat) (ok : Bool) (body : Option JsVal) :
      NodeStep cfg io s (.answered i ok body) (s.node.answered i ok body).1
  | kernel (act : KernelAct) : NodeStep cfg io s (.kernel act) (s.node.act s.isConnOpen act).1
  | doorBind (nodeId : NodeId) (token : JsString) (input : Node.BindInput) :
      NodeStep cfg io s (.doorBind nodeId token input)
        (s.node.bindPolicy cfg.node io.now input nodeId token).2.1
  | routeToDoor (nodeId : NodeId) (token : JsString) :
      NodeStep cfg io s (.routeToDoor nodeId token) (s.node.onRouteToDoor cfg.node nodeId token).1

/-- Every event makes of the node what `NodeStep` says. -/
theorem nodeStep (cfg : Config) (io : Io) (s : Server) (e : Event) :
    NodeStep cfg io s e (s.step cfg io e).node := by
  have hsame : ∀ {t : Server}, t.node = s.node → NodeStep cfg io s e t.node := fun heq => by
    rw [heq]
    exact .same e
  cases e with
  | connect id => exact hsame (node_onConnection id)
  | message id data =>
      rcases @node_onMessage cfg io s id data with
        heq | ⟨hadmits, heq⟩ | ⟨hid, payload, hcarries, heq⟩ | ⟨hid, payload, heq⟩
      · exact hsame heq
      · rw [step, heq]
        exact .hello hadmits
      · rw [step, heq]
        exact .axona hid hcarries
      · rw [step, heq]
        exact .signal data payload hid
  | closed id code reason =>
      by_cases hhas : s.connections.has id = true
      · rw [step, node_onClose hhas]
        exact .closed code reason hhas
      · have hnone : s.connections.get id = none := by
          rw [JsMap.has, Option.isSome_iff_ne_none, not_not] at hhas
          exact hhas
        refine hsame ?_
        simp only [step, onClose, hnone]
  | helloTimeout id => exact hsame (node_onHelloTimeout id)
  | turnRelease id => exact hsame (node_onTurnRelease id)
  | maybeGraduate => exact hsame maybeGraduate_keeps.2
  | heartbeat => exact hsame node_onHeartbeat
  | sweep => exact hsame node_sweepIdleConnections
  | requestTimeout promise => exact .requestTimeout promise
  | meshUp => exact .meshUp
  | doorSink key payload => exact hsame (node_withNode _)
  | helloBuilt i hello =>
      rw [step, node_withNode]
      exact .helloBuilt i hello
  | verified i res =>
      rw [step, node_withNode]
      exact .verified i res
  | ackBuilt i ack =>
      rw [step, node_withNode]
      exact .ackBuilt i ack
  | answered i ok body =>
      rw [step, node_withNode]
      exact .answered i ok body
  | kernel act =>
      rw [step, node_withNode]
      exact .kernel act
  | doorBind nodeId token input =>
      rw [step, node_withNode]
      exact .doorBind nodeId token input
  | routeToDoor nodeId token =>
      rw [step, node_withNode]
      exact .routeToDoor nodeId token

/-- The node keeps to `A` as long as every admitted connection, and every connection the mesh has a
door key of, is in `A`. -/
theorem knows_step {A : ConnId → Prop} (h : s.node.Knows A) (e : Event)
    (hA : ∀ connId, s.IsAdmitted connId → A connId)
    (hA' : ∀ connId, (s.step cfg io e).IsAdmitted connId → A connId)
    (hdoor : ∀ token connId, e.doorToken = some token → cfg.node.ownDoorKey token = some connId →
      A connId) : (s.step cfg io e).node.Knows A := by
  have hnode := nodeStep cfg io s e
  generalize (s.step cfg io e).node = n at hnode ⊢
  cases hnode with
  | same e => exact h
  | @hello id data hadmits =>
      refine (@Node.Knows.sendHello cfg.node _ A h id (hA' id (isAdmitted_iff.mpr ?_)) io.nonce).1
      exact ((admission_onMessage id data id).1 hadmits).trans (if_pos rfl)
  | @axona id data payload hid hcarries => exact (h.handleAxonaFrame s.isConnOpen (hA id hid) payload).1
  | @signal id data payload hid => exact (h.deliverDoorSignal io.now (hA id hid) payload).1
  | @closed id code reason hhas => exact h.handleConnClosed id
  | requestTimeout promise => exact { h with transport := h.transport.timeout promise }
  | meshUp => exact { h with }
  | helloBuilt i hello => exact (@Node.Knows.helloBuilt cfg.node _ A h i hello).1
  | verified i res => exact (h.verified i res).1
  | ackBuilt i ack => exact (@Node.Knows.ackBuilt cfg.node _ A h i ack).1
  | answered i ok body => exact (@Node.Knows.answered cfg.node _ A h i ok body).1
  | kernel act => exact (@Node.Knows.act cfg.node _ A h s.isConnOpen act).1
  | doorBind nodeId token input =>
      exact (h.bindPolicy io.now input nodeId fun connId => hdoor token connId rfl).1
  | routeToDoor nodeId token =>
      exact (h.onRouteToDoor nodeId fun connId => hdoor token connId rfl).1

end Server

end AxonaBridge
