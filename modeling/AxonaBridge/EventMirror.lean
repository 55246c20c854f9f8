import AxonaBridge.ServerMirror

/-!
# Events under another numbering

What a client sends names connections in one place, the `to` of a signal, and the mesh names them in
its door keys. An event on a connection of `V` is mirrored by the same event under the new numbers,
and an event on any other connection changes nothing of the mirror, as long as it is never admitted,
no signal is addressed to it and its close is announced to nobody.
-/

open JsText

namespace AxonaBridge

variable {rid : ConnId}

/-- A message of a client, with the connection it is addressed to renumbered. -/
structure RenamesMessage (f : Renumbering rid) (msg msg' : JsVal) : Prop where
  null : msg' = .null ↔ msg = .null
  field : ∀ name, name ≠ js "to" → msg'.field name = msg.field name
  dest : JsVal.asString (msg'.field (js "to")) = (JsVal.asString (msg.field (js "to"))).map f

/-- What arrives on a socket, with the connection it is addressed to renumbered. -/
inductive Server.Inbound.Renames (f : Renumbering rid) : Server.Inbound → Server.Inbound → Prop
  | binary (bytes : Nat) : Server.Inbound.Renames f (.binary bytes) (.binary bytes)
  | malformed (err : JsString) : Server.Inbound.Renames f (.text (.error err)) (.text (.error err))
  | json {json json' : JsVal} (h : RenamesMessage f json.revive json'.revive) :
      Server.Inbound.Renames f (.text (.ok json)) (.text (.ok json'))

/-- The same event, under the new numbers. -/
inductive Event.Renames (cfg : NodeConfig) (f : Renumbering rid) : Event → Event → Prop
  | connect (connId : ConnId) : Event.Renames cfg f (.connect connId) (.connect (f connId))
  | message (connId : ConnId) {data data' : Server.Inbound} (h : data.Renames f data') :
      Event.Renames cfg f (.message connId data) (.message (f connId) data')
  | closed (connId : ConnId) (code : Nat) (reason : JsString) :
      Event.Renames cfg f (.closed connId code reason) (.closed (f connId) code reason)
  | helloTimeout (connId : ConnId) :
      Event.Renames cfg f (.helloTimeout connId) (.helloTimeout (f connId))
  | turnRelease (connId : ConnId) :
      Event.Renames cfg f (.turnRelease connId) (.turnRelease (f connId))
  | maybeGraduate : Event.Renames cfg f .maybeGraduate .maybeGraduate
  | heartbeat : Event.Renames cfg f .heartbeat .heartbeat
  | sweep : Event.Renames cfg f .sweep .sweep
  | requestTimeout (promise : Nat) :
      Event.Renames cfg f (.requestTimeout promise) (.requestTimeout promise)
  | helloBuilt (i : Nat) (hello : Except JsString JsVal) :
      Event.Renames cfg f (.helloBuilt i hello) (.helloBuilt i hello)
  | verified (i : Nat) (res : Node.AuthResult) :
      Event.Renames cfg f (.verified i res) (.verified i res)
  | ackBuilt (i : Nat) (ack : Except JsString JsVal) :
      Event.Renames cfg f (.ackBuilt i ack) (.ackBuilt i ack)
  | answered (i : Nat) (ok : Bool) (body : Option JsVal) :
      Event.Renames cfg f (.answered i ok body) (.answered i ok body)
  | kernel (act : KernelAct) : Event.Renames cfg f (.kernel act) (.kernel act)
  | meshUp : Event.Renames cfg f .meshUp .meshUp
  | doorSink {key key' : JsString} (h : RenamesToken f cfg key key') (payload : JsVal) :
      Event.Renames cfg f (.doorSink key payload) (.doorSink key' payload)
  | doorBind (nodeId : NodeId) {token token' : JsString} (h : RenamesToken f cfg token token')
      {input input' : Node.BindInput} (hinput : input.Renames f cfg input') :
      Event.Renames cfg f (.doorBind nodeId token input) (.doorBind nodeId token' input')
  | routeToDoor (nodeId : NodeId) {token token' : JsString} (h : RenamesToken f cfg token token') :
      Event.Renames cfg f (.routeToDoor nodeId token) (.routeToDoor nodeId token')

/-- The connection whose socket or timer an event is of. -/
def Event.socket : Event → Option ConnId
  | .connect connId => some connId
  | .message connId _ => some connId
  | .closed connId _ _ => some connId
  | .helloTimeout connId => some connId
  | .turnRelease connId => some connId
  | _ => none

namespace Server

variable {cfg : Config} {f : Renumbering rid} {V : List ConnId} {io io' : Io} {s t : Server}

/-! ### The version gate -/

theorem gate_rename {msg msg' : JsVal} (hmsg : RenamesMessage f msg msg') : gate cfg msg' = gate cfg msg := by
  unfold gate
  rw [hmsg.field _ (by decide), hmsg.field _ (by decide), hmsg.field _ (by decide)]

theorem ofHello_rename {msg msg' : JsVal} (hmsg : RenamesMessage f msg msg') (conn : Conn) :
    Conn.ofHello conn msg' = Conn.ofHello conn msg := by
  unfold Conn.ofHello
  rw [hmsg.field _ (by decide), hmsg.field _ (by decide), hmsg.field _ (by decide),
    hmsg.field _ (by decide)]

theorem read_rename {msg msg' : JsVal} (hmsg : RenamesMessage f msg msg') {name : JsString}
    (hname : name ≠ js "to") : JsVal.read (some msg') name = JsVal.read (some msg) name := by
  by_cases hnull : msg = .null
  · rw [hnull, hmsg.null.mpr hnull]
  · have hread : ∀ v : JsVal, v ≠ .null → JsVal.read (some v) name = .ok (v.field name) := by
      intro v hv
      rcases read_some (v := v) name with ⟨h, -⟩ | h
      · exact absurd h hv
      · exact h
    rw [hread msg hnull, hread msg' (mt hmsg.null.mp hnull), hmsg.field name hname]

namespace Mirrors

theorem onClientHello {f : Renumbering cfg.node.reservedId} (h : Mirrors f V s t)
    (hio : io.Renames f V io') {id : ConnId} (hid : id ∈ V) (conn : Conn) {msg msg' : JsVal}
    (hmsg : RenamesMessage f msg msg') :
    Mirrors f V (s.onClientHello cfg io id conn msg).1 (t.onClientHello cfg io' (f id) conn msg').1 := by
  have hjudged := h.modifyConn hid fun _ => Conn.ofHello conn msg
  unfold Server.onClientHello
  dsimp only
  rw [ofHello_rename hmsg, gate_rename hmsg]
  cases hverdict : gate cfg msg with
  | passed peerVersion ns floor =>
      dsimp only [refusal]
      exact (hjudged.logInfo _ _ _ _).admitConnection hio hid _
  | missingVersion => exact (hjudged.refuse_left _ _).refuse_right _ _
  | wireMismatch peerVersion => exact (hjudged.refuse_left _ _).refuse_right _ _
  | kernelTooOld peerVersion peerKernel minKernel => exact (hjudged.refuse_left _ _).refuse_right _ _
  | tooOld peerVersion ns floor effectiveMin => exact (hjudged.refuse_left _ _).refuse_right _ _

/-! ### Graduation -/

variable (h : Mirrors f V s t)

include h

theorem introducedOutsideCohort (connId : ConnId) (conn : Conn) :
    t.introducedOutsideCohort cfg (f connId) conn = s.introducedOutsideCohort cfg connId conn := by
  have hmem : f connId ∈ t.node.doorChannelBound ↔ connId ∈ s.node.doorChannelBound := by
    rw [h.node]
    exact List.mem_map_of_injective f.injective
  unfold Server.introducedOutsideCohort
  simp only [hmem]

theorem noteGraduated (hio : io.Renames f V io') (nh : Option JsString) :
    Mirrors f V (s.noteGraduated io nh) (t.noteGraduated io' nh) := by
  have hsame : t.noteGraduated io' nh = t.noteGraduated io nh := by
    unfold Server.noteGraduated
    rw [hio.now]
  rw [hsame]
  refine h.update (g := fun u => u.noteGraduated io nh) fun u conns node out => ?_
  cases nh with
  | none => rfl
  | some nh => rfl

theorem noteCohortOnly (pick : GraduationSelect.Pick) (c : Conn) :
    Mirrors f V (s.noteCohortOnly cfg io pick c)
      (t.noteCohortOnly cfg io' (pick.rename f) c) := by
  unfold Server.noteCohortOnly
  rw [show (pick.rename f).id = f pick.id from rfl, h.introducedOutsideCohort]
  split
  · refine Mirrors.logInfo ?_ _ _ _ _
    exact h.update (g := fun u => { u with cohortOnlyGraduated := u.cohortOnlyGraduated + 1 })
      fun _ _ _ _ => rfl
  · exact h

theorem pruneCooldowns (hio : io.Renames f V io') :
    Mirrors f V (s.pruneCooldowns cfg io) (t.pruneCooldowns cfg io') := by
  have hsame : t.pruneCooldowns cfg io' = t.pruneCooldowns cfg io := by
    unfold Server.pruneCooldowns
    rw [hio.now]
  rw [hsame]
  exact h.update (g := fun u => u.pruneCooldowns cfg io) fun _ _ _ _ => rfl

theorem graduate (hio : io.Renames f V io') (pick : GraduationSelect.Pick) (c : Conn)
    (admitted : Nat) :
    Mirrors f V (s.graduate cfg io pick c admitted)
      (t.graduate cfg io' (pick.rename f) c admitted) := by
  have hreleased : Mirrors f V
      (s.wsClose io pick.id AxonaBridge.graduated
        (js "graduated — you are meshed; freeing the bridge slot"))
      (t.wsClose io' (f pick.id) AxonaBridge.graduated
        (js "graduated — you are meshed; freeing the bridge slot")) := h.wsClose _ _ _ _ _ _
  have hcounted := (hreleased.noteGraduated hio (s.connNodeHex pick.id)).update
    (g := fun u => { u with lastGraduationAt := io.now, graduatedTotal := u.graduatedTotal + 1 })
    fun _ _ _ _ => rfl
  have hhex : (t.wsClose io' (f pick.id) AxonaBridge.graduated
      (js "graduated — you are meshed; freeing the bridge slot")).connNodeHex (f pick.id) =
        s.connNodeHex pick.id := h.connNodeHex pick.id
  unfold Server.graduate
  dsimp only
  rw [show (pick.rename f).id = f pick.id from rfl, hhex, hio.now]
  refine Mirrors.pruneCooldowns ?_ hio
  refine Mirrors.noteCohortOnly ?_ pick c
  exact hcounted.logInfo _ _ _ _

/-- Only admitted connections are candidates. -/
theorem graduationCandidates :
    t.graduationCandidates = s.graduationCandidates.map fun e => (f e.1, e.2) :=
  h.filter_entries (fun _ he => he) fun _ => rfl

theorem heldBack (hio : io.Renames f V io') (e : ConnId × Conn) :
    t.heldBack cfg io' (f e.1, e.2) = s.heldBack cfg io e := by
  unfold Server.heldBack
  rw [h.introducedOutsideCohort, hio.now]

omit h in
theorem freshMeshBound_rename (hio : io.Renames f V io') (c : Conn) :
    freshMeshBound cfg io' c = freshMeshBound cfg io c := by
  unfold freshMeshBound
  rw [hio.now]

theorem describe (hio : io.Renames f V io') (e : ConnId × Conn) :
    t.describe cfg io' (f e.1, e.2) = (s.describe cfg io e).rename f := by
  have hcooldowns : t.graduatedRecently = s.graduatedRecently := by
    cases h with
    | intro hout hV => rfl
  unfold Server.describe
  dsimp only
  rw [h.connRegion, h.connNodeHex, hcooldowns, freshMeshBound_rename hio, hio.now]
  rfl

theorem graduateFrom (hio : io.Renames f V io') {gated : List (ConnId × Conn)}
    (hgated : ∀ e ∈ gated, e ∈ s.graduationCandidates) (held admitted : Nat) :
    Mirrors f V (s.graduateFrom cfg io gated held admitted)
      (t.graduateFrom cfg io' (gated.map fun e => (f e.1, e.2)) held admitted) := by
  have hcounted := h.update
    (g := fun u => { u with gateHeldTotal := u.gateHeldTotal + held }) fun _ _ _ _ => rfl
  have hdescribed : (gated.map fun e => (f e.1, e.2)).map
      ({ t with gateHeldTotal := t.gateHeldTotal + held }.describe cfg io') =
      (gated.map ({ s with gateHeldTotal := s.gateHeldTotal + held }.describe cfg io)).map
        (GraduationSelect.Candidate.rename f) := by
    rw [List.map_map, List.map_map]
    exact List.map_congr_left fun e _ => hcounted.describe hio e
  have hoptions : graduationOptions cfg io' = graduationOptions cfg io := by
    unfold graduationOptions
    rw [hio.now]
  unfold Server.graduateFrom
  dsimp only
  rw [hdescribed, hoptions, GraduationSelect.selectGraduate_rename]
  cases hpick : GraduationSelect.selectGraduate (graduationOptions cfg io)
      (gated.map ({ s with gateHeldTotal := s.gateHeldTotal + held }.describe cfg io)) with
  | none => exact hcounted
  | some pick =>
      obtain ⟨d, hd, hid⟩ := GraduationSelect.mem_of_selectGraduate _ hpick
      obtain ⟨e, he, rfl⟩ := List.mem_map.mp hd
      obtain ⟨hentry, hadm⟩ := List.mem_filter.mp (hgated e he)
      have hmem : pick.id ∈ V := hid ▸ h.within_of_get (JsMap.mem_entries_iff.mp hentry) hadm
      dsimp only [Option.map_some]
      rw [show (pick.rename f).id = f pick.id from rfl, h.get hmem]
      cases s.connections.get pick.id with
      | none => exact hcounted
      | some c => exact hcounted.graduate hio pick c admitted

theorem maybeGraduate (hio : io.Renames f V io') :
    Mirrors f V (s.maybeGraduate cfg io) (t.maybeGraduate cfg io') := by
  have hlast : t.lastGraduationAt = s.lastGraduationAt := by
    cases h with
    | intro hout hV => rfl
  have hheld : (s.graduationCandidates.map fun e => (f e.1, e.2)).countP (t.heldBack cfg io') =
      s.graduationCandidates.countP (s.heldBack cfg io) := by
    rw [List.countP_map]
    refine List.countP_congr fun e _ => ?_
    rw [Function.comp_apply, h.heldBack hio]
  have hgated : (s.graduationCandidates.map fun e => (f e.1, e.2)).filter
      (fun e => !t.heldBack cfg io' e) =
      (s.graduationCandidates.filter fun e => !s.heldBack cfg io e).map fun e => (f e.1, e.2) := by
    rw [List.filter_map]
    congr 1
    refine List.filter_congr fun e _ => ?_
    rw [Function.comp_apply, h.heldBack hio]
  rw [maybeGraduate_eq, maybeGraduate_eq, hlast, h.graduationCandidates, hio.now, List.length_map]
  split
  · exact h
  · split
    · exact h
    · split
      · exact h
      · rw [hheld, hgated]
        split
        · exact h.graduateFrom hio (fun e he => List.mem_of_mem_filter he) _ _
        · exact h.graduateFrom hio (fun e he => he) _ _

/-! ### Frames of an admitted connection -/

omit h in
theorem onPeerListRequest {f : Renumbering cfg.node.reservedId} (h : Mirrors f V s t)
    (hio : io.Renames f V io') {id : ConnId} (hid : id ∈ V) (conn : Conn) :
    Mirrors f V (s.onPeerListRequest cfg io id conn) (t.onPeerListRequest cfg io' (f id) conn) := by
  unfold Server.onPeerListRequest
  dsimp only
  rw [h.admittedOthers, h.withReserved]
  exact (h.sendPeerList cfg hio hid conn _).logInfo _ _ _ _

theorem releaseSocket (hio : io.Renames f V io') (id : ConnId) (c : Conn) :
    Mirrors f V (s.releaseSocket cfg io id c) (t.releaseSocket cfg io' (f id) c) := by
  have hhex : ∀ reason, (t.wsClose io' (f id) AxonaBridge.graduated reason).connNodeHex (f id) =
      s.connNodeHex id := fun reason => h.connNodeHex id
  unfold Server.releaseSocket
  dsimp only
  rw [hhex]
  refine Mirrors.logInfo ?_ _ _ _ _
  refine Mirrors.logDebug ?_ _ _ _ _
  refine Mirrors.update (g := fun u => { u with
    bootstrapSocketsClosed := u.bootstrapSocketsClosed + 1 }) ?_ fun _ _ _ _ => rfl
  exact (h.wsClose _ _ _ _ _ _).noteGraduated hio (s.connNodeHex id)

theorem releaseDue_iff (hio : io.Renames f V io') (id : ConnId) (c : Conn) :
    ReleaseDue cfg io' t (f id) c ↔ ReleaseDue cfg io s id c := by
  have hdoor : f id ∈ t.node.doorChannelBound ↔ id ∈ s.node.doorChannelBound := by
    rw [h.node]
    exact List.mem_map_of_injective f.injective
  unfold ReleaseDue
  rw [hdoor, freshMeshBound_rename hio]

variable (cfg) in
theorem maybeCloseBootstrapSocket (hio : io.Renames f V io') {id : ConnId} (hid : id ∈ V) :
    (t.maybeCloseBootstrapSocket cfg io' (f id)).1 = (s.maybeCloseBootstrapSocket cfg io id).1 ∧
      Mirrors f V (s.maybeCloseBootstrapSocket cfg io id).2
        (t.maybeCloseBootstrapSocket cfg io' (f id)).2 := by
  rw [maybeCloseBootstrapSocket_eq, maybeCloseBootstrapSocket_eq, h.get hid]
  cases s.connections.get id with
  | none => exact ⟨rfl, h⟩
  | some c =>
      dsimp only
      simp only [h.releaseDue_iff hio]
      split
      · exact ⟨rfl, h.releaseSocket hio id c⟩
      · exact ⟨rfl, h⟩

omit h in
theorem reportedMeshBound_rename {msg msg' : JsVal} (hmsg : RenamesMessage f msg msg') :
    reportedMeshBound msg' = reportedMeshBound msg := by
  unfold reportedMeshBound
  rw [hmsg.field _ (by decide)]

theorem sendPong (hio : io.Renames f V io') {id : ConnId} (hid : id ∈ V) {msg msg' : JsVal}
    (hmsg : RenamesMessage f msg msg') :
    Mirrors f V (s.sendPong cfg io id msg) (t.sendPong cfg io' (f id) msg') := by
  obtain ⟨hsent, hsend⟩ := h.wsSend hio hid (.pong (msg.field (js "t")) io.now)
  unfold Server.sendPong
  rw [hmsg.field _ (by decide), hio.now]
  dsimp only
  split
  · exact h.logErr _ _ _ _
  · rw [show t.wsSend io' (f id) (.pong (msg.field (js "t")) io.now) =
      t.wsSend io' (f id) ((Frame.pong (msg.field (js "t")) io.now).rename f) from rfl, hsent]
    split
    · exact (hsend.modifyConn hid _).logDebug _ _ _ _
    · exact h.logErr _ _ _ _

theorem onPing (hio : io.Renames f V io') {id : ConnId} (hid : id ∈ V) {msg msg' : JsVal}
    (hmsg : RenamesMessage f msg msg') :
    Mirrors f V (s.onPing cfg io id msg) (t.onPing cfg io' (f id) msg') := by
  have hcounted := h.modifyConn hid fun c => { c with pings := c.pings + 1 }
  unfold Server.onPing
  rw [reportedMeshBound_rename hmsg]
  dsimp only
  split
  · exact hcounted.sendPong hio hid hmsg
  · rename_i m _
    have hreported := hcounted.modifyConn hid fun c =>
      { c with meshBound := some m, meshBoundAt := io.now }
    obtain ⟨hclosed, hclose⟩ := hreported.maybeCloseBootstrapSocket cfg hio hid
    rw [hio.now, hclosed]
    split
    · exact hclose
    · exact hclose.sendPong hio hid hmsg

theorem onTurnRefresh (hio : io.Renames f V io') {id : ConnId} (hid : id ∈ V) :
    Mirrors f V (s.onTurnRefresh cfg io id) (t.onTurnRefresh cfg io' (f id)) := by
  unfold Server.onTurnRefresh
  rw [makeTurnCredential hio, hio.now]
  refine Mirrors.logDebug ?_ _ _ _ _
  cases Server.makeTurnCredential cfg io with
  | none => exact h
  | some credential => exact (h.sendTo cfg hio hid (.turn credential io.now)).2

theorem isConnOpen {id : ConnId} (hid : id ∈ V) : t.isConnOpen (f id) = s.isConnOpen id := h.has hid

theorem onAxona (hio : io.Renames f V io') (hn : s.node.Knows (· ∈ V)) {id : ConnId} (hid : id ∈ V)
    {msg msg' : JsVal} (hmsg : RenamesMessage f msg msg') :
    Mirrors f V (s.onAxona cfg io id msg).1 (t.onAxona cfg io' (f id) msg').1 := by
  unfold Server.onAxona
  rw [hmsg.field _ (by decide), h.node, hio.kernel]
  cases msg.field (js "payload") with
  | none => exact h
  | some payload =>
      dsimp only
      split
      · exact h.withNode hio (Node.renames_handleAxonaFrame hn hid (fun c hc => h.isConnOpen hc) payload)
      · exact h

omit h in
theorem meter_rename (hio : io.Renames f V io') (conn : Conn) : meter cfg io' conn = meter cfg io conn := by
  unfold meter openWindow
  rw [hio.now]

theorem relaySignal (hio : io.Renames f V io') {id dest : ConnId} (hid : id ∈ V) (hdest : dest ∈ V)
    (payload : Option JsVal) :
    Mirrors f V (s.relaySignal cfg io id dest payload)
      (t.relaySignal cfg io' (f id) (f dest) payload) := by
  obtain ⟨hsent, hsend⟩ := h.sendTo cfg hio hdest (.signal id payload)
  unfold Server.relaySignal
  rw [show t.sendTo cfg io' (f dest) (.signal (f id) payload) =
    t.sendTo cfg io' (f dest) ((Frame.signal id payload).rename f) from rfl]
  dsimp only
  rw [hsent]
  split
  · exact (hsend.modifyConn hid _).logDebug _ _ _ _
  · exact hsend

theorem meteredRelay (hio : io.Renames f V io') {id dest : ConnId} (hid : id ∈ V) (hdest : dest ∈ V)
    (conn : Conn) (payload : Option JsVal) :
    Mirrors f V (s.meteredRelay cfg io id conn dest payload)
      (t.meteredRelay cfg io' (f id) conn (f dest) payload) := by
  have hmetered := h.modifyConn hid fun _ => (meter cfg io conn).2
  unfold Server.meteredRelay
  dsimp only
  rw [meter_rename hio]
  split
  · exact h.relaySignal hio hid hdest payload
  · split
    · exact hmetered.relaySignal hio hid hdest payload
    · have hcounted := hmetered.update
        (g := fun u => { u with signalRateLimitedTotal := u.signalRateLimitedTotal + 1 })
        fun _ _ _ _ => rfl
      split
      · exact hcounted.logInfo _ _ _ _
      · exact hcounted

omit h in
theorem onSignal {f : Renumbering cfg.node.reservedId} (h : Mirrors f V s t)
    (hio : io.Renames f V io') {id : ConnId} (hid : id ∈ V) (conn : Conn) {msg msg' : JsVal}
    (hmsg : RenamesMessage f msg msg')
    (hdest : ∀ dest, JsVal.asString (msg.field (js "to")) = some dest →
      s.connections.has dest = true → dest ∈ V) :
    Mirrors f V (s.onSignal cfg io id conn msg) (t.onSignal cfg io' (f id) conn msg') := by
  unfold Server.onSignal
  rw [hmsg.dest, hmsg.field _ (by decide), h.node, hio.now, hio.kernel]
  cases hto : JsVal.asString (msg.field (js "to")) with
  | none => exact h.logErr _ _ _ _
  | some dest =>
      obtain ⟨htaken, hdelivered⟩ : _ ∧ Node.Renames f
          (s.node.deliverDoorSignal cfg.node io.kernel io.now id (msg.field (js "payload"))).2 _ :=
        Node.renames_deliverDoorSignal io.now id (msg.field (js "payload"))
      have hreserved : cfg.node.isReservedId (f dest) = cfg.node.isReservedId dest := by
        unfold NodeConfig.isReservedId
        simp only [f.eq_reserved_iff]
      have hrelay : Mirrors f V
          (if !s.connections.has dest then s.logDebug cfg (js "signal-drop-unknown-to")
              [(js "connId", .str id), (js "to", .str dest)]
            else s.meteredRelay cfg io id conn dest (msg.field (js "payload")))
          (if !t.connections.has (f dest) then t.logDebug cfg (js "signal-drop-unknown-to")
              [(js "connId", .str (f id)), (js "to", .str (f dest))]
            else t.meteredRelay cfg io' (f id) conn (f dest) (msg.field (js "payload"))) := by
        by_cases hmem : dest ∈ V
        · rw [h.has hmem]
          split
          · exact h.logDebug _ _ _ _
          · exact h.meteredRelay hio hid hmem conn _
        · have habsent : s.connections.has dest = false := by
            by_contra hhas
            exact hmem (hdest dest hto (Bool.not_eq_false _ ▸ hhas))
          have habsent' : t.connections.has (f dest) = false := by
            rw [JsMap.has, h.get_of_not_mem hmem]
            rfl
          rw [habsent, habsent']
          exact h.logDebug _ _ _ _
      dsimp only [Option.map_some]
      rw [hreserved]
      by_cases hdoor : conn.admitted = true ∧ cfg.node.isReservedId dest = true
      · rw [if_pos hdoor, if_pos hdoor, htaken]
        split
        · exact h.withNode hio hdelivered
        · exact hrelay
      · rw [if_neg hdoor, if_neg hdoor]
        exact hrelay

omit h in
theorem onFrame {f : Renumbering cfg.node.reservedId} (h : Mirrors f V s t)
    (hio : io.Renames f V io') (hn : s.node.Knows (· ∈ V)) {id : ConnId} (hid : id ∈ V) (conn : Conn)
    {msg msg' : JsVal} (hmsg : RenamesMessage f msg msg')
    (hdest : JsVal.asString (msg.field (js "type")) = some (js "signal") →
      ∀ dest, JsVal.asString (msg.field (js "to")) = some dest →
        s.connections.has dest = true → dest ∈ V) :
    Mirrors f V (s.onFrame cfg io id conn msg).1 (t.onFrame cfg io' (f id) conn msg').1 := by
  unfold Server.onFrame
  rw [hmsg.field (js "type") (by decide)]
  dsimp only
  split
  · exact h.onPeerListRequest hio hid conn
  · split
    · exact h.onPing hio hid hmsg
    · split
      · exact h.onTurnRefresh hio hid
      · split
        · exact h.onAxona hio hn hid hmsg
        · split
          · rename_i htype
            exact h.onSignal hio hid conn hmsg (hdest htype)
          · exact (h.tryLog_left _ _ _).tryLog_right _ _ _

omit h in
/-- A frame of a connection of `V`, addressed to present connections of `V` only. -/
theorem onMessage {f : Renumbering cfg.node.reservedId} (h : Mirrors f V s t)
    (hio : io.Renames f V io') (hn : s.node.Knows (· ∈ V)) {id : ConnId} (hid : id ∈ V)
    {data data' : Inbound} (hdata : data.Renames f data')
    (hdest : ∀ dest, s.Signals id data dest → dest ∈ V) :
    Mirrors f V (s.onMessage cfg io id data).1 (t.onMessage cfg io' (f id) data').1 := by
  unfold Server.onMessage
  rw [h.get hid, hio.now]
  cases hget : s.connections.get id with
  | none => exact h
  | some conn =>
      have hseen := h.modifyConn hid fun _ => { conn with lastSeenAt := io.now }
      dsimp only
      cases hdata with
      | binary bytes => exact hseen.logDebug _ _ _ _
      | malformed err =>
          dsimp only
          exact hseen.logErr _ _ _ _
      | @json json json' hmsg =>
          dsimp only
          rw [read_rename hmsg (by decide)]
          cases JsVal.read (some json.revive) (js "type") with
          | error e => exact hseen
          | ok type =>
              dsimp only
              split
              · rename_i hadm
                refine hseen.onFrame hio hn hid _ hmsg fun htype dest hto hhas => hdest dest ?_
                rw [Server.modifyConn, JsMap.has_modify] at hhas
                exact ⟨⟨conn, hget, hadm⟩, json, rfl, htype, hto, hhas⟩
              · split
                · exact (hseen.tryLog_left _ _ _).tryLog_right _ _ _
                · exact hseen.onClientHello hio hid _ hmsg

/-! ### Connections come and go -/

theorem onConnection (hio : io.Renames f V io') {connId : ConnId} (hid : connId ∈ V) :
    Mirrors f V (s.onConnection cfg io connId) (t.onConnection cfg io' (f connId)) := by
  have hopened : ∀ conn : Conn, Mirrors f V { s with connections := s.connections.set connId conn }
      { t with connections := t.connections.set (f connId) conn } := by
    intro conn
    cases h with
    | intro hout hV =>
        have htable := JsMap.set_rename (f := f.toEmbedding) (g := id) (s.connections.keep V) connId conn
        rw [← JsMap.keep_set_of_mem hid] at htable
        dsimp only
        rw [show (s.connections.keep V |>.rename f.toEmbedding id).set (f connId) conn =
          ((s.connections.set connId conn).keep V).rename f.toEmbedding id from htable]
        refine ⟨hout, fun c hadm => ?_⟩
        obtain ⟨conn', hget, hadm⟩ := hadm
        rw [JsMap.get_set] at hget
        split at hget
        · rename_i heq
          exact heq ▸ hid
        · exact hV c ⟨conn', hget, hadm⟩
  unfold Server.onConnection
  dsimp only
  rw [hio.now]
  exact (((hopened _).logInfo _ _ _ _).sendTo cfg hio hid (.versionGate cfg.minPeerVersion io.now)).2

/-- A connection that is not mirrored opens. -/
theorem onConnection_left {connId : ConnId} (hid : connId ∉ V) :
    Mirrors f V (s.onConnection cfg io connId) t := by
  have hopened : ∀ conn : Conn, conn.admitted = false →
      Mirrors f V { s with connections := s.connections.set connId conn } t := by
    intro conn hpending
    cases h with
    | intro hout hV =>
        have hmirror := Mirrors.intro (f := f)
          (s := { s with connections := s.connections.set connId conn }) hout ?_
        · dsimp only at hmirror
          rwa [JsMap.keep_set_of_not_mem hid] at hmirror
        · rintro c ⟨conn', hget, hadm⟩
          rw [JsMap.get_set] at hget
          split at hget
          · rw [← Option.some.inj hget, hpending] at hadm
            cases hadm
          · exact hV c ⟨conn', hget, hadm⟩
  unfold Server.onConnection
  dsimp only
  exact ((hopened _ rfl).log_left _).sendTo_left hid _

theorem stallTaintedSince (sinceTs : Int) : t.stallTaintedSince sinceTs = s.stallTaintedSince sinceTs := by
  cases h with
  | intro hout hV => rfl

theorem stallPending (hio : io.Renames f V io') : t.stallPending io' = s.stallPending io := by
  unfold Server.stallPending
  rw [hio.now]
  cases h with
  | intro hout hV => rfl

theorem onHelloTimeout (hio : io.Renames f V io') {id : ConnId} (hid : id ∈ V) :
    Mirrors f V (s.onHelloTimeout cfg io id) (t.onHelloTimeout cfg io' (f id)) := by
  unfold Server.onHelloTimeout
  rw [h.get hid, h.stallPending hio]
  cases hget : s.connections.get id with
  | none => exact h
  | some conn =>
      dsimp only
      rw [h.stallTaintedSince]
      split
      · exact h
      · split
        · exact (h.modifyConn hid _).logInfo _ _ _ _
        · exact ((h.modifyConn hid _).logErr _ _ _ _).wsClose _ _ _ _ _ _

theorem onHelloTimeout_left {id : ConnId} (hid : id ∉ V) : Mirrors f V (s.onHelloTimeout cfg io id) t := by
  unfold Server.onHelloTimeout
  cases hget : s.connections.get id with
  | none => exact h
  | some conn =>
      dsimp only
      split
      · exact h
      · rename_i hadm
        have hkeeps : ∀ c, s.connections.get id = some c → c.admitted = false := by
          intro c hc
          rw [← Option.some.inj (hget.symm.trans hc)]
          exact Bool.eq_false_iff.mpr hadm
        split
        · refine Mirrors.log_left ?_ _
          exact h.modifyConn_left hid fun c hc => hkeeps c hc
        · refine Mirrors.wsClose_left ?_ _ _ _
          refine Mirrors.log_left ?_ _
          exact h.modifyConn_left hid fun c hc => hkeeps c hc

theorem onTurnRelease {id : ConnId} (hid : id ∈ V) :
    Mirrors f V (s.onTurnRelease io id) (t.onTurnRelease io' (f id)) := by
  unfold Server.onTurnRelease
  rw [h.has hid]
  split
  · exact (h.modifyConn hid _).wsClose _ _ _ _ _ _
  · exact h

theorem onTurnRelease_left {id : ConnId} (hid : id ∉ V) : Mirrors f V (s.onTurnRelease io id) t := by
  unfold Server.onTurnRelease
  split
  · refine Mirrors.wsClose_left ?_ _ _ _
    refine h.modifyConn_left hid fun c hc => ?_
    by_contra hadm
    exact hid (h.within_of_get hc (Bool.not_eq_false _ ▸ hadm))
  · exact h

theorem delete {connId : ConnId} :
    Mirrors f V { s with connections := s.connections.delete connId }
      { t with connections := t.connections.delete (f connId) } := by
  cases h with
  | intro hout hV =>
      have htable := JsMap.delete_rename (f := f.toEmbedding) (g := id) (s.connections.keep V) connId
      rw [← JsMap.keep_delete] at htable
      dsimp only
      rw [show (s.connections.keep V |>.rename f.toEmbedding id).delete (f connId) =
        ((s.connections.delete connId).keep V).rename f.toEmbedding id from htable]
      refine ⟨hout, fun c hadm => ?_⟩
      obtain ⟨conn, hget, hadm⟩ := hadm
      rw [JsMap.get_delete] at hget
      split at hget
      · cases hget
      · exact hV c ⟨conn, hget, hadm⟩

theorem delete_left {connId : ConnId} (hid : connId ∉ V) :
    Mirrors f V { s with connections := s.connections.delete connId } t := by
  cases h with
  | intro hout hV =>
      have hmirror := Mirrors.intro (f := f)
        (s := { s with connections := s.connections.delete connId }) hout ?_
      · dsimp only at hmirror
        rwa [JsMap.keep_delete_of_not_mem hid] at hmirror
      · rintro c ⟨conn, hget, hadm⟩
        rw [JsMap.get_delete] at hget
        split at hget
        · cases hget
        · exact hV c ⟨conn, hget, hadm⟩

theorem onClose (hio : io.Renames f V io') {id : ConnId} (hid : id ∈ V) (code : Nat)
    (reason : JsString) :
    Mirrors f V (s.onClose cfg io id code reason) (t.onClose cfg io' (f id) code reason) := by
  have hdeparted : t.departedNodeId (f id) = s.departedNodeId id := h.connNodeHex id
  unfold Server.onClose
  rw [h.get hid, hdeparted, h.node, Node.handleConnClosed_rename, hio.now, hio.kernel]
  cases s.connections.get id with
  | none => exact h
  | some conn =>
      refine Mirrors.logInfo ?_ _ _ _ _
      refine Mirrors.broadcast ?_ hio (.peerLeft id (s.departedNodeId id) io.now) none
      exact h.delete.setNode (s.node.handleConnClosed cfg.node io.kernel id)

/-- A connection that is not mirrored closes, and nobody is told. -/
theorem onClose_left (hn : s.node.Knows (· ∈ V)) {id : ConnId} (hid : id ∉ V) (code : Nat)
    (reason : JsString)
    (hnobody : ∀ connId, connId ≠ id → s.IsAdmitted connId → io.sendError connId ≠ none) :
    Mirrors f V (s.onClose cfg io id code reason) t := by
  unfold Server.onClose
  rw [hn.handleConnClosed_eq_self hid]
  cases s.connections.get id with
  | none => exact h
  | some conn =>
      refine Mirrors.log_left ?_ _
      refine (h.delete_left hid).broadcast_left fun e he _ hadm => ?_
      have hget : (s.connections.delete id).get e.1 = some e.2 := JsMap.mem_entries_iff.mp he
      rw [JsMap.get_delete] at hget
      split at hget
      · cases hget
      · rename_i hne
        exact hnobody e.1 hne ⟨e.2, hget, hadm⟩

/-! ### The heartbeat and the sweep -/

theorem onHeartbeat (hio : io.Renames f V io') :
    Mirrors f V (s.onHeartbeat cfg io) (t.onHeartbeat cfg io') := by
  have hlast : t.lastHeartbeatAt = s.lastHeartbeatAt := by
    cases h with
    | intro hout hV => rfl
  have hbeat := h.update (g := fun u => { u with lastHeartbeatAt := io.now }) fun _ _ _ _ => rfl
  unfold Server.onHeartbeat
  dsimp only
  rw [hlast, hio.now]
  split
  · refine Mirrors.logErr ?_ _ _ _ _
    exact hbeat.update (g := fun u => { u with
      stallCount := u.stallCount + 1
      lastStallMs := io.now - s.lastHeartbeatAt - 1000
      lastStallEndAt := io.now
      maxStallMs := max u.maxStallMs (io.now - s.lastHeartbeatAt - 1000) }) fun _ _ _ _ => rfl
  · exact hbeat

theorem kickUnbound (hio : io.Renames f V io') (e : ConnId × Conn) :
    Mirrors f V (s.kickUnbound cfg io e) (t.kickUnbound cfg io' (f e.1, e.2)) := by
  have hcounted := h.update (g := fun u => { u with unboundKicked := u.unboundKicked + 1 })
    fun _ _ _ _ => rfl
  have hclosed : ∀ reason, Mirrors f V
      (({ s with unboundKicked := s.unboundKicked + 1 }.logInfo cfg (js "unbound-kick")
        [(js "connId", .str e.1), (js "ageMs", .int (io.now - e.2.since)),
          (js "peerVersion", .ofString? e.2.peerVersion), (js "pongs", .int e.2.pongs)]).wsClose io
        e.1 unauthenticated reason)
      (({ t with unboundKicked := t.unboundKicked + 1 }.logInfo cfg (js "unbound-kick")
        [(js "connId", .str (f e.1)), (js "ageMs", .int (io.now - e.2.since)),
          (js "peerVersion", .ofString? e.2.peerVersion), (js "pongs", .int e.2.pongs)]).wsClose io'
        (f e.1) unauthenticated reason) := fun reason =>
    (hcounted.logInfo _ _ _ _).wsClose _ _ _ _ _ _
  have hlogged : ∀ {u w : Server} (p q : Prop) [Decidable p] [Decidable q] (row row' : LogRow),
      Mirrors f V u w → Mirrors f V (if p then u.log cfg row else u) (if q then w.log cfg row' else w) := by
    intro u w p q _ _ row row' hm
    split
    · split
      · exact (hm.log_left row).log_right row'
      · exact hm.log_left row
    · split
      · exact hm.log_right row'
      · exact hm
  unfold Server.kickUnbound
  rw [hio.now]
  exact hlogged _ _ _ _ (hclosed _)

theorem kickIdle_left (e : ConnId × Conn) : Mirrors f V (s.kickIdle cfg io e) t :=
  (h.log_left _).append_left rfl

theorem kickIdle_right (e : ConnId × Conn) : Mirrors f V s (t.kickIdle cfg io e) :=
  (h.log_right _).append_right rfl

theorem sweepIdleConnections (hio : io.Renames f V io') :
    Mirrors f V (s.sweepIdleConnections cfg io) (t.sweepIdleConnections cfg io') := by
  have hidle : ∀ e : ConnId × Conn, isIdle cfg io' (f e.1, e.2) = isIdle cfg io e := by
    intro e
    unfold isIdle
    rw [hio.now]
  have hunbound : t.connections.entries.filter
      (fun e => !isIdle cfg io' e && t.isUnbound cfg io' e) =
        (s.connections.entries.filter fun e => !isIdle cfg io e && s.isUnbound cfg io e).map
          fun e => (f e.1, e.2) := by
    refine h.filter_entries (fun e he => ?_) fun e => ?_
    · unfold isUnbound at he
      simp only [Bool.and_eq_true] at he
      exact he.2.1.1.2
    · rw [hidle]
      unfold isUnbound
      rw [hio.now, h.node, show (s.node.rename f).transport = s.node.transport.rename f from rfl,
        Transport.get_nodeIdByConnId_rename]
  have hkick : ∀ (es : List (ConnId × Conn)) {u w : Server}, Mirrors f V u w →
      Mirrors f V (es.foldl (fun s e => s.kickUnbound cfg io e) u)
        ((es.map fun e => (f e.1, e.2)).foldl (fun s e => s.kickUnbound cfg io' e) w) := by
    intro es
    induction es with
    | nil => exact fun hm => hm
    | cons e es ih =>
        intro u w hm
        rw [List.map_cons, List.foldl_cons, List.foldl_cons]
        exact ih (hm.kickUnbound hio e)
  have hleft : ∀ (es : List (ConnId × Conn)) {u w : Server}, Mirrors f V u w →
      Mirrors f V (es.foldl (fun s e => s.kickIdle cfg io e) u) w := by
    intro es
    induction es with
    | nil => exact fun hm => hm
    | cons e es ih => exact fun hm => ih (hm.kickIdle_left e)
  have hright : ∀ (es : List (ConnId × Conn)) {u w : Server}, Mirrors f V u w →
      Mirrors f V u (es.foldl (fun s e => s.kickIdle cfg io' e) w) := by
    intro es
    induction es with
    | nil => exact fun hm => hm
    | cons e es ih => exact fun hm => ih (hm.kickIdle_right e)
  unfold Server.sweepIdleConnections
  rw [h.stallPending hio, hio.now, h.stallTaintedSince]
  split
  · exact h.logInfo _ _ _ _
  · dsimp only
    rw [hunbound]
    exact hright _ (hleft _ (hkick _ h))

/-! ### One event -/

omit h in
theorem step {f : Renumbering cfg.node.reservedId} (h : Mirrors f V s t) (hio : io.Renames f V io')
    (hn : s.node.Knows (· ∈ V)) {e e' : Event} (he : e.Renames cfg.node f e')
    (hsocket : ∀ id, e.socket = some id → id ∈ V)
    (hdest : ∀ id data dest, e = .message id data → s.Signals id data dest → dest ∈ V)
    (htoken : ∀ token connId, e.doorToken = some token → cfg.node.ownDoorKey token = some connId →
      connId ∈ V) :
    Mirrors f V (s.step cfg io e) (t.step cfg io' e') := by
  cases he with
  | connect id => exact h.onConnection hio (hsocket id rfl)
  | message id hdata =>
      exact h.onMessage hio hn (hsocket id rfl) hdata fun dest hs => hdest id _ dest rfl hs
  | closed id code reason => exact h.onClose hio (hsocket id rfl) code reason
  | helloTimeout id => exact h.onHelloTimeout hio (hsocket id rfl)
  | turnRelease id => exact h.onTurnRelease (hsocket id rfl)
  | maybeGraduate => exact h.maybeGraduate hio
  | heartbeat => exact h.onHeartbeat hio
  | sweep => exact h.sweepIdleConnections hio
  | requestTimeout promise =>
      have hset := h.setNode { s.node with transport := s.node.transport.timeout promise }
      unfold Server.step
      dsimp only
      rw [h.node]
      rw [show ({ s.node with transport := s.node.transport.timeout promise } : Node).rename f =
        { s.node.rename f with transport := (s.node.transport.timeout promise).rename f } from rfl,
        ← Transport.timeout_rename] at hset
      exact hset
  | helloBuilt i hello =>
      unfold Server.step
      dsimp only
      rw [h.node]
      exact h.withNode hio (Node.renames_helloBuilt i hello)
  | verified i res =>
      unfold Server.step
      dsimp only
      rw [h.node, hio.kernel]
      exact h.withNode hio (Node.renames_verified i res)
  | ackBuilt i ack =>
      unfold Server.step
      dsimp only
      rw [h.node]
      exact h.withNode hio (Node.renames_ackBuilt i ack)
  | answered i ok body =>
      unfold Server.step
      dsimp only
      rw [h.node]
      exact h.withNode hio (Node.renames_answered i ok body)
  | kernel act =>
      unfold Server.step
      dsimp only
      rw [h.node]
      exact h.withNode hio (Node.renames_act hn (fun c hc => h.isConnOpen hc) act)
  | meshUp =>
      have hset := h.setNode { s.node with mesh := true }
      unfold Server.step
      dsimp only
      rw [h.node]
      exact hset
  | @doorSink key key' hkey payload =>
      unfold Server.step
      dsimp only
      rw [h.node]
      refine h.withNode hio ⟨rfl, Node.renames_doorSink f hkey (fun c hc => ?_) payload⟩
      exact h.isConnOpen (htoken key c rfl hc)
  | doorBind nodeId htok hinput =>
      unfold Server.step
      dsimp only
      rw [h.node, hio.now]
      exact h.withNode hio (Node.renames_bindPolicy hinput htok io.now nodeId)
  | routeToDoor nodeId htok =>
      unfold Server.step
      dsimp only
      rw [h.node]
      exact h.withNode hio (Node.renames_onRouteToDoor htok nodeId)

/-! ### Events on the connections left out -/

theorem onClientHello_left {id : ConnId} (hid : id ∉ V) {conn : Conn} (hconn : conn.admitted = false)
    {msg : JsVal} (hmsg : ¬Passes cfg msg) :
    Mirrors f V (s.onClientHello cfg io id conn msg).1 t := by
  have hjudged : Mirrors f V (s.modifyConn id fun _ => Conn.ofHello conn msg) t :=
    h.modifyConn_left hid fun _ _ => hconn
  unfold Server.onClientHello
  dsimp only
  cases hverdict : gate cfg msg with
  | passed peerVersion ns floor => exact absurd ⟨peerVersion, ns, floor, hverdict⟩ hmsg
  | missingVersion => exact hjudged.refuse_left _ _
  | wireMismatch peerVersion => exact hjudged.refuse_left _ _
  | kernelTooOld peerVersion peerKernel minKernel => exact hjudged.refuse_left _ _
  | tooOld peerVersion ns floor effectiveMin => exact hjudged.refuse_left _ _

theorem onMessage_left {id : ConnId} (hid : id ∉ V) {data : Inbound} (hdata : ¬Admits cfg s id data) :
    Mirrors f V (s.onMessage cfg io id data).1 t := by
  unfold Server.onMessage
  cases hget : s.connections.get id with
  | none => exact h
  | some conn =>
      have hconn : conn.admitted = false := by
        by_contra hadm
        exact hid (h.within_of_get hget (Bool.not_eq_false _ ▸ hadm))
      have hseen : Mirrors f V (s.modifyConn id fun _ => { conn with lastSeenAt := io.now }) t :=
        h.modifyConn_left hid fun _ _ => hconn
      dsimp only
      cases data with
      | binary bytes => exact hseen.log_left _
      | text parsed =>
          cases parsed with
          | error err =>
              dsimp only
              exact hseen.log_left _
          | ok json =>
              dsimp only
              cases hread : JsVal.read (some json.revive) (js "type") with
              | error e => exact hseen
              | ok type =>
                  dsimp only
                  split
                  · rename_i hadm
                    cases hconn.symm.trans hadm
                  · split
                    · exact hseen.tryLog_left _ _ _
                    · rename_i htype
                      refine hseen.onClientHello_left hid
                        (show ({ conn with lastSeenAt := io.now } : Conn).admitted = false from hconn)
                        fun hpass => hdata ⟨?_, json, rfl, ?_, hpass⟩
                      · rw [admission, hget, Option.map_some, hconn]
                      · rcases @read_some json.revive (js "type") with ⟨-, hnull⟩ | hfield
                        · cases hnull.symm.trans hread
                        · cases hfield.symm.trans hread
                          exact not_not.mp htype

/-- An event on a connection outside `V` that is not admitted by it, and whose close is told to
nobody. -/
theorem step_left (hn : s.node.Knows (· ∈ V)) {e : Event} {id : ConnId} (hsocket : e.socket = some id)
    (hid : id ∉ V) (hadmits : ∀ data, e = .message id data → ¬Admits cfg s id data)
    (hnobody : ∀ code reason, e = .closed id code reason →
      ∀ connId, connId ≠ id → s.IsAdmitted connId → io.sendError connId ≠ none) :
    Mirrors f V (s.step cfg io e) t := by
  cases e with
  | connect connId =>
      cases hsocket
      exact h.onConnection_left hid
  | message connId data =>
      cases hsocket
      exact h.onMessage_left hid (hadmits data rfl)
  | closed connId code reason =>
      cases hsocket
      exact h.onClose_left hn hid code reason (hnobody code reason rfl)
  | helloTimeout connId =>
      cases hsocket
      exact h.onHelloTimeout_left hid
  | turnRelease connId =>
      cases hsocket
      exact h.onTurnRelease_left hid
  | _ => cases hsocket

end Mirrors

end Server

end AxonaBridge
