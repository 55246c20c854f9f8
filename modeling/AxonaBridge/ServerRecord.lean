import AxonaBridge.ServerCloses

/-!
# What the server judges by

The clocks of the server and the marks of its connections: what the graduation, the hello timer and
the idle sweep are decided on. `Remembers` says what one event makes of them. Sending, closing and
logging leave the record alone, and so does the node.
-/

open JsText

namespace AxonaBridge

/-- What a connection is judged by. -/
structure Mark where
  since : Int
  admitted : Bool
  helloRetried : Bool
  turnRefreshOnly : Bool
  intro : Option Intro

def Conn.mark (c : Conn) : Mark where
  since := c.since
  admitted := c.admitted
  helloRetried := c.helloRetried
  turnRefreshOnly := c.turnRefreshOnly
  intro := c.intro

@[ext] structure Record where
  lastGraduationAt : Int
  graduatedRecently : JsMap JsString Int
  lastHeartbeatAt : Int
  lastStallEndAt : Int
  marks : ConnId → Option Mark

namespace Record

def modify (r : Record) (id : ConnId) (f : Mark → Mark) : Record :=
  { r with marks := fun connId => if connId = id then (r.marks id).map f else r.marks connId }

/-- Enter a connection under its id. -/
def enter (r : Record) (id : ConnId) (m : Option Mark) : Record :=
  { r with marks := fun connId => if connId = id then m else r.marks connId }

/-- Some peer of a list is admitted and came more than a cohort before `since`. -/
def reachesOlder (r : Record) (cohortMs since : Int) (peers : List ConnId) : Bool :=
  peers.any fun peer => (r.marks peer).any fun m => m.admitted && cohortMs < since - m.since

/-- Record what an introduction reached. -/
def introduce (r : Record) (cohortMs : Int) (id : ConnId) (since : Int) (peers : List ConnId)
    (listed : Bool) : Record :=
  r.modify id fun m =>
    { m with intro := some ((m.intro.getD {}).record (r.reachesOlder cohortMs since peers) listed) }

/-- Remember when an identity was released. -/
def noteGraduated (r : Record) (now : Int) (nh : Option JsString) : Record :=
  match nh with
  | none => r
  | some nh => { r with graduatedRecently := r.graduatedRecently.set nh now }

/-- A mark after a change is an old one, or a changed one of the connection. -/
theorem exists_of_marks_modify {r : Record} {id connId : ConnId} {f : Mark → Mark} {m' : Mark}
    (hm' : (r.modify id f).marks connId = some m') :
    ∃ m, r.marks connId = some m ∧ ((connId = id ∧ m' = f m) ∨ m' = m) := by
  dsimp only [modify] at hm'
  split at hm'
  · rename_i hid
    obtain ⟨m, hm, rfl⟩ := Option.map_eq_some_iff.mp hm'
    exact ⟨m, hid ▸ hm, Or.inl ⟨hid, rfl⟩⟩
  · exact ⟨m', hm', Or.inr rfl⟩

theorem marks_noteGraduated (r : Record) (now : Int) (nh : Option JsString) :
    (r.noteGraduated now nh).marks = r.marks := by
  cases nh <;> rfl

theorem modify_id (r : Record) (id : ConnId) : r.modify id (fun m => m) = r := by
  unfold modify
  congr
  funext connId
  split
  · rename_i h
    rw [h, Option.map_id']
  · rfl

theorem modify_modify (r : Record) (id : ConnId) (f g : Mark → Mark) :
    (r.modify id f).modify id g = r.modify id (g ∘ f) := by
  unfold modify
  congr
  funext connId
  dsimp only
  split
  · rw [if_pos rfl, Option.map_map]
  · rfl

end Record

namespace Server

variable {cfg : Config} {io : Io} {s s' : Server}

def record (s : Server) : Record where
  lastGraduationAt := s.lastGraduationAt
  graduatedRecently := s.graduatedRecently
  lastHeartbeatAt := s.lastHeartbeatAt
  lastStallEndAt := s.lastStallEndAt
  marks := fun connId => (s.connections.get connId).map Conn.mark

theorem marks_record (connId : ConnId) :
    s.record.marks connId = (s.connections.get connId).map Conn.mark := rfl

/-- A change of a connection is a change of its mark. -/
theorem record_modifyConn {id : ConnId} {f : Conn → Conn} {g : Mark → Mark}
    (h : ∀ conn, s.connections.get id = some conn → (f conn).mark = g conn.mark) :
    (s.modifyConn id f).record = s.record.modify id g := by
  have hmarks : (s.modifyConn id f).record.marks = (s.record.modify id g).marks := by
    funext connId
    rw [marks_record, get_modifyConn]
    dsimp only [Record.modify]
    split
    · rw [marks_record]
      cases hget : s.connections.get id with
      | none => rfl
      | some conn => exact congrArg some (h conn hget)
    · rfl
  exact Record.ext rfl rfl rfl rfl hmarks

/-- A change of a connection that leaves its mark alone. -/
theorem record_touch {id : ConnId} {f : Conn → Conn}
    (h : ∀ conn, s.connections.get id = some conn → (f conn).mark = conn.mark) :
    (s.modifyConn id f).record = s.record :=
  (record_modifyConn h).trans (Record.modify_id _ id)

theorem record_heard {id : ConnId} {conn : Conn} (hget : s.connections.get id = some conn) :
    (s.modifyConn id fun _ => { conn with lastSeenAt := io.now }).record = s.record := by
  refine record_touch fun c hc => ?_
  rw [hget] at hc
  cases hc
  rfl

/-! ### Operations that leave the record alone -/

@[simp] theorem record_log (row : LogRow) : (s.log cfg row).record = s.record := by
  unfold log
  split <;> rfl

@[simp] theorem record_logInfo (event : JsString) (fields : List (JsString × LogVal)) :
    (s.logInfo cfg event fields).record = s.record := record_log _

@[simp] theorem record_logErr (event : JsString) (fields : List (JsString × LogVal)) :
    (s.logErr cfg event fields).record = s.record := record_log _

@[simp] theorem record_logDebug (event : JsString) (fields : List (JsString × LogVal)) :
    (s.logDebug cfg event fields).record = s.record := record_log _

@[simp] theorem record_tryLog (level : LogLevel) (event : JsString)
    (fields : List (JsString × JsVal)) :
    (s.tryLog cfg level event fields).1.record = s.record := by
  unfold tryLog
  split
  · rfl
  · split
    · exact record_log _
    · rfl

@[simp] theorem record_wsSend (connId : ConnId) (frame : Frame) :
    (s.wsSend io connId frame).2.record = s.record := by
  unfold wsSend
  split <;> rfl

@[simp] theorem record_wsClose (connId : ConnId) (code : Nat) (reason : JsString) :
    (s.wsClose io connId code reason).record = s.record := rfl

@[simp] theorem record_sendFailed (event : JsString) (connId : ConnId) (frame : Frame) :
    (s.sendFailed cfg io event connId frame).record = s.record := record_log _

@[simp] theorem record_sendTo (peerId : ConnId) (msg : Frame) :
    (s.sendTo cfg io peerId msg).2.record = s.record := by
  unfold sendTo
  dsimp only
  split
  · rfl
  · split
    · exact record_wsSend _ _
    · dsimp only
      rw [record_sendFailed, record_wsSend]

@[simp] theorem record_broadcast (msg : Frame) (exceptId : Option ConnId) :
    (s.broadcast cfg io msg exceptId).2.record = s.record := by
  rw [broadcast_eq]
  refine foldl_keeps (fun acc : Nat × Server => acc.2.record) _ (fun acc e => ?_) _ _
  unfold broadcastOne
  dsimp only
  split
  · rfl
  · split
    · exact record_wsSend _ _
    · dsimp only
      rw [record_sendFailed, record_wsSend]

@[simp] theorem record_perform (o : NodeOut) : (s.perform cfg io o).record = s.record := by
  cases o with
  | send connId payload => exact record_sendTo _ _
  | signal connId sender payload => exact record_sendTo _ _
  | close connId reason =>
      unfold perform
      dsimp only
      split <;> rfl
  | log row => exact record_log _

@[simp] theorem record_withNode (r : Node × List NodeOut) :
    (s.withNode cfg io r).record = s.record :=
  foldl_keeps Server.record _ (fun _ o => record_perform o) { s with node := r.1 } r.2

@[simp] theorem record_graduatedSample (id : ConnId) :
    (s.graduatedSample cfg io id).2.record = s.record := by
  unfold graduatedSample
  split <;> rfl

@[simp] theorem record_introduce (id : ConnId) (newRegion : Option JsString) :
    (s.introduce cfg io id newRegion).2.record = s.record := by
  unfold introduce
  split
  · refine foldl_keeps Server.record _ ?_ _ _
    exact fun s aid => record_touch fun _ _ => rfl
  · rfl

@[simp] theorem record_releaseLater (id : ConnId) (conn : Conn) :
    (s.releaseLater cfg id conn).record = s.record := by
  unfold releaseLater
  refine (record_touch ?_).trans ?_
  · exact fun _ _ => rfl
  · rw [record_logInfo]
    rfl

theorem record_noteGraduated (nh : Option JsString) :
    (s.noteGraduated io nh).record = s.record.noteGraduated io.now nh := by
  cases nh <;> rfl

/-! ### The sample -/

@[simp] theorem registry_log (row : LogRow) : (s.log cfg row).registry = s.registry := by
  unfold log
  split <;> rfl

@[simp] theorem registry_logInfo (event : JsString) (fields : List (JsString × LogVal)) :
    (s.logInfo cfg event fields).registry = s.registry := registry_log _

@[simp] theorem registry_sendTo (peerId : ConnId) (msg : Frame) :
    (s.sendTo cfg io peerId msg).2.registry = s.registry := by
  have hsend : (s.wsSend io peerId msg).2.registry = s.registry := by
    unfold wsSend
    split <;> rfl
  unfold sendTo
  dsimp only
  split
  · rfl
  · split
    · exact hsend
    · exact (registry_log _).trans hsend

@[simp] theorem registry_introduce (id : ConnId) (newRegion : Option JsString) :
    (s.introduce cfg io id newRegion).2.registry = s.registry := by
  unfold introduce
  split
  · refine foldl_keeps Server.registry _ ?_ _ _
    exact fun _ _ => rfl
  · rfl

/-- The ids of the graduated that go with a list. -/
def sampleFor (cfg : Config) (io : Io) (s : Server) (id : ConnId) : List JsString :=
  (s.graduatedSample cfg io id).1

theorem sampleFor_congr (hregistry : s'.registry = s.registry) (hnode : s'.node = s.node) (id : ConnId) :
    s'.sampleFor cfg io id = s.sampleFor cfg io id := by
  unfold sampleFor graduatedSample connNodeHex
  rw [hregistry, hnode]
  split <;> rfl

/-! ### Introductions -/

theorem reachesOlder_record (cohortMs since : Int) (peers : List ConnId) :
    s.record.reachesOlder cohortMs since peers = peers.any fun aid =>
      (s.connections.get aid).any fun ac => ac.admitted && cohortMs < since - ac.since := by
  unfold Record.reachesOlder
  congr
  funext aid
  rw [marks_record, Option.any_map]
  rfl

theorem record_recordIntroduction (id : ConnId) (conn : Conn) (peers : List ConnId) (listed : Bool) :
    (s.recordIntroduction cfg id conn peers listed).record =
      s.record.introduce cfg.cohortMs id conn.since peers listed := by
  refine record_modifyConn fun c _ => ?_
  rw [reachesOlder_record]
  rfl

theorem record_sendPeerList (id : ConnId) (conn : Conn) (peers : List ConnId) :
    (s.sendPeerList cfg io id conn peers).2.record =
      s.record.introduce cfg.cohortMs id conn.since peers (s.sampleFor cfg io id ≠ []) := by
  unfold sendPeerList
  dsimp only
  rw [record_sendTo, record_recordIntroduction, record_graduatedSample]
  rfl

theorem record_onPeerListRequest (id : ConnId) (conn : Conn) :
    (s.onPeerListRequest cfg io id conn).record =
      s.record.introduce cfg.cohortMs id conn.since (s.withReserved cfg conn (s.admittedOthers id))
        (s.sampleFor cfg io id ≠ []) := by
  unfold onPeerListRequest
  dsimp only
  rw [record_logInfo, record_sendPeerList]

/-! ### Frames of an admitted connection -/

theorem record_releaseSocket (id : ConnId) (c : Conn) :
    (s.releaseSocket cfg io id c).record = s.record.noteGraduated io.now (s.connNodeHex id) := by
  unfold releaseSocket
  dsimp only
  rw [record_logInfo, record_logDebug]
  exact (record_noteGraduated _).trans (by rw [record_wsClose]; rfl)

theorem record_sendPong (id : ConnId) (msg : JsVal) :
    (s.sendPong cfg io id msg).record = s.record := by
  unfold sendPong
  dsimp only
  split
  · exact record_logErr _ _
  · split
    · rw [record_logDebug, record_touch, record_wsSend]
      exact fun _ _ => rfl
    · exact record_logErr _ _

/-- A ping releases its socket under rule 4 or is answered. -/
theorem onPing_cases {id : ConnId} {conn : Conn} (hget : s.connections.get id = some conn) (msg : JsVal) :
    ∃ t : Server, t.out = s.out ∧ t.record = s.record ∧ t.node = s.node ∧
      ((∃ m, reportedMeshBound msg = some m ∧
          ReleaseDue cfg io s id { conn with meshBound := some m, meshBoundAt := io.now } ∧
          ∃ c, s.onPing cfg io id msg = t.releaseSocket cfg io id c) ∨
        ((∀ m, reportedMeshBound msg = some m →
            ¬ReleaseDue cfg io s id { conn with meshBound := some m, meshBoundAt := io.now }) ∧
          s.onPing cfg io id msg = t.sendPong cfg io id msg)) := by
  have hcounted : (s.modifyConn id fun c => { c with pings := c.pings + 1 }).record = s.record :=
    record_touch fun _ _ => rfl
  unfold onPing
  dsimp only
  cases hreported : reportedMeshBound msg with
  | none =>
      refine ⟨_, ?_, hcounted, ?_, Or.inr ⟨fun m h => (by cases h), rfl⟩⟩
      · rfl
      · rfl
  | some m =>
      have hstamped : ((s.modifyConn id fun c => { c with pings := c.pings + 1 }).modifyConn id
          fun c => { c with meshBound := some m, meshBoundAt := io.now }).record = s.record := by
        rw [record_touch, hcounted]
        exact fun _ _ => rfl
      have hnow : ((s.modifyConn id fun c => { c with pings := c.pings + 1 }).modifyConn id
          fun c => { c with meshBound := some m, meshBoundAt := io.now }).connections.get id =
            some { conn with pings := conn.pings + 1, meshBound := some m, meshBoundAt := io.now } := by
        rw [get_modifyConn, if_pos rfl, get_modifyConn, if_pos rfl, hget]
        rfl
      refine ⟨_, ?_, hstamped, ?_, ?_⟩
      · rfl
      · rfl
      · dsimp only
        rw [maybeCloseBootstrapSocket_eq, hnow]
        dsimp only
        split
        · rename_i hdue
          rw [if_pos rfl]
          exact Or.inl ⟨m, rfl, hdue, _, rfl⟩
        · rename_i hdue
          rw [if_neg Bool.false_ne_true]
          refine Or.inr ⟨fun m' h => ?_, rfl⟩
          cases h
          exact hdue

/-- Rule 4 releases the connection that a ping arrives on. -/
def Releases (cfg : Config) (io : Io) (s : Server) (id : ConnId) (json : JsVal) : Prop :=
  ∃ conn m, Receives s id conn json (js "ping") ∧ reportedMeshBound json.revive = some m ∧
    ReleaseDue cfg io s id { conn with meshBound := some m, meshBoundAt := io.now }

theorem record_onTurnRefresh (id : ConnId) : (s.onTurnRefresh cfg io id).record = s.record := by
  unfold onTurnRefresh
  dsimp only
  rw [record_logDebug]
  split
  · exact record_sendTo _ _
  · rfl

theorem record_onAxona (id : ConnId) (msg : JsVal) : (s.onAxona cfg io id msg).1.record = s.record := by
  unfold onAxona
  split
  · split
    · exact record_withNode _
    · rfl
  · rfl

theorem record_relaySignal (id dest : ConnId) (payload : Option JsVal) :
    (s.relaySignal cfg io id dest payload).record = s.record := by
  unfold relaySignal
  dsimp only
  split
  · rw [record_logDebug, record_touch, record_sendTo]
    exact fun _ _ => rfl
  · exact record_sendTo _ _

theorem mark_meter (conn : Conn) : (meter cfg io conn).2.mark = conn.mark := by
  have hopen : (openWindow cfg io conn).mark = conn.mark := by
    unfold openWindow
    split <;> rfl
  unfold meter
  dsimp only
  split <;> exact hopen

theorem record_meteredRelay {id : ConnId} {conn : Conn} (hget : s.connections.get id = some conn)
    (dest : ConnId) (payload : Option JsVal) :
    (s.meteredRelay cfg io id conn dest payload).record = s.record := by
  have hmeter : (s.modifyConn id fun _ => (meter cfg io conn).2).record = s.record := by
    refine record_touch fun c hc => ?_
    rw [hget] at hc
    cases hc
    exact mark_meter conn
  unfold meteredRelay
  dsimp only
  split
  · exact record_relaySignal _ _ _
  · split
    · rw [record_relaySignal, hmeter]
    · split
      · rw [record_logInfo]
        exact hmeter
      · exact hmeter

theorem record_onSignal {id : ConnId} {conn : Conn} (hget : s.connections.get id = some conn)
    (msg : JsVal) : (s.onSignal cfg io id conn msg).record = s.record := by
  unfold onSignal
  split
  · exact record_logErr _ _
  · dsimp only
    split_ifs
    all_goals
      first
        | exact record_withNode _
        | exact record_logDebug _ _
        | exact record_meteredRelay hget _ _

/-! ### Client-hellos -/

theorem record_announce (id : ConnId) (conn : Conn) :
    (s.announce cfg io id conn).record =
      s.record.introduce cfg.cohortMs id conn.since (s.introductions cfg io id conn)
        (s.sampleFor cfg io id ≠ []) := by
  have hnode : (s.introduce cfg io id conn.claimedRegion).2.node = s.node := node_introduce _ _
  unfold announce
  dsimp only
  rw [record_withNode, record_logInfo, record_broadcast, record_sendPeerList, record_introduce,
    withReserved_introduce,
    sampleFor_congr (registry_introduce _ _) hnode]

theorem record_admitConnection (id : ConnId) (conn : Conn) :
    (s.admitConnection cfg io id conn).record =
      if conn.turnRefreshOnly then s.record.modify id fun m => { m with admitted := true }
      else (s.record.modify id fun m => { m with admitted := true }).introduce cfg.cohortMs id conn.since
        ((s.modifyConn id fun c => { c with helloTimer := false, admitted := true }).introductions cfg io
          id conn) (s.sampleFor cfg io id ≠ []) := by
  have hadmit : (s.modifyConn id fun c => { c with helloTimer := false, admitted := true }).record =
      s.record.modify id fun m => { m with admitted := true } := record_modifyConn fun _ _ => rfl
  unfold admitConnection
  dsimp only
  split
  · rw [record_releaseLater, record_sendTo, hadmit]
  · rw [record_announce, record_sendTo, hadmit, introductions_congr (connections_sendTo _ _) (node_sendTo _ _),
      sampleFor_congr (s := s) ?_ ?_]
    · rw [registry_sendTo]
      rfl
    · rw [node_sendTo]
      rfl

theorem record_refuse (id : ConnId) (r : Refusal) : (s.refuse cfg io id r).1.record = s.record := by
  have hlog : (s.tryLog cfg .error r.event r.fields).1.record = s.record := record_tryLog _ _ _
  unfold refuse
  split
  · rename_i s' e h
    rw [h] at hlog
    exact hlog
  · rename_i s' h
    rw [h] at hlog
    split
    · exact hlog
    · exact hlog

theorem record_onClientHello {id : ConnId} {conn : Conn} (hget : s.connections.get id = some conn)
    (msg : JsVal) :
    (¬Passes cfg msg → (s.onClientHello cfg io id conn msg).1.record = s.record.modify id fun m =>
      { m with turnRefreshOnly := (Conn.ofHello conn msg).turnRefreshOnly }) ∧
    (Passes cfg msg → (s.onClientHello cfg io id conn msg).1.record =
      if (Conn.ofHello conn msg).turnRefreshOnly then
        s.record.modify id fun m => { m with turnRefreshOnly := true, admitted := true }
      else
        (s.record.modify id fun m => { m with turnRefreshOnly := false, admitted := true }).introduce
          cfg.cohortMs id conn.since
          (((s.modifyConn id fun _ => Conn.ofHello conn msg).modifyConn id fun c =>
            { c with helloTimer := false, admitted := true }).introductions cfg io id
              (Conn.ofHello conn msg)) (s.sampleFor cfg io id ≠ [])) := by
  have hheard : (s.modifyConn id fun _ => Conn.ofHello conn msg).record = s.record.modify id fun m =>
      { m with turnRefreshOnly := (Conn.ofHello conn msg).turnRefreshOnly } := by
    refine record_modifyConn fun c hc => ?_
    rw [hget] at hc
    cases hc
    rfl
  unfold onClientHello
  dsimp only
  split
  · rename_i r hr
    refine ⟨fun _ => (record_refuse _ _).trans hheard, fun hpass => ?_⟩
    rw [refusal_eq_none_iff.mpr hpass] at hr
    cases hr
  · rename_i peerVersion ns floor hnone hpassed
    refine ⟨fun hnot => absurd ⟨_, _, _, hpassed⟩ hnot, fun _ => ?_⟩
    dsimp only
    rw [record_admitConnection, record_logInfo, hheard, Record.modify_modify,
      introductions_congr (connections_modifyConn_congr (connections_logInfo _ _) id _)
        (by rw [node_modifyConn, node_logInfo, node_modifyConn, node_modifyConn, node_modifyConn]),
      sampleFor_congr (s := s) ?_ ?_]
    · split
      · rename_i hrefresh
        rw [hrefresh]
        rfl
      · rename_i hfull
        rw [Bool.not_eq_true] at hfull
        rw [hfull]
        rfl
    · rw [registry_logInfo]
      rfl
    · rw [node_logInfo, node_modifyConn]
  · rename_i hnone hnot
    obtain ⟨peerVersion, ns, floor, hpassed⟩ := refusal_eq_none_iff.mp hnone
    exact absurd hpassed (hnot peerVersion ns floor)

/-! ### One event -/

/-- The record of a pick. -/
def afterGraduation (cfg : Config) (io : Io) (s : Server) (pick : GraduationSelect.Pick) : Record :=
  let r := s.record.noteGraduated io.now (s.connNodeHex pick.id)
  { r with
    lastGraduationAt := io.now
    graduatedRecently :=
      if 1000 < r.graduatedRecently.size then
        r.graduatedRecently.filter fun e => io.now - e.2 ≤ cfg.graduationCooldownMs
      else r.graduatedRecently }

/-- The sampler's lag reaches the length of a stall. -/
def afterHeartbeat (io : Io) (r : Record) : Record :=
  { r with
    lastHeartbeatAt := io.now
    lastStallEndAt := if 2000 ≤ io.now - r.lastHeartbeatAt - 1000 then io.now else r.lastStallEndAt }

/-- The event leaves the record alone. -/
def LeavesRecord (cfg : Config) (io : Io) (s : Server) : Event → Prop
  | .connect _ => False
  | .closed .. => False
  | .heartbeat => False
  | .maybeGraduate => GraduationDue cfg io s → s.selection cfg io = none
  | .message id data => ∀ json, data = .text (.ok json) → ¬Releases cfg io s id json
  | _ => True

/-- What one event makes of the record. -/
inductive Remembers (cfg : Config) (io : Io) (s : Server) : Event → Record → Prop
  | same {e : Event} (h : LeavesRecord cfg io s e) : Remembers cfg io s e s.record
  | connect (id : ConnId) :
      Remembers cfg io s (.connect id) (s.record.enter id (some
        { since := io.now, admitted := false, helloRetried := false, turnRefreshOnly := false,
          intro := none }))
  | closed (id : ConnId) (code : Nat) (reason : JsString) :
      Remembers cfg io s (.closed id code reason) (s.record.enter id none)
  | grace {id : ConnId} {conn : Conn} (hget : s.connections.get id = some conn)
      (hadm : conn.admitted = false) (hfirst : conn.helloRetried = false)
      (hstall : (s.stallTaintedSince conn.since || s.stallPending io) = true) :
      Remembers cfg io s (.helloTimeout id) (s.record.modify id fun m => { m with helloRetried := true })
  | refused {id : ConnId} {conn : Conn} {json : JsVal} (hget : s.connections.get id = some conn)
      (hadm : conn.admitted = false) :
      Remembers cfg io s (.message id (.text (.ok json))) (s.record.modify id fun m =>
        { m with turnRefreshOnly := (Conn.ofHello conn json.revive).turnRefreshOnly })
  | credential {id : ConnId} {conn : Conn} {json : JsVal} (h : Admits cfg s id (.text (.ok json)))
      (hget : s.connections.get id = some conn)
      (hrefresh : (Conn.ofHello conn json.revive).turnRefreshOnly = true) :
      Remembers cfg io s (.message id (.text (.ok json))) (s.record.modify id fun m =>
        { m with turnRefreshOnly := true, admitted := true })
  | introduced {id : ConnId} {conn : Conn} {json : JsVal} (h : Introduces cfg s id conn json) :
      Remembers cfg io s (.message id (.text (.ok json)))
        ((s.record.modify id fun m => { m with turnRefreshOnly := false, admitted := true }).introduce
          cfg.cohortMs id conn.since ((greet io s id conn json.revive).introductions cfg io id
            (Conn.ofHello conn json.revive)) (s.sampleFor cfg io id ≠ []))
  | relisted {id : ConnId} {conn : Conn} {json : JsVal}
      (h : Receives s id conn json (js "peer-list-request")) :
      Remembers cfg io s (.message id (.text (.ok json))) (s.record.introduce cfg.cohortMs id conn.since
        (s.withReserved cfg conn (s.admittedOthers id)) (s.sampleFor cfg io id ≠ []))
  | released {id : ConnId} {json : JsVal} (h : Releases cfg io s id json) :
      Remembers cfg io s (.message id (.text (.ok json)))
        (s.record.noteGraduated io.now (s.connNodeHex id))
  | graduated {pick : GraduationSelect.Pick} (hdue : GraduationDue cfg io s)
      (hpick : s.selection cfg io = some pick) :
      Remembers cfg io s .maybeGraduate (afterGraduation cfg io s pick)
  | heartbeat : Remembers cfg io s .heartbeat (afterHeartbeat io s.record)

theorem remembers_onFrame {id : ConnId} {conn : Conn} {json : JsVal}
    (hget : s.connections.get id = some conn) (hadm : conn.admitted = true) :
    Remembers cfg io s (.message id (.text (.ok json)))
      ((s.modifyConn id fun _ => { conn with lastSeenAt := io.now }).onFrame cfg io id
        { conn with lastSeenAt := io.now } json.revive).1.record := by
  have hget' := @get_heard io s id conn hget
  have htouch := @record_heard io s id conn hget
  have hsame : ∀ {t : Server}, t.record = s.record →
      JsVal.asString (json.revive.field (js "type")) ≠ some (js "ping") →
        Remembers cfg io s (.message id (.text (.ok json))) t.record := by
    intro t ht hping
    rw [ht]
    refine .same fun json' heq => ?_
    cases heq
    exact fun ⟨_, _, hreceives, _⟩ => hping hreceives.type
  unfold onFrame
  dsimp only
  split_ifs with hlist hping hturn haxona hsignal
  · dsimp only
    rw [record_onPeerListRequest, htouch, admittedOthers_modifyConn,
      sampleFor_congr (s := s) ?_ ?_]
    · exact @Remembers.relisted cfg io s id conn json ⟨hget, hadm, hlist⟩
    · rfl
    · rfl
  · dsimp only
    obtain ⟨t, -, ht, hnode, hcase⟩ := @onPing_cases cfg io _ id _ hget' json.revive
    rcases hcase with ⟨m, hm, hdue, c, heq⟩ | ⟨hnot, heq⟩
    · rw [heq, record_releaseSocket, ht, htouch]
      have hhex : t.connNodeHex id = s.connNodeHex id := by
        unfold connNodeHex
        rw [hnode]
        rfl
      rw [hhex]
      exact .released ⟨conn, m, ⟨hget, hadm, hping⟩, hm, hdue⟩
    · rw [heq, record_sendPong, ht, htouch]
      refine .same fun json' heq => ?_
      cases heq
      rintro ⟨conn', m, hreceives, hm, hdue⟩
      refine hnot m hm ?_
      have hconn := hreceives.get
      rw [hget] at hconn
      cases hconn
      exact hdue
  · exact hsame ((record_onTurnRefresh _).trans htouch) hping
  · exact hsame ((record_onAxona _ _).trans htouch) hping
  · exact hsame ((record_onSignal hget' _).trans htouch) hping
  · exact hsame ((record_tryLog _ _ _).trans htouch) hping

theorem remembers_onMessage (id : ConnId) (data : Inbound) :
    Remembers cfg io s (.message id data) (s.onMessage cfg io id data).1.record := by
  unfold onMessage
  split
  · rename_i hget
    refine .same fun json _ => ?_
    rintro ⟨conn, -, hreceives, -⟩
    cases hget.symm.trans hreceives.get
  · rename_i conn hget
    have hget' := @get_heard io s id conn hget
    have htouch := @record_heard io s id conn hget
    dsimp only
    split
    · rw [record_logDebug, htouch]
      exact .same fun json heq => (by cases heq)
    · rw [record_logErr, htouch]
      exact .same fun json heq => (by cases heq)
    · rename_i json
      have hsame : ¬Receives s id conn json (js "ping") →
          Remembers cfg io s (.message id (.text (.ok json))) s.record := by
        refine fun hnot => .same fun json' heq => ?_
        cases heq
        rintro ⟨conn', -, hreceives, -⟩
        have hconn := hreceives.get
        rw [hget] at hconn
        cases hconn
        exact hnot hreceives
      rcases @read_some json.revive (js "type") with ⟨hnull, hread⟩ | hread
      · rw [hread]
        dsimp only
        rw [htouch]
        refine hsame fun h => ?_
        have htype := h.type
        rw [hnull] at htype
        cases htype
      · rw [hread]
        dsimp only
        split
        · rename_i hadm
          exact remembers_onFrame hget hadm
        · rename_i hadm
          rw [Bool.not_eq_true] at hadm
          split
          · rename_i htype
            rw [record_tryLog, htouch]
            exact hsame fun h => Bool.false_ne_true (hadm.symm.trans h.admitted)
          · rename_i htype
            rw [not_not] at htype
            obtain ⟨hrefused, hpassed⟩ := @record_onClientHello cfg io _ id _ hget' json.revive
            by_cases hpass : Passes cfg json.revive
            · have hadmits : Admits cfg s id (.text (.ok json)) := by
                refine ⟨?_, json, rfl, htype, hpass⟩
                rw [admission, hget, Option.map_some, hadm]
              rw [hpassed hpass, htouch, sampleFor_congr (s := s) ?_ ?_]
              · split
                · rename_i hrefresh
                  exact .credential hadmits hget hrefresh
                · rename_i hfull
                  exact @Remembers.introduced cfg io s id conn json
                    ⟨hadmits, hget, Bool.eq_false_iff.mpr hfull⟩
              · rfl
              · rfl
            · rw [hrefused hpass, htouch]
              exact @Remembers.refused cfg io s id conn json hget hadm

theorem record_noteCohortOnly (pick : GraduationSelect.Pick) (c : Conn) :
    (s.noteCohortOnly cfg io pick c).record = s.record := by
  unfold noteCohortOnly
  split
  · exact record_logInfo _ _
  · rfl

theorem record_graduate (pick : GraduationSelect.Pick) (c : Conn) (admitted : Nat) :
    (s.graduate cfg io pick c admitted).record = afterGraduation cfg io s pick := by
  have hprune : ∀ t : Server, (t.pruneCooldowns cfg io).record =
      { t.record with graduatedRecently :=
          if 1000 < t.record.graduatedRecently.size then
            t.record.graduatedRecently.filter fun e => io.now - e.2 ≤ cfg.graduationCooldownMs
          else t.record.graduatedRecently } := fun _ => rfl
  have hstamp : ∀ (t : Server) (total : Nat),
      { t with lastGraduationAt := io.now, graduatedTotal := total }.record =
        { t.record with lastGraduationAt := io.now } := fun _ _ => rfl
  have hhex : (s.wsClose io pick.id graduated
      (js "graduated — you are meshed; freeing the bridge slot")).connNodeHex = s.connNodeHex := rfl
  unfold graduate
  dsimp only
  rw [hprune, record_noteCohortOnly, record_logInfo, hstamp, record_noteGraduated, record_wsClose, hhex]
  rfl

theorem remembers_maybeGraduate :
    Remembers cfg io s .maybeGraduate (s.maybeGraduate cfg io).record := by
  rcases maybeGraduate_cases cfg io s with ⟨pick, c, held, hdue, hpick, -, heq⟩ | ⟨hnone, held, heq⟩
  · rw [heq, record_graduate]
    exact Remembers.graduated hdue hpick
  · rw [heq]
    exact Remembers.same hnone

theorem record_onHeartbeat : (s.onHeartbeat cfg io).record = afterHeartbeat io s.record := by
  unfold onHeartbeat afterHeartbeat
  dsimp only
  split
  · rename_i hlag
    have hend : (if 2000 ≤ io.now - s.record.lastHeartbeatAt - 1000 then io.now
        else s.record.lastStallEndAt) = io.now := if_pos hlag
    rw [record_logErr, hend]
    rfl
  · rename_i hlag
    have hend : (if 2000 ≤ io.now - s.record.lastHeartbeatAt - 1000 then io.now
        else s.record.lastStallEndAt) = s.lastStallEndAt := if_neg hlag
    rw [hend]
    rfl

theorem record_onConnection (id : ConnId) :
    (s.onConnection cfg io id).record = s.record.enter id (some
      { since := io.now, admitted := false, helloRetried := false, turnRefreshOnly := false,
        intro := none }) := by
  unfold onConnection
  dsimp only
  rw [record_sendTo, record_logInfo]
  refine Record.ext rfl rfl rfl rfl (funext fun connId => ?_)
  dsimp only [record, Record.enter]
  rw [JsMap.get_set]
  split <;> rfl

theorem record_onClose (id : ConnId) (code : Nat) (reason : JsString) :
    (s.onClose cfg io id code reason).record = s.record.enter id none := by
  unfold onClose
  split
  · rename_i hget
    refine Record.ext rfl rfl rfl rfl (funext fun connId => ?_)
    dsimp only [Record.enter]
    split
    · rename_i hid
      rw [hid, marks_record, hget, Option.map_none]
    · rfl
  · dsimp only
    rw [record_logInfo, record_broadcast]
    refine Record.ext rfl rfl rfl rfl (funext fun connId => ?_)
    dsimp only [record, Record.enter]
    rw [JsMap.get_delete]
    split <;> rfl

theorem remembers_onHelloTimeout (id : ConnId) :
    Remembers cfg io s (.helloTimeout id) (s.onHelloTimeout cfg io id).record := by
  unfold onHelloTimeout
  split
  · exact .same trivial
  · rename_i conn hget
    split
    · exact .same trivial
    · rename_i hadm
      split
      · rename_i hgrace
        rw [Bool.and_eq_true, Bool.not_eq_true'] at hgrace
        dsimp only
        rw [record_logInfo, record_modifyConn (g := fun m => { m with helloRetried := true })]
        · exact .grace hget (Bool.eq_false_iff.mpr hadm) hgrace.1 hgrace.2
        · exact fun _ _ => rfl
      · dsimp only
        rw [record_wsClose, record_logErr, record_touch]
        · exact .same trivial
        · exact fun _ _ => rfl

theorem record_sweepIdleConnections : (s.sweepIdleConnections cfg io).record = s.record := by
  have hunbound : ∀ (t : Server) (e : ConnId × Conn), (t.kickUnbound cfg io e).record = t.record := by
    intro t e
    unfold kickUnbound
    dsimp only
    split
    · rw [record_logErr, record_wsClose, record_logInfo]
      rfl
    · rw [record_wsClose, record_logInfo]
      rfl
  have hidle : ∀ (t : Server) (e : ConnId × Conn), (t.kickIdle cfg io e).record = t.record := by
    intro t e
    exact @record_logInfo cfg t (js "idle-kick") [(js "connId", .str e.1),
      (js "idleMs", .int (io.now - e.2.lastSeenAt)), (js "lastPings", .int e.2.pings)]
  unfold sweepIdleConnections
  split
  · exact record_logInfo _ _
  · dsimp only
    rw [foldl_keeps Server.record _ hidle, foldl_keeps Server.record _ hunbound]

/-- **What one event makes of the record.** -/
theorem remembers_step (cfg : Config) (io : Io) (s : Server) (e : Event) :
    Remembers cfg io s e (s.step cfg io e).record := by
  have hnode : ∀ r : Node × List NodeOut, LeavesRecord cfg io s e →
      Remembers cfg io s e (s.withNode cfg io r).record := by
    intro r h
    rw [record_withNode]
    exact .same h
  have hsame : (s.step cfg io e).record = s.record → LeavesRecord cfg io s e →
      Remembers cfg io s e (s.step cfg io e).record := by
    intro hrecord h
    rw [hrecord]
    exact .same h
  cases e with
  | connect id =>
      have hrecord := @record_onConnection cfg io s id
      exact hrecord ▸ Remembers.connect id
  | message id data => exact remembers_onMessage id data
  | closed id code reason =>
      have hrecord := @record_onClose cfg io s id code reason
      exact hrecord ▸ Remembers.closed id code reason
  | helloTimeout id => exact remembers_onHelloTimeout id
  | turnRelease id =>
      refine hsame ?_ trivial
      unfold step onTurnRelease
      dsimp only
      split
      · rw [record_wsClose, record_touch]
        exact fun _ _ => rfl
      · rfl
  | maybeGraduate => exact remembers_maybeGraduate
  | heartbeat =>
      have hrecord := @record_onHeartbeat cfg io s
      exact hrecord ▸ Remembers.heartbeat
  | sweep => exact hsame record_sweepIdleConnections trivial
  | requestTimeout promise => exact hsame rfl trivial
  | meshUp => exact hsame rfl trivial
  | _ => exact hnode _ trivial

end Server

end AxonaBridge
