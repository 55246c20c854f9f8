import AxonaBridge.ServerFrames

/-!
# Admission

Which event changes the admission of which connection: a connection enters the table unadmitted,
leaves it with its close event, and is admitted by a client-hello the gate lets through and by
nothing else. A hello the gate refuses is answered by a close, if the refusal can be logged, its
reason built and the close frame written.
-/

open JsText

namespace AxonaBridge

namespace Server

variable {cfg : Config} {io : Io} {s : Server}

/-- Whether a connection of the table is admitted; `none` for one that is not in the table. -/
def admission (s : Server) (connId : ConnId) : Option Bool :=
  (s.connections.get connId).map Conn.admitted

theorem isAdmitted_iff {connId : ConnId} : s.IsAdmitted connId ↔ s.admission connId = some true := by
  simp [IsAdmitted, admission]

theorem has_iff_admission {connId : ConnId} :
    s.connections.has connId = true ↔ (s.admission connId).isSome = true := by
  simp [admission, JsMap.has]

theorem admission_congr {s' : Server} (h : s'.connections = s.connections) :
    s'.admission = s.admission := by
  funext connId
  rw [admission, admission, h]

/-- A change of a connection that leaves the flag alone. -/
theorem admission_modifyConn {id : ConnId} {f : Conn → Conn}
    (hf : ∀ conn, (f conn).admitted = conn.admitted) :
    (s.modifyConn id f).admission = s.admission := by
  funext connId
  rw [admission, admission, get_modifyConn]
  split
  · rename_i hid
    rw [hid, Option.map_map]
    exact congrArg (fun g => Option.map g _) (funext hf)
  · rfl

/-- Overwriting a connection of the table by one with the same flag. -/
theorem admission_overwrite {id : ConnId} {conn conn' : Conn}
    (hget : s.connections.get id = some conn) (hadm : conn'.admitted = conn.admitted) :
    (s.modifyConn id fun _ => conn').admission = s.admission := by
  funext connId
  rw [admission, admission, get_modifyConn]
  split
  · rename_i hid
    rw [hid, hget, Option.map_some, Option.map_some, Option.map_some, hadm]
  · rfl

@[simp] theorem admission_log (row : LogRow) : (s.log cfg row).admission = s.admission :=
  admission_congr (connections_log row)

@[simp] theorem admission_logInfo (event : JsString) (fields : List (JsString × LogVal)) :
    (s.logInfo cfg event fields).admission = s.admission := admission_log _

@[simp] theorem admission_logErr (event : JsString) (fields : List (JsString × LogVal)) :
    (s.logErr cfg event fields).admission = s.admission := admission_log _

@[simp] theorem admission_logDebug (event : JsString) (fields : List (JsString × LogVal)) :
    (s.logDebug cfg event fields).admission = s.admission := admission_log _

@[simp] theorem admission_tryLog (level : LogLevel) (event : JsString)
    (fields : List (JsString × JsVal)) :
    (s.tryLog cfg level event fields).1.admission = s.admission :=
  admission_congr (connections_tryLog _ _ _)

@[simp] theorem admission_wsSend (connId : ConnId) (frame : Frame) :
    (s.wsSend io connId frame).2.admission = s.admission := admission_congr (connections_wsSend _ _)

@[simp] theorem admission_sendTo (peerId : ConnId) (msg : Frame) :
    (s.sendTo cfg io peerId msg).2.admission = s.admission := admission_congr (connections_sendTo _ _)

@[simp] theorem admission_broadcast (msg : Frame) (exceptId : Option ConnId) :
    (s.broadcast cfg io msg exceptId).2.admission = s.admission :=
  admission_congr (connections_broadcast _ _)

@[simp] theorem admission_withNode (r : Node × List NodeOut) :
    (s.withNode cfg io r).admission = s.admission := admission_congr (connections_withNode r)

@[simp] theorem admission_wsClose (connId : ConnId) (code : Nat) (reason : JsString) :
    (s.wsClose io connId code reason).admission = s.admission := rfl

@[simp] theorem admission_noteGraduated (nh : Option JsString) :
    (s.noteGraduated io nh).admission = s.admission := admission_congr (connections_noteGraduated nh)

@[simp] theorem admission_graduatedSample (id : ConnId) :
    (s.graduatedSample cfg io id).2.admission = s.admission :=
  admission_congr (connections_graduatedSample id)

@[simp] theorem admission_introduce (id : ConnId) (newRegion : Option JsString) :
    (s.introduce cfg io id newRegion).2.admission = s.admission := by
  unfold introduce
  split
  · dsimp only
    refine foldl_keeps Server.admission _ ?_ _ _
    exact fun s aid => admission_modifyConn fun _ => rfl
  · rfl

@[simp] theorem admission_recordIntroduction (id : ConnId) (conn : Conn) (peers : List ConnId)
    (listed : Bool) : (s.recordIntroduction cfg id conn peers listed).admission = s.admission :=
  admission_modifyConn fun _ => rfl

@[simp] theorem admission_sendPeerList (id : ConnId) (conn : Conn) (peers : List ConnId) :
    (s.sendPeerList cfg io id conn peers).2.admission = s.admission := by
  simp [sendPeerList]

/-! ### Frames of an admitted connection admit nobody -/

theorem admission_onPeerListRequest (id : ConnId) (conn : Conn) :
    (s.onPeerListRequest cfg io id conn).admission = s.admission := by
  simp [onPeerListRequest]

theorem admission_maybeCloseBootstrapSocket (id : ConnId) :
    (s.maybeCloseBootstrapSocket cfg io id).2.admission = s.admission := by
  unfold maybeCloseBootstrapSocket
  split
  · rfl
  · dsimp only
    split
    · rw [admission_logInfo, admission_logDebug]
      exact (admission_noteGraduated _).trans (admission_wsClose _ _ _)
    · rfl

theorem admission_sendPong (id : ConnId) (msg : JsVal) :
    (s.sendPong cfg io id msg).admission = s.admission := by
  unfold sendPong
  dsimp only
  split
  · exact admission_logErr _ _
  · split
    · simp [admission_modifyConn]
    · exact admission_logErr _ _

theorem admission_onPing (id : ConnId) (msg : JsVal) :
    (s.onPing cfg io id msg).admission = s.admission := by
  unfold onPing
  dsimp only
  split
  · simp [admission_sendPong, admission_modifyConn]
  · split
    · simp [admission_maybeCloseBootstrapSocket, admission_modifyConn]
    · simp [admission_sendPong, admission_maybeCloseBootstrapSocket, admission_modifyConn]

theorem admission_onTurnRefresh (id : ConnId) :
    (s.onTurnRefresh cfg io id).admission = s.admission := by
  unfold onTurnRefresh
  dsimp only
  rw [admission_logDebug]
  split
  · exact admission_sendTo _ _
  · rfl

theorem admission_onAxona (id : ConnId) (msg : JsVal) :
    (s.onAxona cfg io id msg).1.admission = s.admission := by
  unfold onAxona
  split
  · split
    · exact admission_withNode _
    · rfl
  · rfl

theorem admission_relaySignal (id dest : ConnId) (payload : Option JsVal) :
    (s.relaySignal cfg io id dest payload).admission = s.admission := by
  unfold relaySignal
  dsimp only
  split
  · simp [admission_modifyConn]
  · exact admission_sendTo _ _

theorem admitted_meter (conn : Conn) : (meter cfg io conn).2.admitted = conn.admitted := by
  have hopen : (openWindow cfg io conn).admitted = conn.admitted := by
    unfold openWindow
    split <;> rfl
  unfold meter
  dsimp only
  split <;> exact hopen

theorem admission_meteredRelay {id : ConnId} {conn : Conn} (hget : s.connections.get id = some conn)
    (dest : ConnId) (payload : Option JsVal) :
    (s.meteredRelay cfg io id conn dest payload).admission = s.admission := by
  have hmeter : (s.modifyConn id fun _ => (meter cfg io conn).2).admission = s.admission :=
    admission_overwrite hget (admitted_meter conn)
  unfold meteredRelay
  dsimp only
  split
  · exact admission_relaySignal _ _ _
  · split
    · rw [admission_relaySignal, hmeter]
    · split
      · rw [admission_logInfo]
        exact hmeter
      · exact hmeter

theorem admission_onSignal {id : ConnId} {conn : Conn} (hget : s.connections.get id = some conn)
    (msg : JsVal) : (s.onSignal cfg io id conn msg).admission = s.admission := by
  unfold onSignal
  split
  · exact admission_logErr _ _
  · dsimp only
    have hrelay : ∀ (door : Bool × Node × List NodeOut) (dest : ConnId) (payload : Option JsVal),
        (if door.1 then s.withNode cfg io door.2
          else if !s.connections.has dest then s.logDebug cfg (js "signal-drop-unknown-to")
            [(js "connId", .str id), (js "to", .str dest)]
          else s.meteredRelay cfg io id conn dest payload).admission = s.admission := by
      intro door dest payload
      split_ifs
      · exact admission_withNode _
      · exact admission_logDebug _ _
      · exact admission_meteredRelay hget _ _
    exact hrelay _ _ _

theorem admission_onFrame {id : ConnId} {conn : Conn} (hget : s.connections.get id = some conn)
    (msg : JsVal) : (s.onFrame cfg io id conn msg).1.admission = s.admission := by
  unfold onFrame
  dsimp only
  split_ifs
  · exact admission_onPeerListRequest id conn
  · exact admission_onPing id msg
  · exact admission_onTurnRefresh id
  · exact admission_onAxona id msg
  · exact admission_onSignal hget msg
  · exact admission_tryLog _ _ _

/-! ### Client-hellos -/

@[simp] theorem admission_releaseLater (id : ConnId) (conn : Conn) :
    (s.releaseLater cfg id conn).admission = s.admission := by
  unfold releaseLater
  dsimp only
  rw [admission_modifyConn, admission_logInfo]
  · rfl
  · exact fun _ => rfl

@[simp] theorem admission_announce (id : ConnId) (conn : Conn) :
    (s.announce cfg io id conn).admission = s.admission := by
  unfold announce
  dsimp only
  rw [admission_withNode, admission_logInfo, admission_broadcast, admission_sendPeerList,
    admission_introduce]

theorem admission_admitConnection (id : ConnId) (conn : Conn) (connId : ConnId) :
    (s.admitConnection cfg io id conn).admission connId =
      if connId = id then (s.admission id).map fun _ => true else s.admission connId := by
  have hset : (s.modifyConn id fun c => { c with helloTimer := false, admitted := true }).admission
      connId = if connId = id then (s.admission id).map fun _ => true else s.admission connId := by
    rw [admission, get_modifyConn]
    split
    · rw [admission, Option.map_map, Option.map_map]
      rfl
    · rfl
  unfold admitConnection
  dsimp only
  split
  · rw [admission_releaseLater, admission_sendTo]
    exact hset
  · rw [admission_announce, admission_sendTo]
    exact hset

/-- The refusal of a hello changes no admission. -/
theorem admission_refuse (id : ConnId) (r : Refusal) :
    (s.refuse cfg io id r).1.admission = s.admission := by
  unfold refuse
  have hlog : (s.tryLog cfg .error r.event r.fields).1.connections = s.connections :=
    connections_tryLog .error r.event r.fields
  split
  · rename_i s' e h
    rw [h] at hlog
    exact admission_congr hlog
  · rename_i s' h
    rw [h] at hlog
    split
    · exact admission_congr hlog
    · exact admission_congr hlog

theorem refusal_eq_none_iff {id : ConnId} {msg : JsVal} {verdict : GateVerdict} :
    refusal cfg id msg verdict = none ↔ ∃ peerVersion ns floor, verdict = .passed peerVersion ns floor := by
  cases verdict <;> simp [refusal]

/-- The gate lets the hello through. -/
def Passes (cfg : Config) (msg : JsVal) : Prop :=
  ∃ peerVersion ns floor, gate cfg msg = .passed peerVersion ns floor

theorem admission_onClientHello {id : ConnId} {conn : Conn}
    (hget : s.connections.get id = some conn) (msg : JsVal) (connId : ConnId) :
    (Passes cfg msg → (s.onClientHello cfg io id conn msg).1.admission connId =
      if connId = id then some true else s.admission connId) ∧
    (¬Passes cfg msg → (s.onClientHello cfg io id conn msg).1.admission connId =
      s.admission connId) := by
  have hover : (s.modifyConn id fun _ => Conn.ofHello conn msg).admission = s.admission :=
    admission_overwrite hget rfl
  have hid : s.admission id = some conn.admitted := by rw [admission, hget]; rfl
  unfold onClientHello
  dsimp only
  split
  · rename_i r hr
    refine ⟨fun hpass => ?_, fun _ => ?_⟩
    · rw [refusal_eq_none_iff.mpr hpass] at hr
      cases hr
    · rw [admission_refuse, hover]
  · rename_i peerVersion ns floor hnone hadmit
    refine ⟨fun _ => ?_, fun hnot => absurd ⟨peerVersion, ns, floor, hadmit⟩ hnot⟩
    rw [admission_admitConnection, admission_logInfo, hover, hid]
    rfl
  · rename_i hnone hnot
    obtain ⟨peerVersion, ns, floor, hadmit⟩ := refusal_eq_none_iff.mp hnone
    exact absurd hadmit (hnot peerVersion ns floor)

/-! ### One event -/

/-- A message admits the connection it arrives on. -/
def Admits (cfg : Config) (s : Server) (id : ConnId) (data : Inbound) : Prop :=
  s.admission id = some false ∧ ∃ json, data = .text (.ok json) ∧
    JsVal.asString (json.revive.field (js "type")) = some (js "client-hello") ∧
      Passes cfg json.revive

theorem read_some {v : JsVal} (name : JsString) :
    (v = .null ∧ JsVal.read (some v) name = .error .nullProperty) ∨
      JsVal.read (some v) name = .ok (v.field name) := by
  cases v with
  | null => exact Or.inl ⟨rfl, rfl⟩
  | _ => exact Or.inr rfl

theorem admission_onMessage (id : ConnId) (data : Inbound) (connId : ConnId) :
    (Admits cfg s id data → (s.onMessage cfg io id data).1.admission connId =
      if connId = id then some true else s.admission connId) ∧
    (¬Admits cfg s id data → (s.onMessage cfg io id data).1.admission connId =
      s.admission connId) := by
  unfold onMessage
  split
  · rename_i hget
    refine ⟨fun h => ?_, fun _ => rfl⟩
    have := h.1
    rw [admission, hget] at this
    cases this
  · rename_i conn hget
    have hadm : s.admission id = some conn.admitted := by rw [admission, hget]; rfl
    have htouch : (s.modifyConn id fun _ => { conn with lastSeenAt := io.now }).admission =
        s.admission := admission_overwrite hget rfl
    have hget' := @get_heard io s id conn hget
    dsimp only
    split
    · refine ⟨fun h => ?_, fun _ => ?_⟩
      · obtain ⟨-, json, hdata, -⟩ := h
        cases hdata
      · rw [admission_logDebug, htouch]
    · refine ⟨fun h => ?_, fun _ => ?_⟩
      · obtain ⟨-, json, hdata, -⟩ := h
        cases hdata
      · rw [admission_logErr, htouch]
    · rename_i json
      rcases read_some (v := json.revive) (js "type") with ⟨hnull, hread⟩ | hread
      · rw [hread]
        refine ⟨fun h => ?_, fun _ => by rw [htouch]⟩
        obtain ⟨-, json', hdata, htype, -⟩ := h
        cases hdata
        rw [hnull] at htype
        cases htype
      · rw [hread]
        dsimp only
        split
        · rename_i hyes
          refine ⟨fun h => ?_, fun _ => ?_⟩
          · have := h.1
            rw [hadm, hyes] at this
            cases this
          · rw [admission_onFrame hget', htouch]
        · rename_i hno
          split
          · rename_i htype
            refine ⟨fun h => ?_, fun _ => ?_⟩
            · obtain ⟨-, json', hdata, htype', -⟩ := h
              cases hdata
              exact absurd htype' htype
            · rw [admission_tryLog, htouch]
          · rename_i htype
            obtain ⟨hyes, hnot⟩ := @admission_onClientHello cfg io _ id _ hget' json.revive connId
            rw [htouch] at hyes hnot
            refine ⟨fun h => hyes ?_, fun h => hnot ?_⟩
            · obtain ⟨-, json', hdata, -, hpass⟩ := h
              cases hdata
              exact hpass
            · intro hpass
              refine h ⟨?_, json, rfl, not_not.mp htype, hpass⟩
              rw [hadm, Bool.eq_false_iff.mpr hno]

/-! ### Refusals -/

/-- The refusal goes out: its row can be written, its reason can be built, and the reason fits into
a close frame. -/
structure Refusal.GoesOut (r : Refusal) : Prop where
  logged : ∀ field ∈ r.fields, field.2.hasBigInt = false
  reason : ∃ reason, r.reason = .ok reason ∧ utf8Length reason ≤ maxReasonBytes

/-- A close frame with code 4426 is sent on the connection between two states: a close with that code is
called, it does not throw, and nothing has closed the socket before it. -/
def ClosedUpgrade (io : Io) (s s' : Server) (id : ConnId) : Prop :=
  io.gone id = false ∧ ∃ before reason after,
    s'.out = s.out ++ before ++ .close id upgradeRequired reason false :: after ∧
      ∀ o ∈ s.out ++ before, o.cutOff ≠ some id

theorem not_closedUpgrade {s s' : Server} {rows : List LogRow} (h : s'.out = s.out ++ rows.map Out.log)
    (id : ConnId) : ¬ClosedUpgrade io s s' id := by
  rintro ⟨-, before, reason, after, hout, -⟩
  rw [h, List.append_assoc] at hout
  have hmem : .close id upgradeRequired reason false ∈ rows.map Out.log := by
    rw [List.append_cancel_left hout]
    exact List.mem_append_right _ List.mem_cons_self
  obtain ⟨row, -, heq⟩ := List.mem_map.mp hmem
  cases heq

/-- Of a close after rows alone, a frame is sent where the socket was open and it does not throw. -/
theorem closedUpgrade_iff {s s' : Server} {rows : List LogRow} {id : ConnId} {reason : JsString} {threw : Bool}
    (h : s'.out = s.out ++ rows.map Out.log ++ [.close id upgradeRequired reason threw]) :
    ClosedUpgrade io s s' id ↔ s.IsOpen io id ∧ threw = false := by
  have hrow : ∀ o ∈ rows.map Out.log, o.cutOff = none := fun o hmem => by
    obtain ⟨row, -, rfl⟩ := List.mem_map.mp hmem
    rfl
  constructor
  · rintro ⟨hthere, before, reason', after, hout, hfirst⟩
    refine ⟨⟨hthere, fun ⟨o, hmem, hcut⟩ => hfirst o (List.mem_append_left _ hmem) hcut⟩, ?_⟩
    rw [h, List.append_assoc, List.append_assoc] at hout
    have hmem : Out.close id upgradeRequired reason' false ∈
        rows.map Out.log ++ [.close id upgradeRequired reason threw] := by
      rw [List.append_cancel_left hout]
      exact List.mem_append_right _ List.mem_cons_self
    rcases List.mem_append.mp hmem with hmem | hmem
    · cases hrow _ hmem
    · injection List.mem_singleton.mp hmem with _ _ _ hthrew
      exact hthrew.symm
  · rintro ⟨⟨hthere, hopen⟩, rfl⟩
    refine ⟨hthere, rows.map Out.log, reason, [], h, fun o hmem hcut => ?_⟩
    rcases List.mem_append.mp hmem with hmem | hmem
    · exact hopen ⟨o, hmem, hcut⟩
    · cases (hrow o hmem).symm.trans hcut

theorem out_log (row : LogRow) : ∃ rows : List LogRow,
    (s.log cfg row).out = s.out ++ rows.map Out.log := by
  unfold log
  split
  · exact ⟨[], (List.append_nil _).symm⟩
  · exact ⟨[row], rfl⟩

theorem closedUpgrade_refuse_iff (id : ConnId) (hws : io.closeError id = false) (r : Refusal) :
    ClosedUpgrade io s (s.refuse cfg io id r).1 id ↔ s.IsOpen io id ∧ r.GoesOut := by
  unfold refuse tryLog
  rw [if_neg (by simp)]
  cases hfields : LogVal.ofFields r.fields with
  | none =>
      have hnothing : s.out = s.out ++ ([] : List LogRow).map Out.log := (List.append_nil _).symm
      refine iff_of_false (not_closedUpgrade hnothing id) fun h => ?_
      obtain ⟨field, hmem, hbig⟩ := LogVal.ofFields_eq_none_iff.mp hfields
      rw [h.2.logged field hmem] at hbig
      cases hbig
  | some fields =>
      have hlogged : ∀ field ∈ r.fields, field.2.hasBigInt = false := fun field hmem => by
        by_contra hbig
        have := LogVal.ofFields_eq_none_iff.mpr ⟨field, hmem, by simpa using hbig⟩
        rw [hfields] at this
        cases this
      obtain ⟨rows, hrows⟩ := @out_log cfg s { level := .error, event := r.event, fields }
      dsimp only
      cases hreason : r.reason with
      | error e =>
          refine iff_of_false (not_closedUpgrade hrows id) fun h => ?_
          obtain ⟨reason, hr, -⟩ := h.2.reason
          cases hreason.symm.trans hr
      | ok reason =>
          have hout : ((s.log cfg { level := .error, event := r.event, fields }).wsClose io id
              upgradeRequired reason).out = s.out ++ rows.map Out.log ++
                [.close id upgradeRequired reason (closeThrows io id reason)] := by
            rw [← hrows]
            rfl
          dsimp only
          rw [closedUpgrade_iff hout]
          refine and_congr_right fun _ => ⟨fun hthrew => ⟨hlogged, reason, hreason, ?_⟩, ?_⟩
          · rw [closeThrows, hws, Bool.or_false, decide_eq_false_iff_not] at hthrew
            exact Nat.le_of_not_lt hthrew
          · rintro ⟨-, reason', hreason', hlen⟩
            cases hreason.symm.trans hreason'
            rw [closeThrows, hws, Bool.or_false, decide_eq_false_iff_not]
            exact Nat.not_lt_of_le hlen

/-- A client-hello on a connection that is not admitted goes to the gate. -/
theorem onMessage_hello {id : ConnId} {conn : Conn} {json : JsVal}
    (hget : s.connections.get id = some conn) (hpending : conn.admitted = false)
    (hhello : JsVal.asString (json.revive.field (js "type")) = some (js "client-hello")) :
    s.onMessage cfg io id (.text (.ok json)) =
      (s.modifyConn id fun _ => { conn with lastSeenAt := io.now }).onClientHello cfg io id
        { conn with lastSeenAt := io.now } json.revive := by
  have hread : JsVal.read (some json.revive) (js "type") = .ok (json.revive.field (js "type")) := by
    refine (read_some (js "type")).resolve_left fun h => ?_
    rw [h.1] at hhello
    cases hhello
  simp [onMessage, hget, hread, hpending, hhello]

theorem onClientHello_of_refusal {id : ConnId} {conn : Conn} {msg : JsVal} {r : Refusal}
    (h : refusal cfg id msg (gate cfg msg) = some r) :
    s.onClientHello cfg io id conn msg =
      (s.modifyConn id fun _ => Conn.ofHello conn msg).refuse cfg io id r := by
  simp [onClientHello, h]

theorem not_passes_of_refusal {id : ConnId} {msg : JsVal} {r : Refusal}
    (h : refusal cfg id msg (gate cfg msg) = some r) : ¬Passes cfg msg := fun hpass => by
  rw [refusal_eq_none_iff.mpr hpass] at h
  cases h

section Hello

variable {id : ConnId} {conn : Conn} {json : JsVal}

theorem isAdmitted_onMessage_iff (hget : s.connections.get id = some conn)
    (hpending : conn.admitted = false)
    (hhello : JsVal.asString (json.revive.field (js "type")) = some (js "client-hello")) :
    (s.onMessage cfg io id (.text (.ok json))).1.IsAdmitted id ↔ Passes cfg json.revive := by
  have hmessage := @admission_onMessage cfg io s id (.text (.ok json)) id
  obtain ⟨hyes, hno⟩ := hmessage
  have hfalse : s.admission id = some false := by rw [admission, hget, ← hpending]; rfl
  rw [isAdmitted_iff]
  by_cases hpass : Passes cfg json.revive
  · rw [hyes ⟨hfalse, json, rfl, hhello, hpass⟩, if_pos rfl]
    exact iff_of_true rfl hpass
  · rw [hno fun ⟨_, json', hdata, _, hpass'⟩ => hpass (by cases hdata; exact hpass'), hfalse]
    exact iff_of_false (by simp) hpass

theorem closedUpgrade_onMessage_iff (hget : s.connections.get id = some conn)
    (hpending : conn.admitted = false)
    (hhello : JsVal.asString (json.revive.field (js "type")) = some (js "client-hello"))
    (hws : io.closeError id = false) {r : Refusal}
    (hr : refusal cfg id json.revive (gate cfg json.revive) = some r) :
    ClosedUpgrade io s (s.onMessage cfg io id (.text (.ok json))).1 id ↔ s.IsOpen io id ∧ r.GoesOut := by
  rw [onMessage_hello hget hpending hhello, onClientHello_of_refusal hr]
  exact closedUpgrade_refuse_iff (s := (s.modifyConn id _).modifyConn id _) id hws r

end Hello

/-- **Refused hellos are closed.** A client-hello on a pending connection either admits it or has a close
frame with 4426 sent on it exactly when the gate refuses nothing, or the socket is open still and the
refusal goes out. -/
theorem admitted_or_closed_iff (cfg : Config) (io : Io) (s : Server) (id : ConnId) (conn : Conn)
    (json : JsVal) (hget : s.connections.get id = some conn) (hpending : conn.admitted = false)
    (hhello : JsVal.asString (json.revive.field (js "type")) = some (js "client-hello"))
    (hws : io.closeError id = false) :
    ((s.onMessage cfg io id (.text (.ok json))).1.IsAdmitted id ∨
      ClosedUpgrade io s (s.onMessage cfg io id (.text (.ok json))).1 id) ↔
      ∀ r, refusal cfg id json.revive (gate cfg json.revive) = some r → s.IsOpen io id ∧ r.GoesOut := by
  rw [isAdmitted_onMessage_iff hget hpending hhello]
  cases hr : refusal cfg id json.revive (gate cfg json.revive) with
  | none => exact iff_of_true (Or.inl (refusal_eq_none_iff.mp hr)) fun r h => by cases h
  | some r =>
      rw [closedUpgrade_onMessage_iff hget hpending hhello hws hr,
        or_iff_right (not_passes_of_refusal hr)]
      constructor
      · intro h r' hr'
        cases hr'
        exact h
      · exact fun h => h r rfl

/-- A bridge with every setting at its default. -/
def plain : Config := { node := { id := 1, epoch := js "0a1b2c3d" } }

/-- A bridge that one connection has just been opened to. -/
def onePending : Server := (Bridge.init plain false).server.onConnection plain {} (js "c1")

/-- The client-hello with a given `version` and `wireVersion`. -/
def clientHello (version wireVersion : JsVal) : JsVal :=
  .obj [(js "type", .str (js "client-hello")), (js "version", version),
    (js "wireVersion", wireVersion)]

/-- A client-hello of the network before. -/
def pastWire : JsVal := clientHello (.str (js "4.0.0")) (.str (js "3.0"))

/-- A hello of the network before is closed. -/
theorem admitted_or_closed_pastWire :
    ClosedUpgrade {} onePending (onePending.onMessage plain {} (js "c1") (.text (.ok pastWire))).1
      (js "c1") := by
  have hclosed := (admitted_or_closed_iff plain {} onePending (js "c1")
    { since := 0, lastSeenAt := 0, helloTimer := true } pastWire (by decide) rfl (by decide) rfl).mpr ?_
  · refine hclosed.resolve_left fun hadm => ?_
    cases (isAdmitted_iff.mp hadm).symm.trans (show _ = some false by decide +kernel)
  · intro r hr
    have hgate : gate plain pastWire.revive = .wireMismatch (js "4.0.0") := by rfl
    rw [hgate] at hr
    cases hr
    exact ⟨⟨rfl, by decide +kernel⟩, by decide +kernel, _, rfl, by decide +kernel⟩

/-- A wire version of the old network that is too long to be quoted in a close reason. -/
def longWire : JsVal := clientHello (.str (js "4.0.0")) (.str (List.replicate 130 120))

/-- The refusal of the overlong wire version is thrown away: neither admitted nor closed. -/
theorem not_admitted_or_closed_longWire :
    ¬((onePending.onMessage plain {} (js "c1") (.text (.ok longWire))).1.IsAdmitted (js "c1") ∨
      ClosedUpgrade {} onePending
        (onePending.onMessage plain {} (js "c1") (.text (.ok longWire))).1 (js "c1")) := by
  have hget : onePending.connections.get (js "c1") =
      some { since := 0, lastSeenAt := 0, helloTimer := true } := by decide
  have hhello : JsVal.asString (longWire.revive.field (js "type")) = some (js "client-hello") := by
    decide
  have hgate : gate plain longWire.revive = .wireMismatch (js "4.0.0") := by rfl
  have hr : refusal plain (js "c1") longWire.revive (gate plain longWire.revive) =
      refusal plain (js "c1") longWire.revive (.wireMismatch (js "4.0.0")) := by rw [hgate]
  rw [isAdmitted_onMessage_iff hget rfl hhello, closedUpgrade_onMessage_iff hget rfl hhello rfl hr]
  rintro (hpass | hout)
  · exact not_passes_of_refusal hr hpass
  · obtain ⟨reason, hreason, hlen⟩ := hout.2.reason
    cases hreason
    exact absurd hlen (by decide +kernel)

end Server

end AxonaBridge
