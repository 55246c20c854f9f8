import AxonaBridge.BridgeModel

/-!
# What the server's operations leave alone, and what they send

Logging, sending and closing touch nothing but `out`. `Emits P` says that one state of the server
comes out of another by appending to `out` and that each frame among what was appended satisfies
`P`; it composes, so what a handler sends is read off from what its parts send.
-/

open JsText

namespace AxonaBridge

namespace Server

variable {cfg : Config} {io : Io} {s : Server}

/-! ### The table and the node -/

@[simp] theorem node_modifyConn (id : ConnId) (f : Conn → Conn) :
    (s.modifyConn id f).node = s.node := rfl

@[simp] theorem get_modifyConn (id : ConnId) (f : Conn → Conn) (connId : ConnId) :
    (s.modifyConn id f).connections.get connId =
      if connId = id then (s.connections.get id).map f else s.connections.get connId :=
  JsMap.get_modify _ _ _ _

/-- A connection that is heard from is stamped. -/
theorem get_heard {id : ConnId} {conn : Conn} (hget : s.connections.get id = some conn) :
    (s.modifyConn id fun _ => { conn with lastSeenAt := io.now }).connections.get id =
      some { conn with lastSeenAt := io.now } := by
  rw [get_modifyConn, if_pos rfl, hget]
  rfl

@[simp] theorem connections_log (row : LogRow) : (s.log cfg row).connections = s.connections := by
  unfold log
  split <;> rfl

@[simp] theorem node_log (row : LogRow) : (s.log cfg row).node = s.node := by
  unfold log
  split <;> rfl

@[simp] theorem connections_logInfo (event : JsString) (fields : List (JsString × LogVal)) :
    (s.logInfo cfg event fields).connections = s.connections := connections_log _

@[simp] theorem connections_logErr (event : JsString) (fields : List (JsString × LogVal)) :
    (s.logErr cfg event fields).connections = s.connections := connections_log _

@[simp] theorem connections_logDebug (event : JsString) (fields : List (JsString × LogVal)) :
    (s.logDebug cfg event fields).connections = s.connections := connections_log _

@[simp] theorem node_logInfo (event : JsString) (fields : List (JsString × LogVal)) :
    (s.logInfo cfg event fields).node = s.node := node_log _

@[simp] theorem node_logErr (event : JsString) (fields : List (JsString × LogVal)) :
    (s.logErr cfg event fields).node = s.node := node_log _

@[simp] theorem node_logDebug (event : JsString) (fields : List (JsString × LogVal)) :
    (s.logDebug cfg event fields).node = s.node := node_log _

@[simp] theorem connections_tryLog (level : LogLevel) (event : JsString)
    (fields : List (JsString × JsVal)) :
    (s.tryLog cfg level event fields).1.connections = s.connections := by
  unfold tryLog
  split
  · rfl
  · split
    · exact connections_log _
    · rfl

@[simp] theorem node_tryLog (level : LogLevel) (event : JsString)
    (fields : List (JsString × JsVal)) : (s.tryLog cfg level event fields).1.node = s.node := by
  unfold tryLog
  split
  · rfl
  · split
    · exact node_log _
    · rfl

@[simp] theorem connections_wsSend (connId : ConnId) (frame : Frame) :
    (s.wsSend io connId frame).2.connections = s.connections := by
  unfold wsSend
  split <;> rfl

@[simp] theorem node_wsSend (connId : ConnId) (frame : Frame) :
    (s.wsSend io connId frame).2.node = s.node := by
  unfold wsSend
  split <;> rfl

@[simp] theorem connections_sendFailed (event : JsString) (connId : ConnId) (frame : Frame) :
    (s.sendFailed cfg io event connId frame).connections = s.connections := connections_log _

@[simp] theorem node_sendFailed (event : JsString) (connId : ConnId) (frame : Frame) :
    (s.sendFailed cfg io event connId frame).node = s.node := node_log _

@[simp] theorem connections_sendTo (peerId : ConnId) (msg : Frame) :
    (s.sendTo cfg io peerId msg).2.connections = s.connections := by
  unfold sendTo
  dsimp only
  split
  · rfl
  · split <;> simp

@[simp] theorem node_sendTo (peerId : ConnId) (msg : Frame) :
    (s.sendTo cfg io peerId msg).2.node = s.node := by
  unfold sendTo
  dsimp only
  split
  · rfl
  · split <;> simp

/-- One turn of the loop of `broadcast`. -/
def broadcastOne (cfg : Config) (io : Io) (msg : Frame) (exceptId : Option ConnId)
    (acc : Nat × Server) (e : ConnId × Conn) : Nat × Server :=
  if some e.1 = exceptId ∨ ¬e.2.admitted then acc
  else
    let r := acc.2.wsSend io e.1 msg
    if r.1 then (acc.1 + 1, r.2)
    else (acc.1, r.2.sendFailed cfg io (js "broadcast-send-failed") e.1 msg)

theorem broadcast_eq (msg : Frame) (exceptId : Option ConnId) :
    s.broadcast cfg io msg exceptId =
      s.connections.entries.foldl (broadcastOne cfg io msg exceptId) (0, s) := rfl

/-- What every turn of a fold keeps, the fold keeps. -/
theorem foldl_keeps {α β γ : Type} (view : β → γ) (f : β → α → β)
    (h : ∀ b a, view (f b a) = view b) (b : β) (as : List α) : view (as.foldl f b) = view b := by
  induction as generalizing b with
  | nil => rfl
  | cons a as ih => rw [List.foldl_cons, ih, h]

@[simp] theorem connections_broadcast (msg : Frame) (exceptId : Option ConnId) :
    (s.broadcast cfg io msg exceptId).2.connections = s.connections := by
  rw [broadcast_eq]
  refine foldl_keeps (fun acc : Nat × Server => acc.2.connections) _ ?_ _ _
  intro acc e
  unfold broadcastOne
  dsimp only
  split
  · rfl
  · split <;> simp

@[simp] theorem node_broadcast (msg : Frame) (exceptId : Option ConnId) :
    (s.broadcast cfg io msg exceptId).2.node = s.node := by
  rw [broadcast_eq]
  refine foldl_keeps (fun acc : Nat × Server => acc.2.node) _ ?_ _ _
  intro acc e
  unfold broadcastOne
  dsimp only
  split
  · rfl
  · split <;> simp

@[simp] theorem connections_wsClose (connId : ConnId) (code : Nat) (reason : JsString) :
    (s.wsClose io connId code reason).connections = s.connections := rfl

@[simp] theorem node_wsClose (connId : ConnId) (code : Nat) (reason : JsString) :
    (s.wsClose io connId code reason).node = s.node := rfl

@[simp] theorem connections_perform (o : NodeOut) :
    (s.perform cfg io o).connections = s.connections := by
  cases o with
  | send connId payload => exact connections_sendTo _ _
  | signal connId sender payload => exact connections_sendTo _ _
  | close connId reason =>
      simp only [perform]
      split <;> rfl
  | log row => exact connections_log _

@[simp] theorem node_perform (o : NodeOut) : (s.perform cfg io o).node = s.node := by
  cases o with
  | send connId payload => exact node_sendTo _ _
  | signal connId sender payload => exact node_sendTo _ _
  | close connId reason =>
      simp only [perform]
      split <;> rfl
  | log row => exact node_log _

@[simp] theorem connections_withNode (r : Node × List NodeOut) :
    (s.withNode cfg io r).connections = s.connections := by
  unfold withNode
  rw [foldl_keeps Server.connections]
  exact fun s o => connections_perform o

@[simp] theorem node_withNode (r : Node × List NodeOut) : (s.withNode cfg io r).node = r.1 := by
  unfold withNode
  rw [foldl_keeps Server.node]
  exact fun s o => node_perform o

@[simp] theorem connections_graduatedSample (id : ConnId) :
    (s.graduatedSample cfg io id).2.connections = s.connections := by
  unfold graduatedSample
  split <;> rfl

@[simp] theorem node_graduatedSample (id : ConnId) :
    (s.graduatedSample cfg io id).2.node = s.node := by
  unfold graduatedSample
  split <;> rfl

@[simp] theorem node_introduce (id : ConnId) (newRegion : Option JsString) :
    (s.introduce cfg io id newRegion).2.node = s.node := by
  unfold introduce
  split
  · dsimp only
    refine foldl_keeps Server.node _ ?_ _ _
    exact fun _ _ => rfl
  · rfl

@[simp] theorem node_recordIntroduction (id : ConnId) (conn : Conn) (peers : List ConnId)
    (listed : Bool) : (s.recordIntroduction cfg id conn peers listed).node = s.node := rfl

@[simp] theorem node_sendPeerList (id : ConnId) (conn : Conn) (peers : List ConnId) :
    (s.sendPeerList cfg io id conn peers).2.node = s.node := by
  simp [sendPeerList]

@[simp] theorem connections_noteGraduated (nh : Option JsString) :
    (s.noteGraduated io nh).connections = s.connections := by
  cases nh <;> rfl

@[simp] theorem node_noteGraduated (nh : Option JsString) :
    (s.noteGraduated io nh).node = s.node := by
  cases nh <;> rfl

/-! ### What is sent -/

/-- `s'` has appended to the output of `s`, and every frame it appended satisfies `P`. -/
def Emits (P : ConnId → Frame → Prop) (s s' : Server) : Prop :=
  ∃ added, s'.out = s.out ++ added ∧ ∀ connId frame, .frame connId frame ∈ added → P connId frame

namespace Emits

variable {P Q : ConnId → Frame → Prop} {s s' s'' : Server}

theorem of_out_eq (h : s'.out = s.out) : Emits P s s' :=
  ⟨[], by simp [h], by simp⟩

theorem refl : Emits P s s := of_out_eq rfl

theorem trans (h : Emits P s s') (h' : Emits P s' s'') : Emits P s s'' := by
  obtain ⟨a, ha, hP⟩ := h
  obtain ⟨b, hb, hQ⟩ := h'
  refine ⟨a ++ b, by rw [hb, ha, List.append_assoc], fun connId frame hmem => ?_⟩
  rcases List.mem_append.mp hmem with hmem | hmem
  · exact hP connId frame hmem
  · exact hQ connId frame hmem

theorem mono (hPQ : ∀ connId frame, P connId frame → Q connId frame) (h : Emits P s s') :
    Emits Q s s' := by
  obtain ⟨a, ha, hP⟩ := h
  exact ⟨a, ha, fun connId frame hmem => hPQ connId frame (hP connId frame hmem)⟩

/-- A frame sent by then was sent before or satisfies `P`. -/
theorem mem (h : Emits P s s') {connId : ConnId} {frame : Frame}
    (hmem : .frame connId frame ∈ s'.out) : .frame connId frame ∈ s.out ∨ P connId frame := by
  obtain ⟨a, ha, hP⟩ := h
  rw [ha] at hmem
  exact (List.mem_append.mp hmem).imp_right (hP connId frame)

theorem out_mem (h : Emits P s s') {o : Out} (ho : o ∈ s.out) : o ∈ s'.out := by
  obtain ⟨a, ha, -⟩ := h
  rw [ha]
  exact List.mem_append_left _ ho

/-- A change of anything but `out` before. -/
theorem congr_left {t : Server} (hout : t.out = s.out) (h : Emits P t s') : Emits P s s' := by
  obtain ⟨a, ha, hP⟩ := h
  exact ⟨a, by rw [ha, hout], hP⟩

/-- A change of anything but `out` after. -/
theorem congr_right {t : Server} (hout : s'.out = t.out) (h : Emits P s t) : Emits P s s' := by
  obtain ⟨a, ha, hP⟩ := h
  exact ⟨a, by rw [hout, ha], hP⟩

end Emits

variable {P : ConnId → Frame → Prop}

theorem emits_append (o : Out) (h : ∀ connId frame, o = .frame connId frame → P connId frame)
    {s' : Server} (hout : s'.out = s.out ++ [o]) : Emits P s s' :=
  ⟨[o], hout, fun connId frame hmem => h connId frame (List.mem_singleton.mp hmem).symm⟩

theorem emits_log (row : LogRow) : Emits P s (s.log cfg row) := by
  unfold log
  split
  · exact Emits.refl
  · exact emits_append (.log row) (fun _ _ h => by cases h) rfl

theorem emits_logInfo (event : JsString) (fields : List (JsString × LogVal)) :
    Emits P s (s.logInfo cfg event fields) := emits_log _

theorem emits_logErr (event : JsString) (fields : List (JsString × LogVal)) :
    Emits P s (s.logErr cfg event fields) := emits_log _

theorem emits_logDebug (event : JsString) (fields : List (JsString × LogVal)) :
    Emits P s (s.logDebug cfg event fields) := emits_log _

theorem emits_tryLog (level : LogLevel) (event : JsString) (fields : List (JsString × JsVal)) :
    Emits P s (s.tryLog cfg level event fields).1 := by
  unfold tryLog
  split
  · exact Emits.refl
  · split
    · exact emits_log _
    · exact Emits.refl

theorem emits_modifyConn (id : ConnId) (f : Conn → Conn) : Emits P s (s.modifyConn id f) :=
  Emits.of_out_eq rfl

theorem emits_wsClose (connId : ConnId) (code : Nat) (reason : JsString) :
    Emits P s (s.wsClose io connId code reason) :=
  emits_append _ (fun _ _ h => by cases h) rfl

theorem emits_wsSend {connId : ConnId} {frame : Frame}
    (h : io.sendError connId = none → P connId frame) :
    Emits P s (s.wsSend io connId frame).2 := by
  unfold wsSend
  split
  · exact Emits.refl
  · rename_i herr
    exact emits_append _ (fun _ _ ho => by cases ho; exact h (by simpa using herr)) rfl

/-- A send that throws leaves a row. -/
theorem emits_sendFailed {event : JsString} {connId : ConnId} {frame : Frame}
    (h : io.sendError connId = none → P connId frame) :
    Emits P s ((s.wsSend io connId frame).2.sendFailed cfg io event connId frame) := by
  have hsend : Emits P s (s.wsSend io connId frame).2 := emits_wsSend h
  exact hsend.trans (emits_log _)

theorem emits_sendTo {peerId : ConnId} {msg : Frame}
    (h : s.connections.has peerId = true → P peerId msg) :
    Emits P s (s.sendTo cfg io peerId msg).2 := by
  unfold sendTo
  dsimp only
  split
  · exact Emits.refl
  · rename_i hhas
    have hP : P peerId msg := h (by simpa using hhas)
    split
    · exact emits_wsSend fun _ => hP
    · dsimp only
      exact emits_sendFailed fun _ => hP

/-- What every turn of a fold sends satisfies `P`, hence what the fold sends does. -/
theorem emits_foldl {α : Type} (f : Server → α → Server) (as : List α)
    (h : ∀ s, ∀ a ∈ as, Emits P s (f s a)) (s : Server) : Emits P s (as.foldl f s) := by
  induction as generalizing s with
  | nil => exact Emits.refl
  | cons a as ih =>
      exact (h s a List.mem_cons_self).trans
        (ih (fun s a ha => h s a (List.mem_cons_of_mem _ ha)) _)

/-- A broadcast goes to admitted connections other than the excepted one. -/
theorem emits_broadcast {msg : Frame} {exceptId : Option ConnId}
    (h : ∀ connId, s.IsAdmitted connId → some connId ≠ exceptId → io.sendError connId = none →
      P connId msg) :
    Emits P s (s.broadcast cfg io msg exceptId).2 := by
  rw [broadcast_eq]
  have hfold : ∀ (es : List (ConnId × Conn)) (acc : Nat × Server),
      (∀ e ∈ es, e.2.admitted = true → some e.1 ≠ exceptId → io.sendError e.1 = none →
        P e.1 msg) →
        Emits P acc.2 (es.foldl (broadcastOne cfg io msg exceptId) acc).2 := by
    intro es
    induction es with
    | nil => exact fun acc _ => Emits.refl
    | cons e es ih =>
        intro acc hes
        refine Emits.trans ?_ (ih _ fun e' he' => hes e' (List.mem_cons_of_mem _ he'))
        unfold broadcastOne
        dsimp only
        split
        · exact Emits.refl
        · rename_i hnot
          rw [not_or, not_not] at hnot
          have hP := hes e List.mem_cons_self hnot.2 hnot.1
          split
          · exact emits_wsSend hP
          · dsimp only
            exact emits_sendFailed hP
  refine hfold _ _ fun e he hadm hne => ?_
  exact h e.1 ⟨e.2, JsMap.mem_entries_iff.mp he, hadm⟩ hne

/-- A row, a frame or a close is among what was appended to the output between two states. -/
def Added (s s' : Server) (o : Out) : Prop := ∃ added, s'.out = s.out ++ added ∧ o ∈ added

theorem Added.then {s' s'' : Server} {o : Out} (h : Added s s' o) (h' : Emits P s' s'') :
    Added s s'' o := by
  obtain ⟨a, ha, hmem⟩ := h
  obtain ⟨b, hb, -⟩ := h'
  exact ⟨a ++ b, by rw [hb, ha, List.append_assoc], List.mem_append_left _ hmem⟩

theorem Added.after {s' s'' : Server} {o : Out} (h : Emits P s s') (h' : Added s' s'' o) :
    Added s s'' o := by
  obtain ⟨a, ha, -⟩ := h
  obtain ⟨b, hb, hmem⟩ := h'
  exact ⟨a ++ b, by rw [hb, ha, List.append_assoc], List.mem_append_right _ hmem⟩

/-- A frame is among what was appended to the output between two states. -/
def Sent (s s' : Server) (connId : ConnId) (frame : Frame) : Prop :=
  ∃ added, s'.out = s.out ++ added ∧ .frame connId frame ∈ added

theorem Emits.sent {s' : Server} (h : Emits P s s') {connId : ConnId} {frame : Frame}
    (hsent : Sent s s' connId frame) : P connId frame := by
  obtain ⟨added, hadded, hP⟩ := h
  obtain ⟨added', hadded', hmem⟩ := hsent
  exact hP connId frame (List.append_cancel_left (hadded.symm.trans hadded') ▸ hmem)

theorem Sent.then {s' s'' : Server} {connId : ConnId} {frame : Frame} (h : Sent s s' connId frame)
    (h' : Emits P s' s'') : Sent s s'' connId frame :=
  Added.then (o := .frame connId frame) h h'

theorem Sent.after {s' s'' : Server} {connId : ConnId} {frame : Frame} (h : Emits P s s')
    (h' : Sent s' s'' connId frame) : Sent s s'' connId frame :=
  Added.after (o := .frame connId frame) h h'

theorem sent_wsSend {connId : ConnId} {frame : Frame} (h : io.sendError connId = none) :
    Sent s (s.wsSend io connId frame).2 connId frame := by
  refine ⟨[.frame connId frame], ?_, List.mem_singleton_self _⟩
  simp [wsSend, h]

/-- A broadcast reaches every admitted connection that can be sent to, other than the excepted one. -/
theorem sent_broadcast {msg : Frame} {exceptId : Option ConnId} {connId : ConnId}
    (hadm : s.IsAdmitted connId) (hne : some connId ≠ exceptId) (hsend : io.sendError connId = none) :
    Sent s (s.broadcast cfg io msg exceptId).2 connId msg := by
  have hone : ∀ (acc : Nat × Server) (e : ConnId × Conn),
      Emits (fun _ _ => True) acc.2 (broadcastOne cfg io msg exceptId acc e).2 := by
    intro acc e
    unfold broadcastOne
    dsimp only
    split
    · exact Emits.refl
    · split
      · exact emits_wsSend fun _ => trivial
      · dsimp only
        exact emits_sendFailed fun _ => trivial
  have hrest : ∀ (es : List (ConnId × Conn)) (acc : Nat × Server),
      Emits (fun _ _ => True) acc.2 (es.foldl (broadcastOne cfg io msg exceptId) acc).2 := by
    intro es
    induction es with
    | nil => exact fun acc => Emits.refl
    | cons e es ih => exact fun acc => (hone acc e).trans (ih _)
  have hfold : ∀ (es : List (ConnId × Conn)) (acc : Nat × Server) (conn : Conn),
      (connId, conn) ∈ es → conn.admitted = true →
        Sent acc.2 (es.foldl (broadcastOne cfg io msg exceptId) acc).2 connId msg := by
    intro es
    induction es with
    | nil => exact fun acc conn h => by cases h
    | cons e es ih =>
        intro acc conn hmem hyes
        rcases List.mem_cons.mp hmem with heq | hmem
        · have hthis : Sent acc.2 (broadcastOne cfg io msg exceptId acc e).2 connId msg := by
            have hok : (acc.2.wsSend io connId msg).1 = true := by simp [wsSend, hsend]
            rw [← heq]
            simp only [broadcastOne, hne, hyes, hok]
            exact sent_wsSend hsend
          exact hthis.then (hrest es _)
        · exact Sent.after (hone acc e) (ih _ conn hmem hyes)
  obtain ⟨conn, hget, hyes⟩ := hadm
  rw [broadcast_eq]
  exact hfold _ (0, s) conn (JsMap.mem_entries_iff.mpr hget) hyes

/-- What the node asks to be sent satisfies `P`, where the connection is open. -/
def NodeSends (P : ConnId → Frame → Prop) (s : Server) (out : List NodeOut) : Prop :=
  ∀ o ∈ out, match o with
    | .send connId payload => s.connections.has connId = true → P connId (.axona payload)
    | .signal connId sender payload =>
        s.connections.has connId = true → P connId (.signal sender (some payload))
    | _ => True

theorem emits_perform {o : NodeOut} (h : NodeSends P s [o]) : Emits P s (s.perform cfg io o) := by
  have ho := h o List.mem_cons_self
  cases o with
  | send connId payload => exact emits_sendTo ho
  | signal connId sender payload => exact emits_sendTo ho
  | close connId reason =>
      simp only [perform]
      split
      · exact emits_wsClose _ _ _
      · exact Emits.refl
  | log row => exact emits_log _

theorem emits_withNode {r : Node × List NodeOut} (h : NodeSends P s r.2) :
    Emits P s (s.withNode cfg io r) := by
  have hfold : ∀ (out : List NodeOut) (t : Server), t.connections = s.connections →
      NodeSends P s out → Emits P t (out.foldl (fun t o => t.perform cfg io o) t) := by
    intro out
    induction out with
    | nil => exact fun t _ _ => Emits.refl
    | cons o out ih =>
        intro t ht hout
        refine Emits.trans (emits_perform ?_) (ih _ (by simp [ht]) fun o' ho' =>
          hout o' (List.mem_cons_of_mem _ ho'))
        intro o' ho'
        rw [List.mem_singleton.mp ho', ht]
        exact hout o List.mem_cons_self
  exact Emits.congr_left (t := { s with node := r.1 }) rfl (hfold r.2 _ rfl h)

theorem emits_noteGraduated (nh : Option JsString) : Emits P s (s.noteGraduated io nh) := by
  cases nh <;> exact Emits.of_out_eq rfl

theorem out_graduatedSample (id : ConnId) : (s.graduatedSample cfg io id).2.out = s.out := by
  unfold graduatedSample
  split <;> rfl

theorem out_introduce (id : ConnId) (newRegion : Option JsString) :
    (s.introduce cfg io id newRegion).2.out = s.out := by
  unfold introduce
  split
  · dsimp only
    refine foldl_keeps Server.out _ ?_ _ _
    exact fun _ _ => rfl
  · rfl

end Server

end AxonaBridge
