import AxonaBridge.BridgeLifetime

/-!
# The departure hint

The close handler puts the identity a connection was bound to into its notice, and asks the reverse
map alone. The transport asks the forward map too, and takes the close of an older socket for no
death. The hint is right in runs in which only current connections close.
-/

open JsText

namespace AxonaBridge

namespace Server

variable {cfg : Config} {io : Io} {s : Server}

theorem sent_onClose {id recipient : ConnId} {code : Nat} {reason : JsString}
    (hhas : s.connections.has id = true) (hne : recipient ≠ id) (hadm : s.IsAdmitted recipient)
    (hsend : io.sendError recipient = none) :
    Sent s (s.onClose cfg io id code reason) recipient
      (.peerLeft id (s.departedNodeId id) io.now) := by
  obtain ⟨conn, hget⟩ := Option.isSome_iff_exists.mp hhas
  have hleft : ({ s with
      connections := s.connections.delete id
      node := s.node.handleConnClosed cfg.node io.kernel id } : Server).IsAdmitted recipient := by
    obtain ⟨c, hc, hyes⟩ := hadm
    exact ⟨c, (JsMap.get_delete_of_ne _ hne).trans hc, hyes⟩
  have hnotice := @sent_broadcast cfg io _ (.peerLeft id (s.departedNodeId id) io.now) none recipient
    hleft (by simp) hsend
  simp only [onClose, hget]
  exact Sent.then (P := fun _ _ => True) hnotice (emits_logInfo _ _)

theorem departedNodeId_eq_some_iff {id : ConnId} {nodeId : NodeId} :
    s.departedNodeId id = some (idToHex nodeId) ↔
      s.node.transport.nodeIdByConnId.get id = some nodeId := by
  unfold departedNodeId connNodeHex
  rw [Option.map_eq_some_iff]
  constructor
  · intro h
    obtain ⟨nodeId', hget, heq⟩ := h
    rw [hget, idToHex_injective heq]
  · exact fun h => ⟨nodeId, h, rfl⟩

end Server

namespace Bridge

variable {cfg : Config}

/-- A notice that names an identity names one without an open current connection, and the notice of a
close that the transport does not report as a death names none. -/
def HintHolds (cfg : Config) (b : Bridge) (e : Io × Event) : Prop :=
  (∀ recipient peerId nodeId serverT, Server.Sent b.server (b.step cfg e).server recipient
      (.peerLeft peerId (some (idToHex nodeId)) serverT) →
    ∀ connId, (b.step cfg e).server.connections.has connId = true →
      (b.step cfg e).server.node.transport.connIdFor nodeId ≠ some connId) ∧
  ∀ id code reason, e.2 = .closed id code reason →
    (b.server.node.transport.handleConnClosed id).2 = none →
      ∀ recipient peerId hex serverT, ¬Server.Sent b.server (b.step cfg e).server recipient
        (.peerLeft peerId (some hex) serverT)

/-- A connection that closes has no identity or is its identity's current connection, unless no other
connection can be sent the notice. -/
def ClosesCurrent (b : Bridge) (e : Io × Event) : Prop :=
  ∀ id code reason, e.2 = .closed id code reason →
    b.server.node.transport.isCurrent id = true ∨
      ∀ recipient, recipient ≠ id → b.server.IsAdmitted recipient → e.1.sendError recipient ≠ none

/-- Only the close handler names an identity in a notice. -/
theorem closed_of_sent_peerLeft {b : Bridge} {e : Io × Event} {recipient peerId : ConnId}
    {nodeId : Option JsString} {serverT : Int}
    (h : Server.Sent b.server (b.step cfg e).server recipient (.peerLeft peerId nodeId serverT)) :
    ∃ id code reason, e.2 = .closed id code reason := by
  obtain ⟨code, reason, hclosed, -⟩ := ((says_step b e).sent h).of_peerLeft
  exact ⟨_, code, reason, hclosed⟩

/-- A notice with an identity is of the connection that closes, and of its identity. -/
theorem notice_of_sent {b : Bridge} {e : Io × Event} (hcloses : b.ClosesCurrent e)
    {recipient peerId : ConnId} {nodeId : JsString} {serverT : Int}
    (hsent : Server.Sent b.server (b.step cfg e).server recipient (.peerLeft peerId (some nodeId) serverT)) :
    ∃ id code reason, e.2 = .closed id code reason ∧
      b.server.node.transport.isCurrent id = true ∧ b.server.departedNodeId id = some nodeId := by
  obtain ⟨id, code, reason, hclosed⟩ := closed_of_sent_peerLeft hsent
  rw [server_step_of_event hclosed, Server.step] at hsent
  obtain ⟨_, _, heq, hne, hadm, hsend, hdeparted⟩ :=
    ((Server.emits_onClose (A := fun _ => True) id code reason).sent hsent).of_peerLeft
  injection heq with hid _ _
  subst hid
  refine ⟨id, code, reason, hclosed, ?_, hdeparted.symm⟩
  exact (hcloses id code reason hclosed).resolve_right fun hall => hall recipient hne hadm hsend

/-- A stale socket that closes bound is announced under its identity, to whoever is there to be told. -/
theorem closesCurrent_of_hintHolds {b : Bridge} {e : Io × Event} (he : b.Enabled cfg e)
    (h : b.HintHolds cfg e) : b.ClosesCurrent e := by
  intro id code reason hclosed
  have he' := he.of_event hclosed
  by_contra hnot
  rw [not_or] at hnot
  obtain ⟨hstale, hsome⟩ := hnot
  have hdied : (b.server.node.transport.handleConnClosed id).2 = none := by
    unfold Transport.handleConnClosed
    rw [if_neg hstale]
  have hbound : ∃ nodeId, b.server.node.transport.nodeIdByConnId.get id = some nodeId := by
    unfold Transport.isCurrent at hstale
    split at hstale
    · exact absurd rfl hstale
    · rename_i nodeId hnodeId
      exact ⟨nodeId, hnodeId⟩
  obtain ⟨nodeId, hnodeId⟩ := hbound
  refine hsome fun recipient hne hadm hsend => ?_
  refine h.2 id code reason hclosed hdied recipient id (idToHex nodeId) e.1.now ?_
  rw [server_step_of_event hclosed, Server.step, ← Server.departedNodeId_eq_some_iff.mpr hnodeId]
  exact Server.sent_onClose he' hne hadm hsend

theorem hintHolds_of_closesCurrent {b : Bridge} {e : Io × Event}
    (hb : b.server.node.bindings.Consistent) (he : b.Enabled cfg e) (hcloses : b.ClosesCurrent e) :
    b.HintHolds cfg e := by
  constructor
  · intro recipient peerId nodeId serverT hsent connId hopen hfor
    obtain ⟨id, code, reason, hclosed, hcurrent, hdeparted⟩ := notice_of_sent hcloses hsent
    have hnodeId := Server.departedNodeId_eq_some_iff.mp hdeparted
    have hown : b.server.node.transport.connIdByNodeId.get nodeId = some id := by
      unfold Transport.isCurrent at hcurrent
      rw [hnodeId] at hcurrent
      simpa using hcurrent
    have he' := he.of_event hclosed
    have hbindings : (b.step cfg e).server.node.bindings = b.server.node.bindings.close id := by
      rw [server_step_of_event hclosed, Server.step, Server.node_onClose he',
        Node.bindings_handleConnClosed]
    have hforward : (b.step cfg e).server.node.bindings.forward.get nodeId = some connId := hfor
    rw [hbindings] at hforward
    have hunbind := (hb.forward_unbind id nodeId).trans (if_pos hown)
    cases hunbind.symm.trans hforward
  · intro id code reason hclosed hdied recipient peerId hex serverT hsent
    obtain ⟨id', code', reason', hclosed', hcurrent, -⟩ := notice_of_sent hcloses hsent
    rw [hclosed] at hclosed'
    cases hclosed'
    unfold Transport.handleConnClosed at hdied
    rw [if_pos hcurrent] at hdied
    cases hdied

theorem hintHolds_iff {b : Bridge} {e : Io × Event} (hb : b.server.node.bindings.Consistent)
    (he : b.Enabled cfg e) : b.HintHolds cfg e ↔ b.ClosesCurrent e :=
  ⟨closesCurrent_of_hintHolds he, hintHolds_of_closesCurrent hb he⟩

/-- **The departure hint.** Along a run from the start every notice names an identity that has left,
and the notice of a stale socket names none, exactly when every connection that closes is without an
identity or its identity's current connection, or cannot be told of to anyone. -/
theorem hintHolds_along_iff (cfg : Config) (reportBound : Bool) (es : List (Io × Event))
    (hes : (system cfg reportBound).Valid (init cfg reportBound) es) :
    (system cfg reportBound).Along (HintHolds cfg) (init cfg reportBound) es ↔
      (system cfg reportBound).Along ClosesCurrent (init cfg reportBound) es := by
  refine System.along_congr_of_invariant
    (I := fun b : Bridge => b.server.node.bindings.Consistent) ?_ ?_ (consistent_init reportBound) hes
  · exact fun b e hb he => hintHolds_iff hb he
  · exact fun b e hb _ _ => Server.consistent_step hb e.2

/-- One connection proves identity 7, and closes. -/
def bindsAndLeaves : List (Io × Event) :=
  [({}, .connect (js "c1")), ({}, .message (js "c1") presentHello),
    ({}, .message (js "c1") (axonaMessage (notification (js "hello") .null))),
    ({}, .verified 0 (.ok (js "7"))), ({}, .closed (js "c1") 1000 [])]

theorem valid_bindsAndLeaves :
    (system Server.plain false).Valid (init Server.plain false) bindsAndLeaves :=
  valid_of_openRun (by decide +kernel)

theorem hintHolds_along_bindsAndLeaves :
    (system Server.plain false).Along (HintHolds Server.plain) (init Server.plain false)
        bindsAndLeaves ↔
      (system Server.plain false).Along ClosesCurrent (init Server.plain false) bindsAndLeaves :=
  hintHolds_along_iff Server.plain false bindsAndLeaves valid_bindsAndLeaves

/-- Identity 7 is proven on a first connection and then on a second one. -/
def movesToNewer : List (Io × Event) :=
  [({}, .connect (js "c1")), ({}, .message (js "c1") presentHello),
    ({}, .message (js "c1") (axonaMessage (notification (js "hello") .null))),
    ({}, .verified 0 (.ok (js "7"))),
    ({}, .connect (js "c2")), ({}, .message (js "c2") presentHello),
    ({}, .message (js "c2") (axonaMessage (notification (js "hello") .null))),
    ({}, .verified 0 (.ok (js "7")))]

def staleCloses : List (Io × Event) := movesToNewer.concat ({}, .closed (js "c1") 1000 [])

/-- When the first of the two closes, its notice names 7, whose current connection is open. -/
theorem not_hintHolds_movesToNewer :
    (system Server.plain false).Valid (init Server.plain false) staleCloses ∧
      ¬(system Server.plain false).Along (HintHolds Server.plain) (init Server.plain false)
        staleCloses := by
  refine ⟨valid_of_openRun (by decide +kernel), fun h => ?_⟩
  have hadm : ((system Server.plain false).after (init Server.plain false)
      movesToNewer).server.IsAdmitted (js "c2") := Server.isAdmitted_iff.mpr (by decide +kernel)
  have hbound : ((system Server.plain false).after (init Server.plain false)
      movesToNewer).server.node.transport.nodeIdByConnId.get (js "c1") = some 7 := by
    decide +kernel
  have hsent := @Server.sent_onClose Server.plain {} _ (js "c1") (js "c2") 1000 []
    (by decide +kernel) (by decide) hadm rfl
  rw [Server.departedNodeId_eq_some_iff.mpr hbound] at hsent
  obtain ⟨-, -, -, -, -, -, -, -, hlast, -⟩ := h
  exact hlast.1 (js "c2") (js "c1") 7 0 hsent (js "c2") (by decide +kernel) (by decide +kernel)

end Bridge

end AxonaBridge
