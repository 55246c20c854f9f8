import AxonaBridge.BridgeAdmission
import AxonaBridge.NodeBindings

/-!
# What outlives a connection

The close of a socket takes its connection out of the three maps. A hello is verified asynchronously,
and the handshake it completes is entered into the maps whether or not its socket has closed in the
meantime. Runs in which every verification completes in time leave nothing behind.
-/

open JsText

namespace AxonaBridge

namespace Bindings

variable {b : Bindings}

theorem hello_complete_self (connId : ConnId) (nodeId : NodeId) :
    (b.complete connId nodeId).hello.has connId = true := by
  unfold complete
  split
  · rename_i hcomplete
    exact has_of_get hcomplete
  · exact has_of_get (JsMap.get_set_self _ _ _)

end Bindings

namespace Server

variable {cfg : Config} {io : Io} {s : Server}

theorem connections_verified (i : Nat) (res : Node.AuthResult) :
    (s.step cfg io (.verified i res)).connections = s.connections := connections_withNode _

/-- Every connection in the maps is in the table. -/
def NoneSurvives (s : Server) : Prop :=
  ∀ connId, s.node.bindings.Mentions connId → s.connections.has connId = true

theorem consistent_step (h : s.node.bindings.Consistent) (e : Event) :
    (s.step cfg io e).node.bindings.Consistent := by
  rcases @bindings_step cfg io s e with
    ⟨connId, _, -, -, heq⟩ | ⟨connId, _, _, -, -, heq⟩ | ⟨_, _, connId, nodeId, -, -, heq⟩ | ⟨connIds, heq⟩
  · rw [heq]
    exact h.greet connId
  · rw [heq]
    exact h.close connId
  · rw [heq]
    exact h.complete connId nodeId
  · rw [heq]
    exact h.shed connIds

end Server

namespace Bridge

variable {cfg : Config}

/-- After the event no connection survives in the maps, and a verification that completed after its
connection had gone has left the maps as they were. -/
def LeavesNothing (cfg : Config) (b : Bridge) (e : Io × Event) : Prop :=
  (b.step cfg e).server.NoneSurvives ∧
    ∀ i res v, e.2 = .verified i res → b.server.node.verifying[i]? = some v →
      b.server.connections.has v.connId = false →
        (b.step cfg e).server.node.bindings = b.server.node.bindings

/-- A verification that proves an identity the allowlist admits completes while its connection is in
the table. -/
def InTime (cfg : Config) (b : Bridge) (e : Io × Event) : Prop :=
  ∀ i res connId nodeId, e.2 = .verified i res →
    b.server.node.proven cfg.node i res = some (connId, nodeId) →
      b.server.connections.has connId = true

theorem proven_eq_some {n : Node} {i : Nat} {res : Node.AuthResult} {connId : ConnId}
    {nodeId : NodeId} (h : n.proven cfg.node i res = some (connId, nodeId)) :
    ∃ v, n.verifying[i]? = some v ∧ v.connId = connId := by
  unfold Node.proven at h
  split at h
  · cases h
  · split at h
    · cases h
    · rename_i v hv
      split at h
      · obtain ⟨peerNodeId, -, heq⟩ := Option.map_eq_some_iff.mp h
        exact ⟨v, hv, congrArg Prod.fst heq⟩
      · cases h

theorem noneSurvives_step {b : Bridge} {e : Io × Event} (hb : b.server.node.bindings.Consistent)
    (hnone : b.server.NoneSurvives) (hin : b.InTime cfg e) : (b.step cfg e).server.NoneSurvives := by
  have hcons : (b.step cfg e).server.node.bindings.Consistent := Server.consistent_step hb e.2
  have hopen : ∀ connId, b.server.node.bindings.hello.has connId = true →
      b.server.connections.has connId = true := fun connId h =>
    hnone connId ((hb.mentions_iff connId).mpr h)
  intro connId hmentions
  rw [hcons.mentions_iff] at hmentions
  rcases @Server.bindings_step cfg e.1 b.server e.2 with
    ⟨c, data, he, hadmits, heq⟩ | ⟨c, code, reason, he, -, heq⟩ | ⟨i, res, c, n, he, hproven, heq⟩ |
      ⟨connIds, heq⟩
  · rw [step, heq] at hmentions
    refine Server.has_step ?_ fun code reason hclosed => by rw [he] at hclosed; cases hclosed
    rcases Bindings.hello_greet hmentions with h | h
    · exact hopen connId h
    · rw [h, Server.has_iff_admission, hadmits.1]
      rfl
  · rw [step, heq] at hmentions
    obtain ⟨h, hne⟩ := Bindings.hello_close hmentions
    refine Server.has_step (hopen connId h) fun code' reason' hclosed => ?_
    rw [he] at hclosed
    cases hclosed
    exact hne rfl
  · rw [step, heq] at hmentions
    refine Server.has_step ?_ fun code reason hclosed => by rw [he] at hclosed; cases hclosed
    rcases Bindings.hello_complete hmentions with h | h
    · exact hopen connId h
    · rw [h]
      exact hin i res c n he hproven
  · rw [step, heq, Bindings.hello_shed] at hmentions
    by_cases hclosed : ∃ code reason, e.2 = .closed connId code reason
    · obtain ⟨code, reason, he⟩ := hclosed
      have hhas := hopen connId hmentions
      have hclose : (b.server.step cfg e.1 e.2).node.bindings = b.server.node.bindings.close connId := by
        rw [he, Server.step, Server.node_onClose hhas, Node.bindings_handleConnClosed]
      have hgone : (b.server.node.bindings.close connId).hello.has connId = true := by
        rw [← hclose, heq, Bindings.hello_shed]
        exact hmentions
      exact absurd rfl (Bindings.hello_close hgone).2
    · exact Server.has_step (hopen connId hmentions) fun code reason he => hclosed ⟨code, reason, he⟩

theorem leavesNothing_iff {b : Bridge} {e : Io × Event} (hb : b.server.node.bindings.Consistent)
    (hnone : b.server.NoneSurvives) : b.LeavesNothing cfg e ↔ b.InTime cfg e := by
  constructor
  · intro h i res connId nodeId he hproven
    have hmentions : (b.step cfg e).server.node.bindings.Mentions connId := by
      refine Or.inr (Or.inr ?_)
      have hbindings : (b.step cfg e).server.node.bindings =
          b.server.node.bindings.complete connId nodeId := by
        have hverified := @Node.bindings_verified cfg.node e.1.kernel b.server.node i res
        rw [hproven] at hverified
        rw [step, he, Server.step, Server.node_withNode]
        exact hverified
      rw [hbindings]
      exact Bindings.hello_complete_self connId nodeId
    have hhas := h.1 connId hmentions
    rwa [step, he, Server.connections_verified] at hhas
  · intro hin
    refine ⟨noneSurvives_step hb hnone hin, fun i res v he hv hgone => ?_⟩
    have hverified := @Node.bindings_verified cfg.node e.1.kernel b.server.node i res
    rw [step, he, Server.step, Server.node_withNode, hverified]
    cases hproven : b.server.node.proven cfg.node i res with
    | none => rfl
    | some p =>
        obtain ⟨connId, nodeId⟩ := p
        obtain ⟨v', hv', hconn⟩ := proven_eq_some hproven
        have hhas := hin i res connId nodeId he hproven
        rw [hv] at hv'
        cases hv'
        rw [hconn, hhas] at hgone
        cases hgone

theorem consistent_init (reportBound : Bool) :
    (init cfg reportBound).server.node.bindings.Consistent :=
  ⟨fun _ _ h => (by cases h), fun _ _ h => (by cases h)⟩

theorem noneSurvives_init (reportBound : Bool) : (init cfg reportBound).server.NoneSurvives := by
  intro connId h
  rcases h with ⟨_, h⟩ | h | h
  · cases h
  · cases h
  · cases h

/-- **Nothing survives a close.** Along a run from the start every step leaves no closed connection in
the maps, and no late verification changes them, exactly when every verification that proves an
admitted identity completes in time. -/
theorem leavesNothing_along_iff (cfg : Config) (reportBound : Bool) (es : List (Io × Event))
    (hes : (system cfg reportBound).Valid (init cfg reportBound) es) :
    (system cfg reportBound).Along (LeavesNothing cfg) (init cfg reportBound) es ↔
      (system cfg reportBound).Along (InTime cfg) (init cfg reportBound) es := by
  refine System.along_congr_of_invariant
    (I := fun b : Bridge => b.server.node.bindings.Consistent ∧ b.server.NoneSurvives) ?_ ?_
    ⟨consistent_init reportBound, noneSurvives_init reportBound⟩ hes
  · exact fun b e hb _ => leavesNothing_iff hb.1 hb.2
  · exact fun b e hb _ hin => ⟨Server.consistent_step hb.1 e.2, noneSurvives_step hb.1 hb.2 hin⟩

/-- A frame of the transport, as a client sends it. -/
def axonaMessage (payload : JsVal) : Server.Inbound :=
  .text (.ok (.obj [(js "type", .str (js "axona")), (js "payload", payload)]))

/-- A notification of a type, with a body. -/
def notification (type : JsString) (body : JsVal) : JsVal :=
  .obj [(js "k", .str (js "ntf")), (js "type", .str type), (js "body", body)]

/-- A client-hello of the present network. -/
def presentHello : Server.Inbound :=
  .text (.ok (Server.clientHello (.str (js "4.0.0")) (.str (js "4.0"))))

/-- A connection opens, is admitted, sends a hello, and proves identity 7 by it. -/
def handshake : List (Io × Event) :=
  [({}, .connect (js "c1")), ({}, .message (js "c1") presentHello),
    ({}, .message (js "c1") (axonaMessage (notification (js "hello") .null))),
    ({}, .verified 0 (.ok (js "7")))]

theorem valid_handshake :
    (system Server.plain false).Valid (init Server.plain false) handshake :=
  valid_of_openRun (by decide +kernel)

theorem leavesNothing_along_handshake :
    (system Server.plain false).Along (LeavesNothing Server.plain) (init Server.plain false)
        handshake ↔
      (system Server.plain false).Along (InTime Server.plain) (init Server.plain false) handshake :=
  leavesNothing_along_iff Server.plain false handshake valid_handshake

/-- The socket closes while its hello is being verified. -/
def closedWhileVerifying : List (Io × Event) :=
  [({}, .connect (js "c1")), ({}, .message (js "c1") presentHello),
    ({}, .message (js "c1") (axonaMessage (notification (js "hello") .null))),
    ({}, .closed (js "c1") 1006 []), ({}, .verified 0 (.ok (js "7")))]

theorem not_noneSurvives_closedWhileVerifying :
    (system Server.plain false).Valid (init Server.plain false) closedWhileVerifying ∧
      ¬((system Server.plain false).after (init Server.plain false)
        closedWhileVerifying).server.NoneSurvives := by
  refine ⟨valid_of_openRun (by decide +kernel), fun h => ?_⟩
  have hhas := h (js "c1") (Or.inl ⟨7, by decide +kernel⟩)
  revert hhas
  decide +kernel

end Bridge

end AxonaBridge
