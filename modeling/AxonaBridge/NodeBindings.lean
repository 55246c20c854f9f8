import AxonaBridge.ServerEvents

/-!
# Identities and connections

The node ties identities to connections in three maps: the two binding maps of its transport and the
table of handshakes. Of all it does, the maps see five things: a connection is greeted, completes a
handshake, loses its binding, or closes, or nothing happens to them. Each of the node's operations is
one of these.
-/

open JsText

namespace AxonaBridge

/-- The three maps: the current connection of an identity, the identity of a connection, and how far
the handshake of a connection has come. -/
structure Bindings where
  forward : JsMap NodeId ConnId
  reverse : JsMap ConnId NodeId
  hello : JsMap ConnId HelloState

namespace Bindings

variable (b : Bindings)

def greet (connId : ConnId) : Bindings :=
  if b.hello.has connId then b else { b with hello := b.hello.set connId .pending }

def complete (connId : ConnId) (nodeId : NodeId) : Bindings :=
  if b.hello.get connId = some .complete then b
  else
    { forward := b.forward.set nodeId connId
      reverse := b.reverse.set connId nodeId
      hello := b.hello.set connId .complete }

def unbind (connId : ConnId) : Bindings :=
  { b with
    forward :=
      match b.reverse.get connId with
      | some nodeId =>
          if b.forward.get nodeId = some connId then b.forward.delete nodeId else b.forward
      | none => b.forward
    reverse := b.reverse.delete connId }

def shed (connIds : List ConnId) : Bindings := connIds.foldl unbind b

def close (connId : ConnId) : Bindings :=
  { b.unbind connId with hello := b.hello.delete connId }

/-- The connection occurs in one of the maps. -/
def Mentions (connId : ConnId) : Prop :=
  (∃ nodeId, b.forward.get nodeId = some connId) ∨ b.reverse.has connId = true ∨
    b.hello.has connId = true

/-- An identity's connection is bound to it, and a connection is bound by its handshake only. -/
structure Consistent : Prop where
  reverse_of_forward : ∀ nodeId connId, b.forward.get nodeId = some connId →
    b.reverse.get connId = some nodeId
  complete_of_reverse : ∀ connId nodeId, b.reverse.get connId = some nodeId →
    b.hello.get connId = some .complete

variable {b}

theorem has_of_get {κ ν : Type} [DecidableEq κ] {m : JsMap κ ν} {k : κ} {v : ν}
    (h : m.get k = some v) : m.has k = true := by
  rw [JsMap.has, h]
  rfl

/-- Every connection of the maps has a handshake. -/
theorem Consistent.mentions_iff (h : b.Consistent) (connId : ConnId) :
    b.Mentions connId ↔ b.hello.has connId = true := by
  constructor
  · intro hmentions
    rcases hmentions with ⟨nodeId, hforward⟩ | hreverse | hhello
    · exact has_of_get (h.complete_of_reverse connId nodeId (h.reverse_of_forward _ _ hforward))
    · obtain ⟨nodeId, hget⟩ := Option.isSome_iff_exists.mp hreverse
      exact has_of_get (h.complete_of_reverse connId nodeId hget)
    · exact hhello
  · exact fun hhello => Or.inr (Or.inr hhello)

theorem Consistent.greet (h : b.Consistent) (connId : ConnId) : (b.greet connId).Consistent := by
  unfold Bindings.greet
  split
  · exact h
  · rename_i hnew
    refine ⟨h.reverse_of_forward, fun c n hc => ?_⟩
    have hcomplete := h.complete_of_reverse c n hc
    have hne : c ≠ connId := fun heq => hnew (heq ▸ has_of_get hcomplete)
    exact (JsMap.get_set_of_ne _ _ hne).trans hcomplete

theorem Consistent.complete (h : b.Consistent) (connId : ConnId) (nodeId : NodeId) :
    (b.complete connId nodeId).Consistent := by
  unfold Bindings.complete
  split
  · exact h
  · rename_i hnot
    have hunbound : ∀ n, b.reverse.get connId ≠ some n := fun n hn =>
      hnot (h.complete_of_reverse connId n hn)
    constructor
    · intro n c hforward
      dsimp only at hforward ⊢
      rw [JsMap.get_set] at hforward ⊢
      split at hforward
      · rename_i hn
        rw [if_pos (Option.some.inj hforward).symm, hn]
      · have hreverse := h.reverse_of_forward n c hforward
        have hne : c ≠ connId := fun heq => hunbound n (heq ▸ hreverse)
        rw [if_neg hne]
        exact hreverse
    · intro c n hreverse
      dsimp only at hreverse ⊢
      rw [JsMap.get_set] at hreverse ⊢
      split
      · rfl
      · rename_i hne
        rw [if_neg hne] at hreverse
        exact h.complete_of_reverse c n hreverse

/-- Unbinding a connection takes the forward entries that name it, and no other. -/
theorem Consistent.forward_unbind (h : b.Consistent) (connId : ConnId) (nodeId : NodeId) :
    (b.unbind connId).forward.get nodeId =
      if b.forward.get nodeId = some connId then none else b.forward.get nodeId := by
  rw [Bindings.unbind, ← JsMap.get_unlink (fun n => h.reverse_of_forward n connId) nodeId]
  cases b.reverse.get connId <;> rfl

theorem Consistent.unbind (h : b.Consistent) (connId : ConnId) : (b.unbind connId).Consistent := by
  constructor
  · intro n c hforward
    rw [h.forward_unbind] at hforward
    split at hforward
    · cases hforward
    · rename_i hne
      have hc : c ≠ connId := fun heq => hne (heq ▸ hforward)
      exact (JsMap.get_delete_of_ne _ hc).trans (h.reverse_of_forward n c hforward)
  · intro c n hreverse
    exact h.complete_of_reverse c n (Transport.get_of_get_delete hreverse)

theorem Consistent.shed (h : b.Consistent) (connIds : List ConnId) : (b.shed connIds).Consistent := by
  induction connIds generalizing b with
  | nil => exact h
  | cons connId connIds ih => exact ih (h.unbind connId)

theorem Consistent.close (h : b.Consistent) (connId : ConnId) : (b.close connId).Consistent := by
  have hunbind := h.unbind connId
  refine ⟨hunbind.reverse_of_forward, fun c n hreverse => ?_⟩
  have hne : c ≠ connId := fun heq => by
    rw [heq] at hreverse
    exact absurd hreverse (by simp [Bindings.close, Bindings.unbind])
  exact (JsMap.get_delete_of_ne _ hne).trans (hunbind.complete_of_reverse c n hreverse)

/-! ### Which connections have a handshake -/

theorem hello_greet {connId c : ConnId} (h : (b.greet connId).hello.has c = true) :
    b.hello.has c = true ∨ c = connId := by
  unfold greet at h
  split at h
  · exact Or.inl h
  · rw [JsMap.has_eq_true_iff, JsMap.mem_keys_set, ← JsMap.has_eq_true_iff] at h
    exact h.symm

theorem hello_complete {connId c : ConnId} {nodeId : NodeId}
    (h : (b.complete connId nodeId).hello.has c = true) : b.hello.has c = true ∨ c = connId := by
  unfold complete at h
  split at h
  · exact Or.inl h
  · rw [JsMap.has_eq_true_iff, JsMap.mem_keys_set, ← JsMap.has_eq_true_iff] at h
    exact h.symm

@[simp] theorem hello_shed (connIds : List ConnId) : (b.shed connIds).hello = b.hello := by
  induction connIds generalizing b with
  | nil => rfl
  | cons connId connIds ih => exact ih

theorem hello_close {connId c : ConnId} (h : (b.close connId).hello.has c = true) :
    b.hello.has c = true ∧ c ≠ connId := by
  have hget : ((b.hello.delete connId).get c).isSome = true := h
  rw [JsMap.get_delete] at hget
  split at hget
  · cases hget
  · rename_i hne
    exact ⟨hget, hne⟩

end Bindings

namespace Node

variable {cfg : NodeConfig} {k : Kernel} {n : Node}

def bindings (n : Node) : Bindings where
  forward := n.transport.connIdByNodeId
  reverse := n.transport.nodeIdByConnId
  hello := n.helloByConnId

/-! ### The node's operations on the maps -/

theorem bindings_sendHello (connId : ConnId) (nonce : JsString) :
    (n.sendHello connId nonce).1.bindings = n.bindings.greet connId := by
  unfold sendHello Bindings.greet
  split
  · rename_i hhas
    exact (if_pos hhas).symm
  · rename_i hhas
    refine Eq.trans ?_ (if_neg hhas).symm
    dsimp only
    split <;> rfl

theorem bindings_helloBuilt (i : Nat) (hello : Except JsString JsVal) :
    (n.helloBuilt i hello).1.bindings = n.bindings := by
  unfold helloBuilt
  split
  · rfl
  · cases hello <;> rfl

theorem bindings_verifyPeerHello (sender : Sender) (body : Option JsVal) (label : HelloLabel) :
    (n.verifyPeerHello sender body label).1.bindings = n.bindings := by
  cases sender with
  | node nodeId => rfl
  | conn connId =>
      unfold verifyPeerHello
      dsimp only
      split <;> rfl

theorem bindings_completeHandshake (connId : ConnId) (peerNodeId : NodeId) :
    (n.completeHandshake cfg k connId peerNodeId).1.bindings =
      n.bindings.complete connId peerNodeId := by
  unfold completeHandshake Bindings.complete
  split
  · rename_i hcomplete
    exact (if_pos hcomplete).symm
  · rename_i hcomplete
    refine Eq.trans ?_ (if_neg hcomplete).symm
    dsimp only
    split
    · rfl
    · dsimp only
      split <;> rfl

/-- The connection and the identity a `verifyAuthHello` completes a handshake of. -/
def proven (cfg : NodeConfig) (n : Node) (i : Nat) : AuthResult → Option (ConnId × NodeId)
  | .refused _ => none
  | .ok nodeId =>
      match n.verifying[i]? with
      | none => none
      | some v =>
          if cfg.admits nodeId then (hexValue nodeId).map fun peerNodeId => (v.connId, (peerNodeId : Int))
          else none

theorem bindings_verified (i : Nat) (res : AuthResult) :
    (n.verified cfg k i res).1.bindings = match n.proven cfg i res with
      | none => n.bindings
      | some (connId, peerNodeId) => n.bindings.complete connId peerNodeId := by
  unfold verified proven
  cases hv : n.verifying[i]? with
  | none => cases res <;> rfl
  | some v =>
      cases res with
      | refused reason => rfl
      | ok nodeId =>
          dsimp only
          by_cases hadmits : cfg.admits nodeId = true
          · rw [hadmits]
            cases hhex : hexValue nodeId with
            | none => rfl
            | some peerNodeId => exact bindings_completeHandshake v.connId peerNodeId
          · rw [Bool.eq_false_iff.mpr hadmits]
            rfl

theorem bindings_ackBuilt (i : Nat) (ack : Except JsString JsVal) :
    (n.ackBuilt i ack).1.bindings = n.bindings := by
  unfold ackBuilt
  split
  · rfl
  · cases ack <;> rfl

theorem bindings_act (isConnOpen : ConnId → Bool) (a : KernelAct) :
    ∃ connIds, (n.act isConnOpen a).1.bindings = n.bindings.shed connIds := by
  cases a with
  | send nodeId type body =>
      obtain ⟨hforward, hreverse⟩ := @Transport.bindings_send n.transport nodeId isConnOpen false
      refine ⟨[], ?_⟩
      simp only [act, bindings, hforward, hreverse]
      rfl
  | notify nodeId type body =>
      refine ⟨[], ?_⟩
      unfold act
      dsimp only
      split
      · rfl
      · split
        · rfl
        · split
          · rfl
          · split <;> rfl
  | closeConnection nodeId =>
      unfold act Transport.closeConnection
      dsimp only
      split
      · exact ⟨[], rfl⟩
      · rename_i connId _
        split
        · exact ⟨[], rfl⟩
        · exact ⟨[connId], rfl⟩
  | supersedePeer nodeId => exact ⟨[], rfl⟩
  | setSynaptome synaptome => exact ⟨[], rfl⟩

theorem bindings_runActs (isConnOpen : ConnId → Bool) (as : List KernelAct) :
    ∃ connIds, (n.runActs isConnOpen as).1.bindings = n.bindings.shed connIds := by
  induction as generalizing n with
  | nil => exact ⟨[], rfl⟩
  | cons a as ih =>
      obtain ⟨first, hfirst⟩ := @bindings_act n isConnOpen a
      obtain ⟨rest, hrest⟩ := @ih (n.act isConnOpen a).1
      refine ⟨first ++ rest, hrest.trans ?_⟩
      rw [hfirst, Bindings.shed, Bindings.shed, Bindings.shed, List.foldl_append]

theorem bindings_handleRequest (isConnOpen : ConnId → Bool) (connId : ConnId) (msg : JsVal) :
    ∃ connIds, (n.handleRequest cfg k isConnOpen connId msg).1.bindings =
      n.bindings.shed connIds := by
  unfold handleRequest
  dsimp only
  split
  · split
    · obtain ⟨connIds, h⟩ := @bindings_runActs
        { n with handling := n.handling ++ [(connId, msg.field (js "id"))] } isConnOpen k.acts
      exact ⟨connIds, h⟩
    · exact ⟨[], rfl⟩
  · split <;> exact ⟨[], rfl⟩

theorem bindings_answered (i : Nat) (ok : Bool) (body : Option JsVal) :
    (n.answered i ok body).1.bindings = n.bindings := by
  unfold answered
  split <;> rfl

theorem bindings_reinforce (body : Option JsVal) : (n.reinforce k body).1.bindings = n.bindings := by
  unfold reinforce
  split <;> rfl

theorem bindings_introduce (name addedBy : JsString) (body : Option JsVal) :
    (n.introduce cfg k name addedBy body).bindings = n.bindings := by
  unfold introduce
  split
  · split <;> rfl
  · rfl

theorem bindings_handleNotification (isConnOpen : ConnId → Bool) (sender : Sender) (msg : JsVal) :
    ∃ connIds, (n.handleNotification cfg k isConnOpen sender msg).1.bindings =
      n.bindings.shed connIds := by
  unfold handleNotification
  dsimp only
  split
  · exact ⟨[], rfl⟩
  · split_ifs
    · exact bindings_runActs isConnOpen k.acts
    · exact ⟨[], bindings_verifyPeerHello _ _ _⟩
    · exact ⟨[], bindings_verifyPeerHello _ _ _⟩
    · exact ⟨[], bindings_reinforce _⟩
    · exact ⟨[], bindings_introduce _ _ _⟩
    · exact ⟨[], bindings_introduce _ _ _⟩
    · exact ⟨[], rfl⟩

theorem bindings_handleAxonaFrame (isConnOpen : ConnId → Bool) (connId : ConnId) (payload : JsVal) :
    ∃ connIds, (n.handleAxonaFrame cfg k isConnOpen connId payload).1.bindings =
      n.bindings.shed connIds := by
  obtain ⟨hforward, hreverse⟩ := @Transport.bindings_handleIncoming n.transport connId payload
  have hn : ({ n with transport := (n.transport.handleIncoming connId payload).1 } : Node).bindings =
      n.bindings := by
    simp only [bindings, hforward, hreverse]
  unfold handleAxonaFrame
  dsimp only
  split
  · exact ⟨[], hn⟩
  · exact ⟨[], hn⟩
  · rw [← hn]
    exact bindings_handleRequest isConnOpen connId _
  · rw [← hn]
    exact bindings_handleNotification isConnOpen _ _

theorem bindings_handleConnClosed (connId : ConnId) :
    (n.handleConnClosed cfg k connId).bindings = n.bindings.close connId := by
  have htransport : (n.transport.handleConnClosed connId).1.nodeIdByConnId =
      n.transport.nodeIdByConnId.delete connId ∧
        (n.transport.handleConnClosed connId).1.connIdByNodeId =
          (n.transport.unbindPeer connId).connIdByNodeId := by
    unfold Transport.handleConnClosed
    dsimp only
    split <;> exact ⟨rfl, rfl⟩
  have hdied : ∀ (m : Node) (died : Option Sender), (m.peerDied cfg k died).bindings = m.bindings := by
    intro m died
    unfold peerDied
    split
    · split <;> rfl
    · rfl
  unfold handleConnClosed
  dsimp only
  rw [hdied]
  simp only [bindings, htransport]
  rfl

theorem bindings_deliverDoorSignal (now : Int) (connId : ConnId) (payload : Option JsVal) :
    (n.deliverDoorSignal cfg k now connId payload).2.1.bindings = n.bindings := by
  unfold deliverDoorSignal
  split
  · rfl
  · dsimp only
    split_ifs <;> rfl

theorem bindings_bindPolicy (now : Int) (input : BindInput) (nodeId : NodeId) (token : JsString) :
    (n.bindPolicy cfg now input nodeId token).2.1.bindings = n.bindings := by
  have hroom : ∀ (m : Node) (connId : ConnId) (idHex : JsString),
      (m.makeRoom cfg now input connId idHex).2.1.bindings = m.bindings := by
    intro m connId idHex
    unfold makeRoom
    split
    · dsimp only
      split
      · rfl
      · split <;> rfl
    · rfl
  unfold bindPolicy
  split
  · rfl
  · rename_i connId _
    dsimp only
    split
    · rfl
    · split
      · rfl
      · rfl
      · have h := hroom { n with sbRetired := (n.sbRetired.hasIdentity (idToHex nodeId) now).2 } connId
          (idToHex nodeId)
        split
        · rename_i n' out hmade
          rw [hmade] at h
          exact h
        · exact h

theorem bindings_onRouteToDoor (nodeId : NodeId) (token : JsString) :
    (n.onRouteToDoor cfg nodeId token).1.bindings = n.bindings := by
  unfold onRouteToDoor
  split
  · rfl
  · split <;> rfl

end Node

namespace Server

variable {cfg : Config} {io : Io} {s : Server}

/-- What one event can do to the maps. -/
theorem bindings_step (e : Event) :
    (∃ connId data, e = .message connId data ∧ Admits cfg s connId data ∧
      (s.step cfg io e).node.bindings = s.node.bindings.greet connId) ∨
    (∃ connId code reason, e = .closed connId code reason ∧ s.connections.has connId = true ∧
      (s.step cfg io e).node.bindings = s.node.bindings.close connId) ∨
    (∃ i res connId nodeId, e = .verified i res ∧
      s.node.proven cfg.node i res = some (connId, nodeId) ∧
        (s.step cfg io e).node.bindings = s.node.bindings.complete connId nodeId) ∨
    ∃ connIds, (s.step cfg io e).node.bindings = s.node.bindings.shed connIds := by
  have hnode := nodeStep cfg io s e
  generalize (s.step cfg io e).node = n at hnode ⊢
  have hkeeps : n.bindings = s.node.bindings → ∃ connIds, n.bindings = s.node.bindings.shed connIds :=
    fun heq => ⟨[], heq⟩
  cases hnode with
  | same e => exact Or.inr (Or.inr (Or.inr (hkeeps rfl)))
  | @hello id data hadmits => exact Or.inl ⟨id, data, rfl, hadmits, Node.bindings_sendHello _ _⟩
  | @axona id data payload hid hcarries =>
      exact Or.inr (Or.inr (Or.inr (Node.bindings_handleAxonaFrame s.isConnOpen id payload)))
  | @signal id data payload hid =>
      exact Or.inr (Or.inr (Or.inr (hkeeps (Node.bindings_deliverDoorSignal io.now id payload))))
  | @closed id code reason hhas =>
      exact Or.inr (Or.inl ⟨id, code, reason, rfl, hhas, Node.bindings_handleConnClosed id⟩)
  | requestTimeout promise =>
      refine Or.inr (Or.inr (Or.inr (hkeeps ?_)))
      simp only [Transport.timeout]
      split <;> rfl
  | meshUp => exact Or.inr (Or.inr (Or.inr (hkeeps rfl)))
  | helloBuilt i hello => exact Or.inr (Or.inr (Or.inr (hkeeps (Node.bindings_helloBuilt i hello))))
  | verified i res =>
      have h := @Node.bindings_verified cfg.node io.kernel s.node i res
      cases hproven : s.node.proven cfg.node i res with
      | none =>
          rw [hproven] at h
          exact Or.inr (Or.inr (Or.inr (hkeeps h)))
      | some p =>
          obtain ⟨connId, nodeId⟩ := p
          rw [hproven] at h
          exact Or.inr (Or.inr (Or.inl ⟨i, res, connId, nodeId, rfl, hproven, h⟩))
  | ackBuilt i ack => exact Or.inr (Or.inr (Or.inr (hkeeps (Node.bindings_ackBuilt i ack))))
  | answered i ok body => exact Or.inr (Or.inr (Or.inr (hkeeps (Node.bindings_answered i ok body))))
  | kernel act => exact Or.inr (Or.inr (Or.inr (Node.bindings_act s.isConnOpen act)))
  | doorBind nodeId token input =>
      exact Or.inr (Or.inr (Or.inr (hkeeps (Node.bindings_bindPolicy io.now input nodeId token))))
  | routeToDoor nodeId token =>
      exact Or.inr (Or.inr (Or.inr (hkeeps (Node.bindings_onRouteToDoor nodeId token))))

end Server

end AxonaBridge
