import AxonaBridge.NodeBindings

/-!
# Who can prove an identity

A hello is verified against the nonce the connection was greeted with. A connection that was never
greeted has none: no verification of its hello is started, and it is bound to no identity.
-/

open JsText

namespace AxonaBridge

namespace Node

variable {cfg : NodeConfig} {k : Kernel} {n m : Node} {connId : ConnId}

/-- The nonces and the verifications under way are the same. -/
structure KeepsProofs (n m : Node) : Prop where
  nonce : m.serverNonceByConn = n.serverNonceByConn
  verifying : m.verifying = n.verifying

/-- So are the marks of the channels that have bound. -/
structure Quiet (n m : Node) : Prop extends n.KeepsProofs m where
  bound : m.doorChannelBound = n.doorChannelBound

namespace Quiet

theorem refl : n.Quiet n := ⟨⟨rfl, rfl⟩, rfl⟩

theorem trans {l : Node} (h : n.Quiet m) (h' : m.Quiet l) : n.Quiet l :=
  ⟨⟨h'.nonce.trans h.nonce, h'.verifying.trans h.verifying⟩, h'.bound.trans h.bound⟩

theorem helloBuilt (i : Nat) (hello : Except JsString JsVal) : n.Quiet (n.helloBuilt i hello).1 := by
  unfold Node.helloBuilt
  split
  · exact refl
  · cases hello <;> exact ⟨⟨rfl, rfl⟩, rfl⟩

theorem completeHandshake (c : ConnId) (peerNodeId : NodeId) :
    n.Quiet (n.completeHandshake cfg k c peerNodeId).1 := by
  unfold Node.completeHandshake
  split
  · exact refl
  · dsimp only
    split
    · exact ⟨⟨rfl, rfl⟩, rfl⟩
    · dsimp only
      split <;> exact ⟨⟨rfl, rfl⟩, rfl⟩

theorem ackBuilt (i : Nat) (ack : Except JsString JsVal) : n.Quiet (n.ackBuilt i ack).1 := by
  unfold Node.ackBuilt
  split
  · exact refl
  · cases ack <;> exact ⟨⟨rfl, rfl⟩, rfl⟩

theorem act (isConnOpen : ConnId → Bool) (a : KernelAct) : n.Quiet (n.act isConnOpen a).1 := by
  cases a with
  | notify nodeId type body =>
      unfold Node.act
      dsimp only
      split
      · exact refl
      · split
        · exact refl
        · split
          · exact refl
          · split <;> exact refl
  | _ => exact ⟨⟨rfl, rfl⟩, rfl⟩

theorem runActs (isConnOpen : ConnId → Bool) (as : List KernelAct) :
    n.Quiet (n.runActs isConnOpen as).1 := by
  induction as generalizing n with
  | nil => exact refl
  | cons a as ih => exact (act isConnOpen a).trans ih

theorem handleRequest (isConnOpen : ConnId → Bool) (c : ConnId) (msg : JsVal) :
    n.Quiet (n.handleRequest cfg k isConnOpen c msg).1 := by
  unfold Node.handleRequest
  dsimp only
  split
  · split
    · have hacts := @runActs { n with handling := n.handling ++ [(c, msg.field (js "id"))] }
        isConnOpen k.acts
      exact ⟨⟨hacts.nonce, hacts.verifying⟩, hacts.bound⟩
    · exact ⟨⟨rfl, rfl⟩, rfl⟩
  · split <;> exact refl

theorem answered (i : Nat) (ok : Bool) (body : Option JsVal) : n.Quiet (n.answered i ok body).1 := by
  unfold Node.answered
  split <;> exact ⟨⟨rfl, rfl⟩, rfl⟩

theorem reinforce (body : Option JsVal) : n.Quiet (n.reinforce k body).1 := by
  unfold Node.reinforce
  split <;> exact ⟨⟨rfl, rfl⟩, rfl⟩

theorem introduce (name addedBy : JsString) (body : Option JsVal) :
    n.Quiet (n.introduce cfg k name addedBy body) := by
  unfold Node.introduce
  split
  · split <;> exact ⟨⟨rfl, rfl⟩, rfl⟩
  · exact refl

theorem deliverDoorSignal (now : Int) (c : ConnId) (payload : Option JsVal) :
    n.Quiet (n.deliverDoorSignal cfg k now c payload).2.1 := by
  unfold Node.deliverDoorSignal
  split
  · exact refl
  · dsimp only
    split_ifs <;> exact ⟨⟨rfl, rfl⟩, rfl⟩

theorem makeRoom (now : Int) (input : BindInput) (c : ConnId) (idHex : JsString) :
    n.Quiet (n.makeRoom cfg now input c idHex).2.1 := by
  unfold Node.makeRoom
  split
  · dsimp only
    split
    · exact ⟨⟨rfl, rfl⟩, rfl⟩
    · split <;> exact ⟨⟨rfl, rfl⟩, rfl⟩
  · exact refl

theorem peerDied (died : Option Sender) : n.Quiet (n.peerDied cfg k died) := by
  unfold Node.peerDied
  split
  · split
    · exact refl
    · exact ⟨⟨rfl, rfl⟩, rfl⟩
  · exact refl

end Quiet

namespace KeepsProofs

theorem bindPolicy (now : Int) (input : BindInput) (nodeId : NodeId) (token : JsString) :
    n.KeepsProofs (n.bindPolicy cfg now input nodeId token).2.1 := by
  unfold Node.bindPolicy
  split
  · exact ⟨rfl, rfl⟩
  · rename_i c _
    dsimp only
    split
    · exact ⟨rfl, rfl⟩
    · split
      · exact ⟨rfl, rfl⟩
      · exact ⟨rfl, rfl⟩
      · have hroom := @Quiet.makeRoom cfg
          { n with sbRetired := (n.sbRetired.hasIdentity (idToHex nodeId) now).2 } now input c
            (idToHex nodeId)
        split
        · rename_i n' out hmade
          rw [hmade] at hroom
          exact ⟨hroom.nonce, hroom.verifying⟩
        · exact ⟨hroom.nonce, hroom.verifying⟩

theorem onRouteToDoor (nodeId : NodeId) (token : JsString) :
    n.KeepsProofs (n.onRouteToDoor cfg nodeId token).1 := by
  unfold Node.onRouteToDoor
  split
  · exact ⟨rfl, rfl⟩
  · split <;> exact ⟨rfl, rfl⟩

end KeepsProofs

/-- Every nonce the node keeps, and every nonce a hello is being verified against, is one `G` holds
of. -/
structure Greeted (G : ConnId → JsString → Prop) (n : Node) : Prop where
  nonce : ∀ connId nonce, n.serverNonceByConn.get connId = some nonce → G connId nonce
  verifying : ∀ v ∈ n.verifying, G v.connId v.serverNonce

namespace Greeted

variable {G : ConnId → JsString → Prop}

theorem keeps (h : n.Greeted G) (hm : n.KeepsProofs m) : m.Greeted G where
  nonce := by
    rw [hm.nonce]
    exact h.nonce
  verifying := by
    rw [hm.verifying]
    exact h.verifying

theorem quiet (h : n.Greeted G) (hm : n.Quiet m) : m.Greeted G := h.keeps hm.toKeepsProofs

theorem sendHello (h : n.Greeted G) {c : ConnId} {nonce : JsString} (hG : G c nonce) :
    (n.sendHello c nonce).1.Greeted G := by
  have hnonce : ∀ connId nonce', (if nonce = [] then n.serverNonceByConn
      else n.serverNonceByConn.set c nonce).get connId = some nonce' → G connId nonce' := by
    intro connId nonce' hget
    split at hget
    · exact h.nonce connId nonce' hget
    · rw [JsMap.get_set] at hget
      split at hget
      · rename_i hid
        rw [hid, ← Option.some.inj hget]
        exact hG
      · exact h.nonce connId nonce' hget
  unfold Node.sendHello
  split
  · exact h
  · dsimp only
    split
    · exact ⟨hnonce, h.verifying⟩
    · exact ⟨hnonce, h.verifying⟩

theorem verifyPeerHello (h : n.Greeted G) (sender : Sender) (body : Option JsVal)
    (label : HelloLabel) : (n.verifyPeerHello sender body label).1.Greeted G := by
  cases sender with
  | node nodeId => exact h
  | conn c =>
      unfold Node.verifyPeerHello
      dsimp only
      split
      · exact h
      · rename_i serverNonce hcbv
        refine ⟨h.nonce, fun v hv => ?_⟩
        rcases List.mem_append.mp hv with hv | hv
        · exact h.verifying v hv
        · rw [List.mem_singleton.mp hv]
          exact h.nonce c serverNonce (Option.filter_eq_some_iff.mp hcbv).1

theorem handleNotification (h : n.Greeted G) (isConnOpen : ConnId → Bool) (sender : Sender)
    (msg : JsVal) : (n.handleNotification cfg k isConnOpen sender msg).1.Greeted G := by
  unfold Node.handleNotification
  dsimp only
  split
  · exact h
  · split_ifs
    · exact h.quiet (.runActs isConnOpen k.acts)
    · exact h.verifyPeerHello _ _ _
    · exact h.verifyPeerHello _ _ _
    · exact h.quiet (.reinforce _)
    · exact h.quiet (.introduce _ _ _)
    · exact h.quiet (.introduce _ _ _)
    · exact h

theorem handleAxonaFrame (h : n.Greeted G) (isConnOpen : ConnId → Bool) (c : ConnId)
    (payload : JsVal) : (n.handleAxonaFrame cfg k isConnOpen c payload).1.Greeted G := by
  have hn : ({ n with transport := (n.transport.handleIncoming c payload).1 } : Node).Greeted G :=
    h.keeps ⟨rfl, rfl⟩
  unfold Node.handleAxonaFrame
  dsimp only
  split
  · exact hn
  · exact hn
  · exact hn.quiet (.handleRequest isConnOpen c _)
  · exact hn.handleNotification isConnOpen _ _

theorem verified (h : n.Greeted G) (i : Nat) (res : AuthResult) :
    (n.verified cfg k i res).1.Greeted G := by
  have herase : ({ n with verifying := n.verifying.eraseIdx i } : Node).Greeted G :=
    ⟨h.nonce, fun v hv => h.verifying v (List.mem_of_mem_eraseIdx hv)⟩
  unfold Node.verified
  split
  · exact h
  · cases res with
    | refused reason => exact herase
    | ok nodeId =>
        dsimp only
        split
        · exact herase
        · split
          · exact herase
          · exact (herase.quiet (.completeHandshake _ _)).keeps ⟨rfl, rfl⟩

theorem handleConnClosed (h : n.Greeted G) (c : ConnId) :
    (n.handleConnClosed cfg k c).Greeted G := by
  have hclosed : ({ n with
      helloByConnId := n.helloByConnId.delete c
      serverNonceByConn := n.serverNonceByConn.delete c
      transport := (n.transport.handleConnClosed c).1
      doorChannelBound := if cfg.sb.isSome then n.doorChannelBound.filter (· ≠ c)
        else n.doorChannelBound } : Node).Greeted G := by
    refine ⟨fun connId nonce hget => ?_, h.verifying⟩
    rw [JsMap.get_delete] at hget
    split at hget
    · cases hget
    · exact h.nonce connId nonce hget
  exact hclosed.quiet (.peerDied _)

end Greeted

/-- The connection has no nonce, and no hello of it is being verified. -/
structure Ungreeted (connId : ConnId) (n : Node) : Prop where
  nonce : n.serverNonceByConn.get connId = none
  verifying : ∀ v ∈ n.verifying, v.connId ≠ connId

namespace Ungreeted

theorem iff_greeted : n.Ungreeted connId ↔ n.Greeted fun c _ => c ≠ connId := by
  constructor
  · refine fun h => ⟨fun c nonce hget hid => ?_, h.verifying⟩
    rw [hid, h.nonce] at hget
    cases hget
  · refine fun h => ⟨?_, h.verifying⟩
    cases hget : n.serverNonceByConn.get connId with
    | none => rfl
    | some nonce => exact absurd rfl (h.nonce connId nonce hget)

/-- Nothing is proven of the connection. -/
theorem proven_ne (h : n.Ungreeted connId) {i : Nat} {res : AuthResult} {c : ConnId} {nodeId : NodeId}
    (hproven : n.proven cfg i res = some (c, nodeId)) : c ≠ connId := by
  unfold Node.proven at hproven
  split at hproven
  · cases hproven
  · split at hproven
    · cases hproven
    · rename_i v hv
      split at hproven
      · obtain ⟨peerNodeId, -, heq⟩ := Option.map_eq_some_iff.mp hproven
        have hc : v.connId = c := congrArg Prod.fst heq
        exact hc ▸ h.verifying v (List.mem_of_getElem? hv)
      · cases hproven

end Ungreeted

end Node

namespace Bindings

variable {b : Bindings} {connId : ConnId}

theorem reverse_unbind (h : b.reverse.get connId = none) (c : ConnId) :
    (b.unbind c).reverse.get connId = none := by
  change (b.reverse.delete c).get connId = none
  rw [JsMap.get_delete, h, ite_self]

theorem reverse_shed (h : b.reverse.get connId = none) (connIds : List ConnId) :
    (b.shed connIds).reverse.get connId = none := by
  induction connIds generalizing b with
  | nil => exact h
  | cons c connIds ih => exact ih (reverse_unbind h c)

theorem reverse_greet (c : ConnId) : (b.greet c).reverse = b.reverse := by
  unfold greet
  split <;> rfl

theorem reverse_complete (h : b.reverse.get connId = none) {c : ConnId} (hne : c ≠ connId) (nodeId : NodeId) :
    (b.complete c nodeId).reverse.get connId = none := by
  unfold complete
  split
  · exact h
  · change (b.reverse.set c nodeId).get connId = none
    rw [JsMap.get_set, if_neg hne.symm]
    exact h

end Bindings

namespace Server

variable {cfg : Config} {io : Io} {s : Server} {id : ConnId}

/-- The nonces stay within `G` if it holds of every greeting. -/
theorem greeted_step {G : ConnId → JsString → Prop} (h : s.node.Greeted G) (e : Event)
    (hG : ∀ c data, e = .message c data → Admits cfg s c data →
      (s.step cfg io e).node = s.node ∨ G c io.nonce) : (s.step cfg io e).node.Greeted G := by
  have hnode := nodeStep cfg io s e
  generalize (s.step cfg io e).node = n at hnode hG ⊢
  cases hnode with
  | same e => exact h
  | @hello c data hadmits =>
      rcases hG c data rfl hadmits with hkept | hgreets
      · rw [hkept]
        exact h
      · exact h.sendHello hgreets
  | @axona c data payload hid hcarries => exact h.handleAxonaFrame s.isConnOpen c payload
  | @signal c data payload hid => exact h.quiet (.deliverDoorSignal io.now c payload)
  | @closed c code reason hhas => exact h.handleConnClosed c
  | requestTimeout promise => exact h.keeps ⟨rfl, rfl⟩
  | meshUp => exact h.keeps ⟨rfl, rfl⟩
  | helloBuilt i hello => exact h.quiet (.helloBuilt i hello)
  | verified i res => exact h.verified i res
  | ackBuilt i ack => exact h.quiet (.ackBuilt i ack)
  | answered i ok body => exact h.quiet (.answered i ok body)
  | kernel act => exact h.quiet (.act s.isConnOpen act)
  | doorBind nodeId token input => exact h.keeps (.bindPolicy io.now input nodeId token)
  | routeToDoor nodeId token => exact h.keeps (.onRouteToDoor nodeId token)

/-- A connection that is not greeted stays so, unless a client-hello has it greeted. -/
theorem ungreeted_step (h : s.node.Ungreeted id) (e : Event)
    (hadmits : ∀ data, e = .message id data → Admits cfg s id data →
      (s.step cfg io e).node = s.node) : (s.step cfg io e).node.Ungreeted id := by
  rw [Node.Ungreeted.iff_greeted] at h ⊢
  refine greeted_step h e fun c data hmessage hc => ?_
  by_cases hid : c = id
  · subst hid
    exact Or.inl (hadmits data hmessage hc)
  · exact Or.inr hid

/-- A connection that is not greeted is bound to no identity. -/
theorem unbound_step (h : s.node.Ungreeted id) (hbound : s.node.bindings.reverse.get id = none) (e : Event) :
    (s.step cfg io e).node.bindings.reverse.get id = none := by
  rcases @bindings_step cfg io s e with
    ⟨c, data, -, -, heq⟩ | ⟨c, code, reason, -, -, heq⟩ | ⟨i, res, c, nodeId, -, hproven, heq⟩ | ⟨connIds, heq⟩
  · rw [heq, Bindings.reverse_greet]
    exact hbound
  · rw [heq]
    exact Bindings.reverse_unbind hbound c
  · rw [heq]
    exact Bindings.reverse_complete hbound (h.proven_ne hproven) nodeId
  · rw [heq]
    exact Bindings.reverse_shed hbound connIds

end Server

end AxonaBridge
