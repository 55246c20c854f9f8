import AxonaBridge.NodeModel

/-!
# The connections the node knows of

Every connection the node keeps anything about, and every connection it asks the server to send to
or close, is one the server has told it of. `Knows A` says so of the node's state for any set `A` of
connections, and each operation keeps it for the connection it is called with.
-/

open JsText

namespace AxonaBridge

/-- All connections the transport keeps are in `A`. -/
structure Transport.Knows (A : ConnId → Prop) (t : Transport) : Prop where
  forward : ∀ nodeId connId, t.connIdByNodeId.get nodeId = some connId → A connId
  reverse : ∀ connId nodeId, t.nodeIdByConnId.get connId = some nodeId → A connId

/-- All connections the node keeps are in `A`. -/
structure Node.Knows (A : ConnId → Prop) (n : Node) : Prop where
  transport : n.transport.Knows A
  hello : ∀ connId ∈ n.helloByConnId.keys, A connId
  nonce : ∀ connId ∈ n.serverNonceByConn.keys, A connId
  hellos : ∀ connId ∈ n.hellos, A connId
  verifying : ∀ v ∈ n.verifying, A v.connId
  acks : ∀ connId ∈ n.acks, A connId
  handling : ∀ r ∈ n.handling, A r.1
  negotiated : ∀ connId ∈ n.negotiated, A connId
  bound : ∀ connId ∈ n.doorChannelBound, A connId

/-- What the node asks for concerns connections in `A`, and its signals go out under `rid`. -/
def SendsWithin (A : ConnId → Prop) (rid : JsString) (out : List NodeOut) : Prop :=
  ∀ o ∈ out, match o with
    | .send connId _ => A connId
    | .signal connId sender _ => A connId ∧ sender = rid
    | .close connId _ => A connId
    | .log _ => True

section

variable {A : ConnId → Prop} {rid : JsString}

theorem SendsWithin.nil : SendsWithin A rid [] := fun _ h => by cases h

theorem SendsWithin.row (event : JsString) (fields : List (JsString × LogVal)) :
    SendsWithin A rid [.row event fields] := by
  intro o ho
  rw [List.mem_singleton.mp ho]
  trivial

theorem SendsWithin.cons {o : NodeOut} {out : List NodeOut} (ho : SendsWithin A rid [o])
    (hout : SendsWithin A rid out) : SendsWithin A rid (o :: out) := by
  intro o' ho'
  rcases List.mem_cons.mp ho' with rfl | ho'
  · exact ho o' (List.mem_singleton_self o')
  · exact hout o' ho'

theorem SendsWithin.append {out out' : List NodeOut} (h : SendsWithin A rid out)
    (h' : SendsWithin A rid out') : SendsWithin A rid (out ++ out') := by
  intro o ho
  rcases List.mem_append.mp ho with ho | ho
  · exact h o ho
  · exact h' o ho

theorem SendsWithin.send {connId : ConnId} (payload : AxonaFrame) (h : A connId) :
    SendsWithin A rid [.send connId payload] := by
  intro o ho
  rw [List.mem_singleton.mp ho]
  exact h

theorem SendsWithin.close {connId : ConnId} (reason : JsString) (h : A connId) :
    SendsWithin A rid [.close connId reason] := by
  intro o ho
  rw [List.mem_singleton.mp ho]
  exact h

end

namespace Transport

variable {A : ConnId → Prop} {t : Transport}

theorem Knows.mono {B : ConnId → Prop} (h : t.Knows A) (hAB : ∀ c, A c → B c) : t.Knows B :=
  ⟨fun n c hc => hAB c (h.forward n c hc), fun c n hc => hAB c (h.reverse c n hc)⟩

/-- An operation that leaves the bindings alone. -/
theorem Knows.of_eq {t' : Transport} (h : t.Knows A) (hf : t'.connIdByNodeId = t.connIdByNodeId)
    (hr : t'.nodeIdByConnId = t.nodeIdByConnId) : t'.Knows A :=
  ⟨fun n c hc => h.forward n c (hf ▸ hc), fun c n hc => h.reverse c n (hr ▸ hc)⟩

theorem Knows.bindPeer (h : t.Knows A) (nodeId : NodeId) {connId : ConnId} (hA : A connId) :
    (t.bindPeer nodeId connId).Knows A := by
  constructor
  · intro n c hc
    simp only [Transport.bindPeer, JsMap.get_set] at hc
    split at hc
    · exact Option.some.inj hc ▸ hA
    · exact h.forward n c hc
  · intro c n hc
    simp only [Transport.bindPeer, JsMap.get_set] at hc
    split at hc
    · rename_i hcc
      exact hcc ▸ hA
    · exact h.reverse c n hc

theorem get_of_get_delete {κ ν : Type} [DecidableEq κ] {m : JsMap κ ν} {k l : κ} {v : ν}
    (h : (m.delete k).get l = some v) : m.get l = some v := by
  rw [JsMap.get_delete] at h
  split at h
  · cases h
  · exact h

theorem Knows.unbindPeer (h : t.Knows A) (connId : ConnId) : (t.unbindPeer connId).Knows A := by
  constructor
  · intro n c hc
    simp only [Transport.unbindPeer] at hc
    split at hc
    · split at hc
      · exact h.forward n c (get_of_get_delete hc)
      · exact h.forward n c hc
    · exact h.forward n c hc
  · intro c n hc
    exact h.reverse c n (get_of_get_delete hc)

theorem Knows.closeConnection (h : t.Knows A) (nodeId : NodeId) :
    (t.closeConnection nodeId).Knows A := by
  unfold Transport.closeConnection
  split
  · exact h
  · split
    · exact h
    · exact h.unbindPeer _

theorem bindings_send (nodeId : NodeId) (isConnOpen : ConnId → Bool) (throws : Bool) :
    (t.send nodeId isConnOpen throws).1.connIdByNodeId = t.connIdByNodeId ∧
      (t.send nodeId isConnOpen throws).1.nodeIdByConnId = t.nodeIdByConnId := by
  unfold Transport.send
  split
  · exact ⟨rfl, rfl⟩
  · dsimp only
    split
    · exact ⟨rfl, rfl⟩
    · split
      · exact ⟨rfl, rfl⟩
      · split <;> exact ⟨rfl, rfl⟩

/-- A request goes out on the connection the identity is bound to, and that connection is open. -/
theorem requested_send {nodeId : NodeId} {isConnOpen : ConnId → Bool} {throws : Bool}
    {connId : ConnId} {id promise : Nat}
    (h : (t.send nodeId isConnOpen throws).2 = .requested connId id promise) :
    t.connIdByNodeId.get nodeId = some connId ∧ isConnOpen connId = true := by
  unfold Transport.send at h
  split at h
  · cases h
  · dsimp only at h
    split at h
    · cases h
    · rename_i c hc
      split at h
      · cases h
      · rename_i hopen
        rw [not_or] at hopen
        split at h <;> · cases h; exact ⟨hc, by simpa using hopen.2⟩

theorem bindings_handleIncoming (connId : ConnId) (payload : JsVal) :
    (t.handleIncoming connId payload).1.connIdByNodeId = t.connIdByNodeId ∧
      (t.handleIncoming connId payload).1.nodeIdByConnId = t.nodeIdByConnId := by
  have hres : (t.handleResponse payload).1.connIdByNodeId = t.connIdByNodeId ∧
      (t.handleResponse payload).1.nodeIdByConnId = t.nodeIdByConnId := by
    unfold Transport.handleResponse
    split
    · exact ⟨rfl, rfl⟩
    · dsimp only
      split
      · exact ⟨rfl, rfl⟩
      · split <;> exact ⟨rfl, rfl⟩
  unfold Transport.handleIncoming
  dsimp only
  split_ifs
  all_goals first | exact ⟨rfl, rfl⟩ | exact hres

/-- The sender of a notification is the identity the connection is bound to or the connection. -/
theorem notification_handleIncoming {connId : ConnId} {payload msg : JsVal} {sender : Sender}
    (h : (t.handleIncoming connId payload).2 = .notification sender msg) :
    sender = t.senderOf connId ∧ msg = payload := by
  unfold Transport.handleIncoming at h
  dsimp only at h
  split_ifs at h
  · cases h
    exact ⟨rfl, rfl⟩

theorem Knows.handleConnClosed (h : t.Knows A) (connId : ConnId) :
    (t.handleConnClosed connId).1.Knows A := by
  unfold Transport.handleConnClosed
  dsimp only
  split
  · refine Knows.unbindPeer ?_ connId
    exact h.of_eq rfl rfl
  · exact h.unbindPeer connId

theorem Knows.timeout (h : t.Knows A) (promise : Nat) : (t.timeout promise).Knows A := by
  unfold Transport.timeout
  split
  · exact h
  · exact h.of_eq rfl rfl

end Transport

namespace Node

variable {cfg : NodeConfig} {k : Kernel} {n : Node} {A : ConnId → Prop}

theorem Knows.mono {B : ConnId → Prop} (h : n.Knows A) (hAB : ∀ c, A c → B c) : n.Knows B where
  transport := h.transport.mono hAB
  hello c hc := hAB c (h.hello c hc)
  nonce c hc := hAB c (h.nonce c hc)
  hellos c hc := hAB c (h.hellos c hc)
  verifying v hv := hAB _ (h.verifying v hv)
  acks c hc := hAB c (h.acks c hc)
  handling r hr := hAB _ (h.handling r hr)
  negotiated c hc := hAB c (h.negotiated c hc)
  bound c hc := hAB c (h.bound c hc)

theorem Knows.any (n : Node) : n.Knows fun _ => True where
  transport := ⟨fun _ _ _ => trivial, fun _ _ _ => trivial⟩
  hello _ _ := trivial
  nonce _ _ := trivial
  hellos _ _ := trivial
  verifying _ _ := trivial
  acks _ _ := trivial
  handling _ _ := trivial
  negotiated _ _ := trivial
  bound _ _ := trivial

theorem mem_keys_of_set {κ ν : Type} [DecidableEq κ] {B : κ → Prop} {m : JsMap κ ν} {key : κ}
    {v : ν} (hm : ∀ c ∈ m.keys, B c) (hkey : B key) : ∀ c ∈ (m.set key v).keys, B c := by
  intro c hc
  rcases JsMap.mem_keys_set.mp hc with rfl | hc
  · exact hkey
  · exact hm c hc

theorem mem_keys_of_delete {κ ν : Type} [DecidableEq κ] {m : JsMap κ ν} {key c : κ}
    (h : c ∈ (m.delete key).keys) : c ∈ m.keys := by
  rw [JsMap.keys_delete] at h
  exact List.mem_of_mem_filter h

theorem mem_of_append_singleton {α : Type} {B : α → Prop} {as : List α} {a : α}
    (has : ∀ x ∈ as, B x) (ha : B a) : ∀ x ∈ as ++ [a], B x := by
  intro x hx
  rcases List.mem_append.mp hx with hx | hx
  · exact has x hx
  · exact List.mem_singleton.mp hx ▸ ha

theorem Knows.sendHello (h : n.Knows A) {connId : ConnId} (hA : A connId) (nonce : JsString) :
    (n.sendHello connId nonce).1.Knows A ∧
      SendsWithin A cfg.reservedId (n.sendHello connId nonce).2 := by
  unfold Node.sendHello
  split
  · exact ⟨h, SendsWithin.nil⟩
  · have hset : ∀ m : JsMap ConnId JsString,
        m = (if nonce = [] then n.serverNonceByConn else n.serverNonceByConn.set connId nonce) →
          ∀ c ∈ m.keys, A c := by
      rintro m rfl
      split
      · exact h.nonce
      · exact mem_keys_of_set h.nonce hA
    dsimp only
    split
    · exact ⟨{ h with hello := mem_keys_of_set h.hello hA, nonce := hset _ rfl },
        SendsWithin.row _ _⟩
    · exact ⟨{ h with
        hello := mem_keys_of_set h.hello hA
        nonce := hset _ rfl
        hellos := mem_of_append_singleton h.hellos hA }, SendsWithin.nil⟩

theorem Knows.helloBuilt (h : n.Knows A) (i : Nat) (hello : Except JsString JsVal) :
    (n.helloBuilt i hello).1.Knows A ∧ SendsWithin A cfg.reservedId (n.helloBuilt i hello).2 := by
  unfold Node.helloBuilt
  split
  · exact ⟨h, SendsWithin.nil⟩
  · rename_i connId hi
    have hA := h.hellos connId (List.mem_of_getElem? hi)
    have hn : ({ n with hellos := n.hellos.eraseIdx i } : Node).Knows A :=
      { h with hellos := fun c hc => h.hellos c (List.mem_of_mem_eraseIdx hc) }
    cases hello with
    | ok hello => exact ⟨hn, SendsWithin.send _ hA⟩
    | error err => exact ⟨hn, SendsWithin.row _ _⟩

/-- The connection a notification is reported of is in `A`. -/
def SenderIn (A : ConnId → Prop) : Sender → Prop
  | .node _ => True
  | .conn connId => A connId

theorem Knows.verifyPeerHello (h : n.Knows A) {sender : Sender} (hA : SenderIn A sender)
    (body : Option JsVal) (label : HelloLabel) :
    (n.verifyPeerHello sender body label).1.Knows A ∧
      SendsWithin A cfg.reservedId (n.verifyPeerHello sender body label).2 := by
  cases sender with
  | node nodeId => exact ⟨h, SendsWithin.nil⟩
  | conn connId =>
      unfold Node.verifyPeerHello
      dsimp only
      split
      · exact ⟨h, SendsWithin.row _ _⟩
      · exact ⟨{ h with verifying := mem_of_append_singleton h.verifying hA }, SendsWithin.nil⟩

theorem Knows.completeHandshake (h : n.Knows A) {connId : ConnId} (hA : A connId)
    (peerNodeId : NodeId) :
    (n.completeHandshake cfg k connId peerNodeId).1.Knows A ∧
      SendsWithin A cfg.reservedId (n.completeHandshake cfg k connId peerNodeId).2 := by
  unfold Node.completeHandshake
  split
  · exact ⟨h, SendsWithin.nil⟩
  · have hn : ({ n with
        helloByConnId := n.helloByConnId.set connId .complete
        transport := n.transport.bindPeer peerNodeId connId } : Node).Knows A :=
      { h with
        hello := mem_keys_of_set h.hello hA
        transport := h.transport.bindPeer peerNodeId hA }
    dsimp only
    split
    · exact ⟨hn, SendsWithin.row _ _⟩
    · refine ⟨?_, SendsWithin.append ?_ (SendsWithin.row _ _)⟩
      · split
        · exact { hn with }
        · exact hn
      · split
        · split
          · exact SendsWithin.row _ _
          · exact SendsWithin.nil
        · exact SendsWithin.nil

theorem Knows.verified (h : n.Knows A) (i : Nat) (res : AuthResult) :
    (n.verified cfg k i res).1.Knows A ∧
      SendsWithin A cfg.reservedId (n.verified cfg k i res).2 := by
  unfold Node.verified
  split
  · exact ⟨h, SendsWithin.nil⟩
  · rename_i v hi
    have hA := h.verifying v (List.mem_of_getElem? hi)
    have hn : ({ n with verifying := n.verifying.eraseIdx i } : Node).Knows A :=
      { h with verifying := fun v hv => h.verifying v (List.mem_of_mem_eraseIdx hv) }
    cases res with
    | refused reason =>
        exact ⟨hn, SendsWithin.cons (SendsWithin.row _ _) (SendsWithin.close _ hA)⟩
    | ok nodeId =>
        dsimp only
        split
        · exact ⟨hn, SendsWithin.cons (SendsWithin.row _ _) (SendsWithin.close _ hA)⟩
        · split
          · exact ⟨hn, SendsWithin.nil⟩
          · rename_i peerNodeId _
            have hdone := @Knows.completeHandshake cfg k _ A hn _ hA peerNodeId
            refine ⟨?_, hdone.2⟩
            split
            · exact { hdone.1 with acks := mem_of_append_singleton hdone.1.acks hA }
            · exact { hdone.1 with }

theorem Knows.ackBuilt (h : n.Knows A) (i : Nat) (ack : Except JsString JsVal) :
    (n.ackBuilt i ack).1.Knows A ∧ SendsWithin A cfg.reservedId (n.ackBuilt i ack).2 := by
  unfold Node.ackBuilt
  split
  · exact ⟨h, SendsWithin.nil⟩
  · rename_i connId hi
    have hA := h.acks connId (List.mem_of_getElem? hi)
    have hn : ({ n with acks := n.acks.eraseIdx i } : Node).Knows A :=
      { h with acks := fun c hc => h.acks c (List.mem_of_mem_eraseIdx hc) }
    cases ack with
    | ok ack => exact ⟨hn, SendsWithin.send _ hA⟩
    | error err => exact ⟨hn, SendsWithin.row _ _⟩

/-! ### The kernel's acts -/

theorem Knows.act (h : n.Knows A) (isConnOpen : ConnId → Bool) (a : KernelAct) :
    (n.act isConnOpen a).1.Knows A ∧ SendsWithin A cfg.reservedId (n.act isConnOpen a).2 := by
  cases a with
  | send nodeId type body =>
      obtain ⟨hf, hr⟩ := Transport.bindings_send (t := n.transport) nodeId isConnOpen false
      refine ⟨{ h with transport := h.transport.of_eq hf hr }, ?_⟩
      unfold Node.act
      dsimp only
      split
      · exact SendsWithin.nil
      · rename_i connId id promise hreq
        exact SendsWithin.send _ (h.transport.forward nodeId connId (Transport.requested_send hreq).1)
  | notify nodeId type body =>
      unfold Node.act
      dsimp only
      split
      · exact ⟨h, SendsWithin.nil⟩
      · split
        · exact ⟨h, SendsWithin.row _ _⟩
        · rename_i connId hconn
          split
          · exact ⟨h, SendsWithin.row _ _⟩
          · split
            · exact ⟨h, SendsWithin.send _ (h.transport.forward nodeId connId hconn)⟩
            · exact ⟨h, SendsWithin.row _ _⟩
  | closeConnection nodeId =>
      exact ⟨{ h with transport := h.transport.closeConnection nodeId }, SendsWithin.nil⟩
  | supersedePeer nodeId =>
      exact ⟨{ h with transport := h.transport.of_eq rfl rfl }, SendsWithin.nil⟩
  | setSynaptome synaptome => exact ⟨{ h with }, SendsWithin.nil⟩

theorem Knows.runActs (isConnOpen : ConnId → Bool) (as : List KernelAct) (h : n.Knows A) :
    (n.runActs isConnOpen as).1.Knows A ∧
      SendsWithin A cfg.reservedId (n.runActs isConnOpen as).2 := by
  induction as generalizing n with
  | nil => exact ⟨h, SendsWithin.nil⟩
  | cons a as ih =>
      have ha : (n.act isConnOpen a).1.Knows A ∧
          SendsWithin A cfg.reservedId (n.act isConnOpen a).2 := h.act isConnOpen a
      obtain ⟨has, hsends⟩ := ih ha.1
      exact ⟨has, ha.2.append hsends⟩

/-! ### Inbound frames -/

theorem Knows.handleRequest (h : n.Knows A) (isConnOpen : ConnId → Bool) {connId : ConnId}
    (hA : A connId) (msg : JsVal) :
    (n.handleRequest cfg k isConnOpen connId msg).1.Knows A ∧
      SendsWithin A cfg.reservedId (n.handleRequest cfg k isConnOpen connId msg).2 := by
  unfold Node.handleRequest
  dsimp only
  split
  · have hn : ({ n with handling := n.handling ++ [(connId, msg.field (js "id"))] } : Node).Knows A :=
      { h with handling := mem_of_append_singleton h.handling hA }
    split
    · exact hn.runActs isConnOpen k.acts
    · exact ⟨hn, SendsWithin.nil⟩
  · split
    · exact ⟨h, SendsWithin.nil⟩
    · exact ⟨h, SendsWithin.send _ hA⟩

theorem Knows.answered (h : n.Knows A) (i : Nat) (ok : Bool) (body : Option JsVal) :
    (n.answered i ok body).1.Knows A ∧ SendsWithin A cfg.reservedId (n.answered i ok body).2 := by
  unfold Node.answered
  split
  · exact ⟨h, SendsWithin.nil⟩
  · rename_i connId id hi
    exact ⟨{ h with handling := fun r hr => h.handling r (List.mem_of_mem_eraseIdx hr) },
      SendsWithin.send _ (h.handling (connId, id) (List.mem_of_getElem? hi))⟩

theorem Knows.reinforce (h : n.Knows A) (body : Option JsVal) :
    (n.reinforce k body).1.Knows A ∧ SendsWithin A cfg.reservedId (n.reinforce k body).2 := by
  unfold Node.reinforce
  split
  · exact ⟨h, SendsWithin.row _ _⟩
  · exact ⟨{ h with }, SendsWithin.nil⟩
  · exact ⟨h, SendsWithin.nil⟩

theorem Knows.introduce (h : n.Knows A) (name addedBy : JsString) (body : Option JsVal) :
    (n.introduce cfg k name addedBy body).Knows A := by
  unfold Node.introduce
  split
  · split
    · exact h
    · exact { h with }
  · exact h

theorem Knows.handleNotification (h : n.Knows A) (isConnOpen : ConnId → Bool) {sender : Sender}
    (hA : SenderIn A sender) (msg : JsVal) :
    (n.handleNotification cfg k isConnOpen sender msg).1.Knows A ∧
      SendsWithin A cfg.reservedId (n.handleNotification cfg k isConnOpen sender msg).2 := by
  unfold Node.handleNotification
  dsimp only
  split
  · exact ⟨h, SendsWithin.nil⟩
  · split_ifs
    · have hacts : (n.runActs isConnOpen k.acts).1.Knows A ∧
          SendsWithin A cfg.reservedId (n.runActs isConnOpen k.acts).2 := h.runActs isConnOpen k.acts
      refine ⟨hacts.1, hacts.2.append ?_⟩
      cases k.handlerError with
      | none => exact SendsWithin.nil
      | some err => exact SendsWithin.row _ _
    · exact h.verifyPeerHello hA _ _
    · exact h.verifyPeerHello hA _ _
    · exact h.reinforce _
    · exact ⟨h.introduce _ _ _, SendsWithin.nil⟩
    · exact ⟨h.introduce _ _ _, SendsWithin.nil⟩
    · exact ⟨h, SendsWithin.nil⟩

theorem Knows.handleAxonaFrame (h : n.Knows A) (isConnOpen : ConnId → Bool) {connId : ConnId}
    (hA : A connId) (payload : JsVal) :
    (n.handleAxonaFrame cfg k isConnOpen connId payload).1.Knows A ∧
      SendsWithin A cfg.reservedId (n.handleAxonaFrame cfg k isConnOpen connId payload).2.1 := by
  obtain ⟨hf, hr⟩ := Transport.bindings_handleIncoming (t := n.transport) connId payload
  have hn : ({ n with transport := (n.transport.handleIncoming connId payload).1 } : Node).Knows A :=
    { h with transport := h.transport.of_eq hf hr }
  unfold Node.handleAxonaFrame
  dsimp only
  split
  · exact ⟨hn, SendsWithin.nil⟩
  · exact ⟨hn, SendsWithin.nil⟩
  · exact hn.handleRequest isConnOpen hA _
  · rename_i sender msg hntf
    refine hn.handleNotification isConnOpen ?_ _
    rw [(Transport.notification_handleIncoming hntf).1]
    unfold Transport.senderOf
    split
    · trivial
    · exact hA

/-! ### The close of a socket and the door -/

theorem Knows.handleConnClosed (h : n.Knows A) (connId : ConnId) :
    (n.handleConnClosed cfg k connId).Knows A := by
  have hbound : ∀ c ∈ (if cfg.sb.isSome then n.doorChannelBound.filter (· ≠ connId)
      else n.doorChannelBound), A c := by
    intro c hc
    split at hc
    · exact h.bound c (List.mem_of_mem_filter hc)
    · exact h.bound c hc
  have hn : ({ n with
      helloByConnId := n.helloByConnId.delete connId
      serverNonceByConn := n.serverNonceByConn.delete connId
      transport := (n.transport.handleConnClosed connId).1
      doorChannelBound := if cfg.sb.isSome then n.doorChannelBound.filter (· ≠ connId)
        else n.doorChannelBound } : Node).Knows A :=
    { h with
      transport := h.transport.handleConnClosed connId
      hello := fun c hc => h.hello c (mem_keys_of_delete hc)
      nonce := fun c hc => h.nonce c (mem_keys_of_delete hc)
      bound := hbound }
  unfold Node.handleConnClosed Node.peerDied
  dsimp only
  split
  · split
    · exact hn
    · exact { hn with }
  · exact hn

/-- The close of a connection the node does not know is nothing to it. -/
theorem Knows.handleConnClosed_eq_self (h : n.Knows A) {connId : ConnId} (hA : ¬A connId) :
    n.handleConnClosed cfg k connId = n := by
  have hget : n.transport.nodeIdByConnId.get connId = none := by
    by_contra hsome
    obtain ⟨nodeId, hsome⟩ := Option.ne_none_iff_exists'.mp hsome
    exact hA (h.transport.reverse connId nodeId hsome)
  have hcurrent : n.transport.isCurrent connId = true := by
    unfold Transport.isCurrent
    rw [hget]
  have hreject : n.transport.rejectWhere
      (fun p => n.transport.nodeIdByConnId.get connId = some p.nodeId) (js "peer-died") = n.transport := by
    rw [hget]
    simp [Transport.rejectWhere, JsMap.filter]
  have hunbind : n.transport.unbindPeer connId = n.transport := by
    unfold Transport.unbindPeer
    rw [hget, JsMap.delete_eq_self (JsMap.not_mem_keys_iff.mpr hget)]
  have hclosed : n.transport.handleConnClosed connId = (n.transport, some (.conn connId)) := by
    unfold Transport.handleConnClosed Transport.senderOf
    rw [if_pos hcurrent, hreject, hget]
    dsimp only
    rw [hunbind]
  have hbound : n.doorChannelBound.filter (· ≠ connId) = n.doorChannelBound := by
    refine List.filter_eq_self.mpr fun c hc => ?_
    simp only [ne_eq, decide_eq_true_eq]
    rintro rfl
    exact hA (h.bound c hc)
  unfold Node.handleConnClosed
  rw [hclosed, JsMap.delete_eq_self (mt (h.hello connId) hA),
    JsMap.delete_eq_self (mt (h.nonce connId) hA), hbound, ite_self]
  rfl

theorem Knows.deliverDoorSignal (h : n.Knows A) (now : Int) {connId : ConnId} (hA : A connId)
    (payload : Option JsVal) :
    (n.deliverDoorSignal cfg k now connId payload).2.1.Knows A ∧
      SendsWithin A cfg.reservedId (n.deliverDoorSignal cfg k now connId payload).2.2 := by
  unfold Node.deliverDoorSignal
  split
  · exact ⟨h, SendsWithin.nil⟩
  · dsimp only
    split_ifs
    any_goals exact ⟨{ h with }, SendsWithin.row _ _⟩
    all_goals
      refine ⟨{ h with negotiated := mem_of_append_singleton h.negotiated hA }, ?_⟩
      cases k.signalError with
      | none => exact SendsWithin.nil
      | some err => exact SendsWithin.row _ _

theorem sendsWithin_doorSink {isConnOpen : ConnId → Bool} {key : JsString} {payload : JsVal}
    (h : ∀ connId, cfg.ownDoorKey key = some connId → A connId) :
    SendsWithin A cfg.reservedId (doorSink cfg isConnOpen key payload) := by
  unfold doorSink
  split
  · exact SendsWithin.nil
  · rename_i connId hkey
    split
    · intro o ho
      rw [List.mem_singleton.mp ho]
      exact ⟨h connId hkey, rfl⟩
    · exact SendsWithin.row _ _

theorem Knows.refuseBind (h : n.Knows A) (connId : ConnId) (idHex why logged : JsString)
    (err : Option JsString) (counts : Option (Int × Int)) :
    (n.refuseBind connId idHex why logged err counts).2.1.Knows A ∧
      SendsWithin A cfg.reservedId (n.refuseBind connId idHex why logged err counts).2.2 := by
  unfold Node.refuseBind
  refine ⟨h, ?_⟩
  dsimp only
  split <;> exact SendsWithin.row _ _

theorem Knows.makeRoom (h : n.Knows A) (now : Int) (input : BindInput) (connId : ConnId)
    (idHex : JsString) :
    (n.makeRoom cfg now input connId idHex).2.1.Knows A ∧
      SendsWithin A cfg.reservedId (n.makeRoom cfg now input connId idHex).2.2 := by
  unfold Node.makeRoom
  split
  · have hn : ∀ b, ({ n with sbBudget := b } : Node).Knows A := fun _ => { h with }
    dsimp only
    split
    · exact Knows.refuseBind (hn _) _ _ _ _ _ _
    · split
      · exact Knows.refuseBind (hn _) _ _ _ _ _ _
      · exact ⟨{ h with }, SendsWithin.row _ _⟩
  · exact ⟨h, SendsWithin.nil⟩

theorem Knows.bindPolicy (h : n.Knows A) (now : Int) (input : BindInput) (nodeId : NodeId)
    {token : JsString} (hA : ∀ connId, cfg.ownDoorKey token = some connId → A connId) :
    (n.bindPolicy cfg now input nodeId token).2.1.Knows A ∧
      SendsWithin A cfg.reservedId (n.bindPolicy cfg now input nodeId token).2.2 := by
  unfold Node.bindPolicy
  split
  · exact ⟨h, SendsWithin.nil⟩
  · rename_i connId hkey
    have hn : ({ n with sbRetired := (n.sbRetired.hasIdentity (idToHex nodeId) now).2 } : Node).Knows A :=
      { h with }
    have hrefuse : ∀ why logged err, (({ n with
        sbRetired := (n.sbRetired.hasIdentity (idToHex nodeId) now).2 } : Node).refuseBind connId
          (idToHex nodeId) why logged err none).2.1.Knows A ∧ SendsWithin A cfg.reservedId
        (({ n with sbRetired := (n.sbRetired.hasIdentity (idToHex nodeId) now).2 } : Node).refuseBind
          connId (idToHex nodeId) why logged err none).2.2 := by
      intro why logged err
      exact Knows.refuseBind hn connId (idToHex nodeId) why logged err none
    dsimp only
    split
    · exact hrefuse _ _ _
    · split
      · exact hrefuse _ _ _
      · exact hrefuse _ _ _
      · have hroom := @Knows.makeRoom cfg _ A hn now input connId (idToHex nodeId)
        obtain ⟨hk, hs⟩ := hroom
        split
        · rename_i n' out hroom
          rw [hroom] at hk hs
          refine ⟨?_, hs.append (SendsWithin.row _ _)⟩
          refine { hk with bound := fun c hc => ?_ }
          dsimp only at hc
          split at hc
          · exact hk.bound c hc
          · exact mem_of_append_singleton hk.bound (hA connId hkey) c hc
        · exact ⟨hk, hs⟩

theorem Knows.onRouteToDoor (h : n.Knows A) (nodeId : NodeId) {token : JsString}
    (hA : ∀ connId, cfg.ownDoorKey token = some connId → A connId) :
    (n.onRouteToDoor cfg nodeId token).1.Knows A ∧
      SendsWithin A cfg.reservedId (n.onRouteToDoor cfg nodeId token).2 := by
  unfold Node.onRouteToDoor
  split
  · exact ⟨h, SendsWithin.nil⟩
  · rename_i connId hkey
    split
    · exact ⟨h, SendsWithin.nil⟩
    · exact ⟨{ h with bound := mem_of_append_singleton h.bound (hA connId hkey) },
        SendsWithin.row _ _⟩

end Node

end AxonaBridge
