import AxonaBridge.JsMapRename
import AxonaBridge.NodeKnows

/-!
# Renumbered connections

No operation of the transport or the node reads a connection id for anything but whether it is another
one, empty, or the bridge's own. So an operation on a node whose connections are renumbered does what
it does on the node, under the new numbers.
-/

open JsText

namespace AxonaBridge

/-- Another numbering of the connections, which leaves the empty id and the bridge's own as they
are. -/
structure Renumbering (rid : ConnId) extends ConnId ↪ ConnId where
  nil : toFun [] = []
  reserved : toFun rid = rid

namespace Renumbering

variable {rid : ConnId}

instance : FunLike (Renumbering rid) ConnId ConnId where
  coe f := f.toFun
  coe_injective f f' h := by
    cases f
    cases f'
    congr
    exact Function.Embedding.coe_injective h

variable (f : Renumbering rid) {c c' : ConnId}

theorem inj : f c = f c' ↔ c = c' := f.injective.eq_iff

theorem eq_nil_iff : f c = [] ↔ c = [] := by
  constructor
  · intro h
    exact f.injective (h.trans f.nil.symm)
  · intro h
    rw [h]
    exact f.nil

theorem eq_reserved_iff : f c = rid ↔ c = rid := by
  constructor
  · intro h
    exact f.injective (h.trans f.reserved.symm)
  · intro h
    rw [h]
    exact f.reserved

/-- The numbering as it is. -/
def refl (rid : ConnId) : Renumbering rid where
  toEmbedding := Function.Embedding.refl ConnId
  nil := rfl
  reserved := rfl

end Renumbering

variable {rid : ConnId} (f : Renumbering rid)

/-! ### The transport -/

def Pending.rename (p : Pending) : Pending := { p with via := f p.via }

def Sender.rename : Sender → Sender
  | .node nodeId => .node nodeId
  | .conn connId => .conn (f connId)

namespace Transport

def rename (t : Transport) : Transport :=
  { t with
    pending := t.pending.rename (Function.Embedding.refl Nat) (Pending.rename f)
    connIdByNodeId := t.connIdByNodeId.rename (Function.Embedding.refl NodeId) f
    nodeIdByConnId := t.nodeIdByConnId.rename f.toEmbedding id }

variable (t : Transport) (connId : ConnId) (nodeId : NodeId)

@[simp] theorem get_nodeIdByConnId_rename :
    (t.rename f).nodeIdByConnId.get (f connId) = t.nodeIdByConnId.get connId := by
  have h := JsMap.get_rename (f := f.toEmbedding) (g := id) t.nodeIdByConnId connId
  rw [Option.map_id_apply] at h
  exact h

@[simp] theorem get_connIdByNodeId_rename :
    (t.rename f).connIdByNodeId.get nodeId = (t.connIdByNodeId.get nodeId).map f :=
  JsMap.get_rename_refl _ _

theorem isCurrent_rename : (t.rename f).isCurrent (f connId) = t.isCurrent connId := by
  unfold isCurrent
  rw [get_nodeIdByConnId_rename]
  cases t.nodeIdByConnId.get connId with
  | none => rfl
  | some nodeId =>
      dsimp only
      rw [get_connIdByNodeId_rename]
      cases t.connIdByNodeId.get nodeId with
      | none => simp
      | some c => simp [f.inj]

theorem senderOf_rename : (t.rename f).senderOf (f connId) = (t.senderOf connId).rename f := by
  unfold senderOf
  rw [get_nodeIdByConnId_rename]
  cases t.nodeIdByConnId.get connId with
  | none => rfl
  | some nodeId => rfl

theorem bindPeer_rename :
    (t.rename f).bindPeer nodeId (f connId) = (t.bindPeer nodeId connId).rename f := by
  have hforward := JsMap.set_rename_refl (g := f) t.connIdByNodeId nodeId connId
  have hreverse := JsMap.set_rename (f := f.toEmbedding) (g := id) t.nodeIdByConnId connId nodeId
  unfold bindPeer rename
  exact congrArg₂ (fun forward reverse => ({ t.rename f with
    connIdByNodeId := forward, nodeIdByConnId := reverse } : Transport)) hforward hreverse

theorem unbindPeer_rename :
    (t.rename f).unbindPeer (f connId) = (t.unbindPeer connId).rename f := by
  have hreverse : (t.rename f).nodeIdByConnId.delete (f connId) =
      (t.nodeIdByConnId.delete connId).rename f.toEmbedding id := JsMap.delete_rename _ _
  unfold unbindPeer
  rw [get_nodeIdByConnId_rename, hreverse]
  cases t.nodeIdByConnId.get connId with
  | none => rfl
  | some nodeId =>
      have hiff : (t.rename f).connIdByNodeId.get nodeId = some (f connId) ↔
          t.connIdByNodeId.get nodeId = some connId := by
        rw [get_connIdByNodeId_rename]
        cases t.connIdByNodeId.get nodeId with
        | none => simp
        | some c => simp [f.inj]
      have hdelete : (t.rename f).connIdByNodeId.delete nodeId =
          (t.connIdByNodeId.delete nodeId).rename (Function.Embedding.refl NodeId) f :=
        JsMap.delete_rename_refl _ _
      by_cases h : t.connIdByNodeId.get nodeId = some connId
      · simp only [if_pos h, if_pos (hiff.mpr h), hdelete]
        rfl
      · simp only [if_neg h, if_neg (mt hiff.mp h)]
        rfl

theorem rejectWhere_rename {test test' : Pending → Bool} (h : ∀ p, test' (p.rename f) = test p)
    (why : JsString) :
    (t.rename f).rejectWhere test' why = (t.rejectWhere test why).rename f := by
  have hvalues : (t.rename f).pending.entries.map Prod.snd =
      (t.pending.entries.map Prod.snd).map (Pending.rename f) := by
    simp [rename, JsMap.rename, Function.comp_def]
  have hhit : ((t.rename f).pending.entries.map Prod.snd).filter test' =
      ((t.pending.entries.map Prod.snd).filter test).map (Pending.rename f) := by
    rw [hvalues, List.filter_map]
    congr 1
    exact List.filter_congr fun p _ => h p
  have hpending : (t.rename f).pending.filter (fun e => !test' e.2) =
      (t.pending.filter fun e => !test e.2).rename (Function.Embedding.refl Nat) (Pending.rename f) :=
    JsMap.filter_rename fun e _ => by rw [h]
  unfold rejectWhere
  rw [hhit, hpending]
  simp only [rename, List.any_map, List.map_map, Function.comp_def, Pending.rename]
  rfl

theorem supersedePeer_rename :
    (t.rename f).supersedePeer nodeId = (t.supersedePeer nodeId).rename f :=
  rejectWhere_rename f t (fun _ => rfl) _

theorem closeConnection_rename :
    (t.rename f).closeConnection nodeId = (t.closeConnection nodeId).rename f := by
  unfold closeConnection
  rw [get_connIdByNodeId_rename]
  cases t.connIdByNodeId.get nodeId with
  | none => rfl
  | some connId =>
      dsimp only [Option.map_some]
      by_cases h : connId = [] ∨ t.reportBound
      · rw [if_pos h]
        exact if_pos (h.imp_left f.eq_nil_iff.mpr)
      · rw [if_neg h, ← unbindPeer_rename]
        exact if_neg (mt (Or.imp_left f.eq_nil_iff.mp) h)

theorem handleConnClosed_rename :
    (t.rename f).handleConnClosed (f connId) =
      ((t.handleConnClosed connId).1.rename f, (t.handleConnClosed connId).2.map (Sender.rename f)) := by
  unfold handleConnClosed
  rw [isCurrent_rename]
  split
  · dsimp only
    rw [senderOf_rename, get_nodeIdByConnId_rename, ← unbindPeer_rename]
    rw [rejectWhere_rename f t (fun _ => rfl)]
    rfl
  · rw [unbindPeer_rename]
    rfl

/-! ### Requests -/

theorem pendingFor_rename (msg : JsVal) :
    (t.rename f).pendingFor msg = (t.pendingFor msg).map fun p => (p.1, p.2.rename f) := by
  unfold pendingFor
  cases reqKey (msg.field (js "id")) with
  | none => rfl
  | some id =>
      dsimp only [Option.bind_some]
      have h : (t.rename f).pending.get id = (t.pending.get id).map (Pending.rename f) :=
        JsMap.get_rename_refl _ _
      rw [h]
      cases t.pending.get id with
      | none => rfl
      | some p => rfl

theorem handleResponse_rename (msg : JsVal) :
    (t.rename f).handleResponse msg =
      ((t.handleResponse msg).1.rename f, (t.handleResponse msg).2) := by
  unfold handleResponse
  rw [pendingFor_rename]
  cases t.pendingFor msg with
  | none => rfl
  | some p =>
      obtain ⟨id, p⟩ := p
      dsimp only [Option.map_some]
      have hdelete : (t.rename f).pending.delete id =
          (t.pending.delete id).rename (Function.Embedding.refl Nat) (Pending.rename f) :=
        JsMap.delete_rename_refl _ _
      rw [hdelete]
      split
      · rfl
      · split
        · rfl
        · rfl

theorem timeout_rename (promise : Nat) :
    (t.rename f).timeout promise = (t.timeout promise).rename f := by
  unfold timeout
  have htimers : (t.rename f).timers = t.timers := rfl
  rw [htimers]
  split
  · rfl
  · rename_i id _
    have hdelete : (t.rename f).pending.delete id =
        (t.pending.delete id).rename (Function.Embedding.refl Nat) (Pending.rename f) :=
      JsMap.delete_rename_refl _ _
    rw [hdelete]
    rfl

def SendResult.rename : SendResult → SendResult
  | .refused message => .refused message
  | .requested connId id promise => .requested (f connId) id promise

/-- `isConnOpen` is asked of the binding only. -/
theorem send_rename {isConnOpen isConnOpen' : ConnId → Bool}
    (h : ∀ connId, t.connIdByNodeId.get nodeId = some connId →
      isConnOpen' (f connId) = isConnOpen connId) (throws : Bool) :
    (t.rename f).send nodeId isConnOpen' throws =
      ((t.send nodeId isConnOpen throws).1.rename f, (t.send nodeId isConnOpen throws).2.rename f) := by
  unfold send
  have hstarted : (t.rename f).started = t.started := rfl
  rw [hstarted]
  split
  · rfl
  · rw [get_connIdByNodeId_rename]
    cases hget : t.connIdByNodeId.get nodeId with
    | none => rfl
    | some connId =>
        dsimp only [Option.map_some]
        rw [h connId hget]
        by_cases hopen : connId = [] ∨ (!isConnOpen connId) = true
        · rw [if_pos hopen, if_pos (hopen.imp_left f.eq_nil_iff.mpr)]
          rfl
        · rw [if_neg hopen, if_neg (mt (Or.imp_left f.eq_nil_iff.mp) hopen)]
          have hset : (t.rename f).pending.set t.nextId
              { nodeId, promise := t.promises, via := f connId } =
                (t.pending.set t.nextId { nodeId, promise := t.promises, via := connId }).rename
                  (Function.Embedding.refl Nat) (Pending.rename f) :=
            JsMap.set_rename_refl t.pending t.nextId
              { nodeId, promise := t.promises, via := connId }
          have hnext : (t.rename f).nextId = t.nextId := rfl
          have hpromises : (t.rename f).promises = t.promises := rfl
          rw [hnext, hpromises, hset]
          split
          · refine Prod.ext ?_ rfl
            dsimp only [settle, clearTimer]
            rw [JsMap.delete_rename_refl]
            rfl
          · rfl

end Transport

/-! ### The node -/

def SocketBootstrap.RecentlyRetired.rename (r : SocketBootstrap.RecentlyRetired) :
    SocketBootstrap.RecentlyRetired :=
  { r with conns := r.conns.rename f.toEmbedding id }

def Verifying.rename (v : Verifying) : Verifying := { v with connId := f v.connId }

def Node.rename (n : Node) : Node :=
  { n with
    transport := n.transport.rename f
    serverNonceByConn := n.serverNonceByConn.rename f.toEmbedding id
    helloByConnId := n.helloByConnId.rename f.toEmbedding id
    doorChannelBound := n.doorChannelBound.map f
    sbRetired := n.sbRetired.rename f
    hellos := n.hellos.map f
    verifying := n.verifying.map (Verifying.rename f)
    acks := n.acks.map f
    handling := n.handling.map fun r => (f r.1, r.2)
    negotiated := n.negotiated.map f }

/-- What the node asks for, under the new numbers. Of rows and closes only the places have to agree. -/
inductive NodeOut.Renames : NodeOut → NodeOut → Prop
  | send (connId : ConnId) (payload : AxonaFrame) :
      NodeOut.Renames (.send connId payload) (.send (f connId) payload)
  | signal (connId sender : ConnId) (payload : JsVal) :
      NodeOut.Renames (.signal connId sender payload) (.signal (f connId) (f sender) payload)
  | close (connId connId' : ConnId) (reason reason' : JsString) :
      NodeOut.Renames (.close connId reason) (.close connId' reason')
  | log (row row' : LogRow) : NodeOut.Renames (.log row) (.log row')

/-- The result of an operation and the one of the renumbered operation. -/
structure Node.Renames (r r' : Node × List NodeOut) : Prop where
  node : r'.1 = r.1.rename f
  out : List.Forall₂ (NodeOut.Renames f) r.2 r'.2

namespace Node

variable {cfg : NodeConfig} {k : Kernel} {n : Node} {f}

theorem Renames.silent {n' : Node} (h : n' = n.rename f) : Renames f (n, []) (n', []) := ⟨h, .nil⟩

theorem Renames.row {n' : Node} (h : n' = n.rename f) (row row' : LogRow) :
    Renames f (n, [.log row]) (n', [.log row']) := ⟨h, .cons (.log row row') .nil⟩

theorem Renames.send {n' : Node} (h : n' = n.rename f) (connId : ConnId) (payload : AxonaFrame) :
    Renames f (n, [.send connId payload]) (n', [.send (f connId) payload]) :=
  ⟨h, .cons (.send connId payload) .nil⟩

theorem Renames.ack {r r' : Node × List NodeOut} (h : Renames f r r') (connId : ConnId) :
    Renames f ({ r.1 with acks := r.1.acks ++ [connId] }, r.2)
      ({ r'.1 with acks := r'.1.acks ++ [f connId] }, r'.2) := by
  refine ⟨?_, h.out⟩
  rw [h.node]
  simp only [rename, List.map_append, List.map_cons, List.map_nil]

/-! ### The handshake -/

theorem bridgeCbv_rename (connId : ConnId) : (n.rename f).bridgeCbv (f connId) = n.bridgeCbv connId := by
  have h : (n.rename f).serverNonceByConn.get (f connId) = n.serverNonceByConn.get connId := by
    have hget := JsMap.get_rename (f := f.toEmbedding) (g := id) n.serverNonceByConn connId
    rwa [Option.map_id_apply] at hget
  unfold bridgeCbv
  rw [h]

theorem renames_sendHello (connId : ConnId) (serverNonce : JsString) :
    Renames f (n.sendHello connId serverNonce) ((n.rename f).sendHello (f connId) serverNonce) := by
  have hhas : (n.rename f).helloByConnId.has (f connId) = n.helloByConnId.has connId :=
    JsMap.has_rename _ _
  have hgreet : ({ n.rename f with
      helloByConnId := (n.rename f).helloByConnId.set (f connId) .pending
      serverNonceByConn := if serverNonce = [] then (n.rename f).serverNonceByConn
        else (n.rename f).serverNonceByConn.set (f connId) serverNonce } : Node) =
      ({ n with
        helloByConnId := n.helloByConnId.set connId .pending
        serverNonceByConn := if serverNonce = [] then n.serverNonceByConn
          else n.serverNonceByConn.set connId serverNonce } : Node).rename f := by
    have hhello := JsMap.set_rename (f := f.toEmbedding) (g := id) n.helloByConnId connId .pending
    have hnonce := JsMap.set_rename (f := f.toEmbedding) (g := id) n.serverNonceByConn connId serverNonce
    unfold rename
    dsimp only
    split
    · exact congrArg (fun hello => { n.rename f with helloByConnId := hello }) hhello
    · exact congrArg₂ (fun hello nonce => { n.rename f with
        helloByConnId := hello, serverNonceByConn := nonce }) hhello hnonce
  have hcbv := (congrArg (fun m : Node => m.bridgeCbv (f connId)) hgreet).trans (bridgeCbv_rename connId)
  unfold sendHello
  rw [hhas]
  split
  · exact Renames.silent rfl
  · dsimp only at hcbv ⊢
    rw [hcbv]
    split
    · exact Renames.row hgreet _ _
    · refine Renames.silent ?_
      refine (congrArg (fun m : Node => { m with hellos := m.hellos ++ [f connId] }) hgreet).trans ?_
      simp only [rename, List.map_append, List.map_cons, List.map_nil]

theorem renames_helloBuilt (i : Nat) (hello : Except JsString JsVal) :
    Renames f (n.helloBuilt i hello) ((n.rename f).helloBuilt i hello) := by
  have hget : (n.rename f).hellos[i]? = n.hellos[i]?.map f := List.getElem?_map
  have herase : (n.rename f).hellos.eraseIdx i = (n.hellos.eraseIdx i).map f := List.eraseIdx_map ..
  unfold helloBuilt
  rw [hget]
  cases n.hellos[i]? with
  | none => exact Renames.silent rfl
  | some connId =>
      dsimp only [Option.map_some]
      rw [herase]
      cases hello with
      | ok hello => exact Renames.send rfl _ _
      | error err => exact Renames.row rfl _ _

theorem renames_ackBuilt (i : Nat) (ack : Except JsString JsVal) :
    Renames f (n.ackBuilt i ack) ((n.rename f).ackBuilt i ack) := by
  have hget : (n.rename f).acks[i]? = n.acks[i]?.map f := List.getElem?_map
  have herase : (n.rename f).acks.eraseIdx i = (n.acks.eraseIdx i).map f := List.eraseIdx_map ..
  unfold ackBuilt
  rw [hget]
  cases n.acks[i]? with
  | none => exact Renames.silent rfl
  | some connId =>
      dsimp only [Option.map_some]
      rw [herase]
      cases ack with
      | ok ack => exact Renames.send rfl _ _
      | error err => exact Renames.row rfl _ _

theorem renames_verifyPeerHello (sender : Sender) (body : Option JsVal) (label : HelloLabel) :
    Renames f (n.verifyPeerHello sender body label)
      ((n.rename f).verifyPeerHello (sender.rename f) body label) := by
  cases sender with
  | node nodeId => exact Renames.silent rfl
  | conn connId =>
      unfold verifyPeerHello Sender.rename
      dsimp only
      rw [bridgeCbv_rename]
      split
      · exact Renames.row rfl _ _
      · refine Renames.silent ?_
        simp [rename, Verifying.rename]

theorem renames_completeHandshake (connId : ConnId) (peerNodeId : NodeId) :
    Renames f (n.completeHandshake cfg k connId peerNodeId)
      ((n.rename f).completeHandshake cfg k (f connId) peerNodeId) := by
  have hget : (n.rename f).helloByConnId.get (f connId) = n.helloByConnId.get connId := by
    have hget := JsMap.get_rename (f := f.toEmbedding) (g := id) n.helloByConnId connId
    rwa [Option.map_id_apply] at hget
  have hbind : ({ n.rename f with
      helloByConnId := (n.rename f).helloByConnId.set (f connId) .complete
      transport := (n.rename f).transport.bindPeer peerNodeId (f connId) } : Node) =
      ({ n with
        helloByConnId := n.helloByConnId.set connId .complete
        transport := n.transport.bindPeer peerNodeId connId } : Node).rename f := by
    have hhello := JsMap.set_rename (f := f.toEmbedding) (g := id) n.helloByConnId connId .complete
    have hbound := Transport.bindPeer_rename f n.transport connId peerNodeId
    exact congrArg₂ (fun hello transport => ({ n.rename f with
      helloByConnId := hello, transport := transport } : Node)) hhello hbound
  have hsyn : (n.rename f).synaptome = n.synaptome := rfl
  unfold completeHandshake
  rw [hget]
  split
  · exact Renames.silent rfl
  · dsimp only
    rw [hsyn]
    split
    · exact Renames.row hbind _ _
    · split
      · refine ⟨?_, ?_⟩
        · exact congrArg (fun m : Node => { m with
            synaptome := k.addByVitality n.synaptome
              { peerId := peerNodeId
                latencyMs := 50
                stratum := clz64 (Int.xor cfg.id peerNodeId)
                weight := 1 / 2
                inertia := 0
                addedBy := js "handshake" } }) hbind
        · cases k.admitError with
          | none => exact .cons (.log _ _) .nil
          | some err => exact .cons (.log _ _) (.cons (.log _ _) .nil)
      · refine ⟨hbind, ?_⟩
        cases k.admitError with
        | none => exact .cons (.log _ _) .nil
        | some err => exact .cons (.log _ _) .nil

theorem renames_verified (i : Nat) (res : AuthResult) :
    Renames f (n.verified cfg k i res) ((n.rename f).verified cfg k i res) := by
  have hget : (n.rename f).verifying[i]? = n.verifying[i]?.map (Verifying.rename f) :=
    List.getElem?_map
  have herase : ({ n.rename f with verifying := (n.rename f).verifying.eraseIdx i } : Node) =
      ({ n with verifying := n.verifying.eraseIdx i } : Node).rename f := by
    have h : (n.verifying.map (Verifying.rename f)).eraseIdx i =
        (n.verifying.eraseIdx i).map (Verifying.rename f) := List.eraseIdx_map ..
    exact congrArg (fun verifying => ({ n.rename f with verifying := verifying } : Node)) h
  unfold verified
  rw [hget]
  cases n.verifying[i]? with
  | none => exact Renames.silent rfl
  | some v =>
      dsimp only [Option.map_some]
      cases res with
      | refused reason => exact ⟨herase, .cons (.log _ _) (.cons (.close _ _ _ _) .nil)⟩
      | ok nodeId =>
          dsimp only
          split
          · exact ⟨herase, .cons (.log _ _) (.cons (.close _ _ _ _) .nil)⟩
          · split
            · exact Renames.silent herase
            · rename_i peerNodeId _
              have hdone := @renames_completeHandshake rid f cfg k
                { n with verifying := n.verifying.eraseIdx i } v.connId peerNodeId
              rw [← herase] at hdone
              have hlabel' : (v.rename f).label = v.label := rfl
              rw [hlabel']
              by_cases hlabel : v.label = .hello
              · rw [if_pos hlabel, if_pos hlabel]
                exact hdone.ack v.connId
              · rw [if_neg hlabel, if_neg hlabel]
                exact ⟨hdone.node, hdone.out⟩

/-! ### The kernel's acts -/

section Acts

variable {A : ConnId → Prop} {isConnOpen isConnOpen' : ConnId → Bool}

theorem renames_act (hn : n.Knows A) (hopen : ∀ connId, A connId → isConnOpen' (f connId) = isConnOpen connId)
    (a : KernelAct) : Renames f (n.act isConnOpen a) ((n.rename f).act isConnOpen' a) := by
  cases a with
  | send nodeId type body =>
      have hsend := Transport.send_rename f n.transport nodeId
        (fun connId h => hopen connId (hn.transport.forward nodeId connId h)) false
      unfold act
      dsimp only
      rw [show (n.rename f).transport = n.transport.rename f from rfl, hsend]
      refine ⟨rfl, ?_⟩
      dsimp only
      cases (n.transport.send nodeId isConnOpen false).2 with
      | refused message => exact .nil
      | requested connId id promise => exact .cons (.send _ _) .nil
  | notify nodeId type body =>
      unfold act
      dsimp only
      rw [show (n.rename f).transport = n.transport.rename f from rfl,
        show (n.transport.rename f).started = n.transport.started from rfl,
        Transport.get_connIdByNodeId_rename]
      split
      · exact Renames.silent rfl
      · cases hget : n.transport.connIdByNodeId.get nodeId with
        | none => exact Renames.row rfl _ _
        | some connId =>
            dsimp only [Option.map_some]
            rw [hopen connId (hn.transport.forward nodeId connId hget)]
            by_cases hnil : connId = []
            · rw [if_pos hnil, if_pos (f.eq_nil_iff.mpr hnil)]
              exact Renames.row rfl _ _
            · rw [if_neg hnil, if_neg (mt f.eq_nil_iff.mp hnil)]
              split
              · exact Renames.send rfl _ _
              · exact Renames.row rfl _ _
  | closeConnection nodeId =>
      refine Renames.silent ?_
      exact congrArg (fun transport => ({ n.rename f with transport := transport } : Node))
        (Transport.closeConnection_rename f n.transport nodeId)
  | supersedePeer nodeId =>
      refine Renames.silent ?_
      exact congrArg (fun transport => ({ n.rename f with transport := transport } : Node))
        (Transport.supersedePeer_rename f n.transport nodeId)
  | setSynaptome synaptome => exact Renames.silent rfl

theorem renames_runActs (hopen : ∀ connId, A connId → isConnOpen' (f connId) = isConnOpen connId)
    (as : List KernelAct) (hn : n.Knows A) :
    Renames f (n.runActs isConnOpen as) ((n.rename f).runActs isConnOpen' as) := by
  induction as generalizing n with
  | nil => exact Renames.silent rfl
  | cons a as ih =>
      obtain ⟨hnode, hout⟩ := renames_act hn hopen a
      have hnext : (n.act isConnOpen a).1.Knows A :=
        (@Knows.act { id := 0, epoch := [] } n A hn isConnOpen a).1
      have hrest := ih hnext
      unfold runActs
      dsimp only
      rw [hnode]
      exact ⟨hrest.node, List.rel_append hout hrest.out⟩

end Acts

/-! ### Inbound frames -/

section Frames

variable {A : ConnId → Prop} {isConnOpen isConnOpen' : ConnId → Bool}

theorem renames_handleRequest (hn : n.Knows A) {connId : ConnId} (hA : A connId)
    (hopen : ∀ connId, A connId → isConnOpen' (f connId) = isConnOpen connId) (msg : JsVal) :
    Renames f (n.handleRequest cfg k isConnOpen connId msg)
      ((n.rename f).handleRequest cfg k isConnOpen' (f connId) msg) := by
  have hhandling : ({ n.rename f with
      handling := (n.rename f).handling ++ [(f connId, msg.field (js "id"))] } : Node) =
      ({ n with handling := n.handling ++ [(connId, msg.field (js "id"))] } : Node).rename f := by
    simp only [rename, List.map_append, List.map_cons, List.map_nil]
  have hknows : ({ n with handling := n.handling ++ [(connId, msg.field (js "id"))] } : Node).Knows A :=
    { hn with handling := mem_of_append_singleton hn.handling hA }
  have hacts := renames_runActs hopen k.acts hknows
  rw [← hhandling] at hacts
  unfold handleRequest
  dsimp only
  split
  · split
    · exact hacts
    · exact Renames.silent hhandling
  · split
    · exact Renames.silent rfl
    · exact Renames.send rfl _ _

theorem renames_answered (i : Nat) (ok : Bool) (body : Option JsVal) :
    Renames f (n.answered i ok body) ((n.rename f).answered i ok body) := by
  have hget : (n.rename f).handling[i]? = n.handling[i]?.map fun r => (f r.1, r.2) := List.getElem?_map
  have herase : (n.rename f).handling.eraseIdx i =
      (n.handling.eraseIdx i).map fun r => (f r.1, r.2) := List.eraseIdx_map ..
  unfold answered
  rw [hget]
  cases n.handling[i]? with
  | none => exact Renames.silent rfl
  | some r =>
      obtain ⟨connId, id⟩ := r
      dsimp only [Option.map_some]
      rw [herase]
      exact Renames.send rfl _ _

theorem renames_reinforce (body : Option JsVal) :
    Renames f (n.reinforce k body) ((n.rename f).reinforce k body) := by
  unfold reinforce
  split
  · exact Renames.row rfl _ _
  · exact Renames.silent rfl
  · exact Renames.silent rfl

theorem introduce_rename (name addedBy : JsString) (body : Option JsVal) :
    (n.rename f).introduce cfg k name addedBy body = (n.introduce cfg k name addedBy body).rename f := by
  unfold introduce
  rw [show (n.rename f).synaptome = n.synaptome from rfl]
  split
  · split
    · rfl
    · rfl
  · rfl

theorem renames_handleNotification (hn : n.Knows A)
    (hopen : ∀ connId, A connId → isConnOpen' (f connId) = isConnOpen connId) (sender : Sender)
    (msg : JsVal) :
    Renames f (n.handleNotification cfg k isConnOpen sender msg)
      ((n.rename f).handleNotification cfg k isConnOpen' (sender.rename f) msg) := by
  unfold handleNotification
  dsimp only
  split
  · exact Renames.silent rfl
  · split_ifs
    · have hacts := renames_runActs hopen k.acts hn
      refine ⟨hacts.node, List.rel_append hacts.out ?_⟩
      cases k.handlerError with
      | none => exact .nil
      | some err => exact .cons (.log _ _) .nil
    · exact renames_verifyPeerHello _ _ _
    · exact renames_verifyPeerHello _ _ _
    · exact renames_reinforce _
    · exact Renames.silent (introduce_rename _ _ _)
    · exact Renames.silent (introduce_rename _ _ _)
    · exact Renames.silent rfl

theorem renames_handleAxonaFrame (hn : n.Knows A) {connId : ConnId} (hA : A connId)
    (hopen : ∀ connId, A connId → isConnOpen' (f connId) = isConnOpen connId) (payload : JsVal) :
    Renames f
      ((n.handleAxonaFrame cfg k isConnOpen connId payload).1,
        (n.handleAxonaFrame cfg k isConnOpen connId payload).2.1)
      (((n.rename f).handleAxonaFrame cfg k isConnOpen' (f connId) payload).1,
        ((n.rename f).handleAxonaFrame cfg k isConnOpen' (f connId) payload).2.1) := by
  have htransport : (n.rename f).transport = n.transport.rename f := rfl
  unfold handleAxonaFrame Transport.handleIncoming
  rw [htransport]
  dsimp only
  by_cases hobject : (!payload.isObject) = true
  · simp only [if_pos hobject]
    exact Renames.silent rfl
  · simp only [if_neg hobject]
    by_cases hreq : JsVal.asString (payload.field (js "k")) = some (js "req")
    · simp only [if_pos hreq]
      exact renames_handleRequest hn hA hopen payload
    · simp only [if_neg hreq]
      by_cases hres : JsVal.asString (payload.field (js "k")) = some (js "res")
      · simp only [if_pos hres, Transport.handleResponse_rename]
        exact Renames.silent rfl
      · simp only [if_neg hres]
        by_cases hntf : JsVal.asString (payload.field (js "k")) = some (js "ntf")
        · simp only [if_pos hntf, Transport.senderOf_rename]
          exact renames_handleNotification hn hopen _ payload
        · simp only [if_neg hntf]
          exact Renames.silent rfl

end Frames

/-! ### The close of a socket -/

theorem handleConnClosed_rename (connId : ConnId) :
    (n.rename f).handleConnClosed cfg k (f connId) = (n.handleConnClosed cfg k connId).rename f := by
  have hclosed := Transport.handleConnClosed_rename f n.transport connId
  have hnode : ({ n.rename f with
      helloByConnId := (n.rename f).helloByConnId.delete (f connId)
      serverNonceByConn := (n.rename f).serverNonceByConn.delete (f connId)
      transport := ((n.rename f).transport.handleConnClosed (f connId)).1
      doorChannelBound :=
        if cfg.sb.isSome then (n.rename f).doorChannelBound.filter (· ≠ f connId)
        else (n.rename f).doorChannelBound } : Node) =
      ({ n with
        helloByConnId := n.helloByConnId.delete connId
        serverNonceByConn := n.serverNonceByConn.delete connId
        transport := (n.transport.handleConnClosed connId).1
        doorChannelBound :=
          if cfg.sb.isSome then n.doorChannelBound.filter (· ≠ connId)
          else n.doorChannelBound } : Node).rename f := by
    have hhello : (n.rename f).helloByConnId.delete (f connId) =
        (n.helloByConnId.delete connId).rename f.toEmbedding id := JsMap.delete_rename _ _
    have hnonce : (n.rename f).serverNonceByConn.delete (f connId) =
        (n.serverNonceByConn.delete connId).rename f.toEmbedding id := JsMap.delete_rename _ _
    have htransport : ((n.rename f).transport.handleConnClosed (f connId)).1 =
        (n.transport.handleConnClosed connId).1.rename f := congrArg Prod.fst hclosed
    have hbound : (n.rename f).doorChannelBound.filter (· ≠ f connId) =
        (n.doorChannelBound.filter (· ≠ connId)).map f := by
      rw [show (n.rename f).doorChannelBound = n.doorChannelBound.map f from rfl, List.filter_map]
      congr 1
      refine List.filter_congr fun c _ => ?_
      simp [f.inj]
    rw [hhello, hnonce, htransport, hbound]
    split <;> rfl
  have hdied : ((n.rename f).transport.handleConnClosed (f connId)).2 =
      (n.transport.handleConnClosed connId).2.map (Sender.rename f) := congrArg Prod.snd hclosed
  unfold handleConnClosed
  dsimp only
  rw [hdied]
  refine (congrArg (fun m : Node => m.peerDied cfg k
    ((n.transport.handleConnClosed connId).2.map (Sender.rename f))) hnode).trans ?_
  cases (n.transport.handleConnClosed connId).2 with
  | none => rfl
  | some died =>
      cases died with
      | conn connId => rfl
      | node deadId =>
          unfold peerDied
          dsimp only [Option.map_some, Sender.rename]
          split <;> rfl

end Node

/-! ### The door -/

namespace SocketBootstrap.RecentlyRetired

variable {f} (r : RecentlyRetired) (now : Int)

theorem bound_rename : (r.rename f).bound now = (r.bound now).rename f := by
  have h : (r.rename f).boundScope (r.rename f).conns now =
      (r.boundScope r.conns now).rename f.toEmbedding id := by
    unfold boundScope
    rw [show (r.rename f).conns = r.conns.rename f.toEmbedding id from rfl, JsMap.size_rename]
    split
    · exact JsMap.filter_rename fun e _ => rfl
    · rfl
  unfold bound
  rw [h]
  rfl

theorem markIdentity_rename (idHex : JsString) :
    (r.rename f).markIdentity idHex now = (r.markIdentity idHex now).rename f :=
  bound_rename { r with ids := if idHex = [] then r.ids else r.ids.set idHex now } now

theorem markConn_rename (connId : ConnId) :
    (r.rename f).markConn (f connId) now = (r.markConn connId now).rename f := by
  have hset := JsMap.set_rename (f := f.toEmbedding) (g := id) r.conns connId now
  have h : ({ r.rename f with
      conns := if f connId = [] then (r.rename f).conns else (r.rename f).conns.set (f connId) now } :
        RecentlyRetired) =
      ({ r with conns := if connId = [] then r.conns else r.conns.set connId now } :
        RecentlyRetired).rename f := by
    by_cases hnil : connId = []
    · rw [if_pos hnil, if_pos (f.eq_nil_iff.mpr hnil)]
    · rw [if_neg hnil, if_neg (mt f.eq_nil_iff.mp hnil)]
      exact congrArg (fun conns => ({ r.rename f with conns := conns } : RecentlyRetired)) hset
  unfold markConn
  rw [h]
  exact bound_rename _ now

theorem hasConn_rename (connId : ConnId) :
    (r.rename f).hasConn (f connId) now =
      ((r.hasConn connId now).1, (r.hasConn connId now).2.rename f) := by
  have hlive : (r.rename f).live (r.rename f).conns (f connId) now =
      ((r.live r.conns connId now).1, (r.live r.conns connId now).2.rename f.toEmbedding id) := by
    have hget : (r.rename f).conns.get (f connId) = r.conns.get connId := by
      have hget := JsMap.get_rename (f := f.toEmbedding) (g := id) r.conns connId
      rwa [Option.map_id_apply] at hget
    unfold live
    rw [hget]
    cases r.conns.get connId with
    | none => rfl
    | some at_ =>
        dsimp only
        rw [show (r.rename f).cooldownMs = r.cooldownMs from rfl]
        split
        · rfl
        · exact Prod.ext rfl (JsMap.delete_rename (f := f.toEmbedding) (g := id) r.conns connId)
  unfold hasConn
  rw [hlive]
  rfl

end SocketBootstrap.RecentlyRetired

/-- A token of the door, under the new numbers. -/
def RenamesToken (cfg : NodeConfig) (token token' : JsString) : Prop :=
  cfg.ownDoorKey token' = (cfg.ownDoorKey token).map f

/-- What the bind policy is answered, under the new numbers. -/
structure Node.BindInput.Renames (cfg : NodeConfig) (input input' : Node.BindInput) : Prop where
  preflight : input'.preflight = input.preflight
  openCounted : input'.openCounted = input.openCounted
  victimId : input'.victimId = input.victimId
  victim : input'.victim.map cfg.ownDoorKey = input.victim.map fun key => (cfg.ownDoorKey key).map f

namespace Node

variable {cfg : NodeConfig} {k : Kernel} {n : Node} {f}

theorem renames_deliverDoorSignal (now : Int) (connId : ConnId) (payload : Option JsVal) :
    ((n.rename f).deliverDoorSignal cfg k now (f connId) payload).1 =
        (n.deliverDoorSignal cfg k now connId payload).1 ∧
      Renames f (n.deliverDoorSignal cfg k now connId payload).2
        ((n.rename f).deliverDoorSignal cfg k now (f connId) payload).2 := by
  have hmesh : (n.rename f).mesh = n.mesh := rfl
  have hhit : (n.rename f).sbRetired.hasConn (f connId) now =
      ((n.sbRetired.hasConn connId now).1, (n.sbRetired.hasConn connId now).2.rename f) :=
    SocketBootstrap.RecentlyRetired.hasConn_rename _ _ _
  have hrows : ∀ rows : Option JsString,
      List.Forall₂ (NodeOut.Renames f)
        (rows.map fun err => NodeOut.row (js "door-signal-threw")
          [(js "connId", .str connId), (js "err", .str err)]).toList
        (rows.map fun err => NodeOut.row (js "door-signal-threw")
          [(js "connId", .str (f connId)), (js "err", .str err)]).toList := by
    intro rows
    cases rows with
    | none => exact .nil
    | some err => exact .cons (.log _ _) .nil
  unfold deliverDoorSignal
  rw [hmesh, hhit]
  split
  · exact ⟨rfl, Renames.silent rfl⟩
  · dsimp only
    split
    · split
      · exact ⟨rfl, Renames.row rfl _ _⟩
      · refine ⟨rfl, ?_, hrows _⟩
        simp only [rename, List.map_append, List.map_cons, List.map_nil]
    · split
      · exact ⟨rfl, Renames.row rfl _ _⟩
      · refine ⟨rfl, ?_, hrows _⟩
        simp only [rename, List.map_append, List.map_cons, List.map_nil]

theorem renames_refuseBind {n' : Node} (h : n' = n.rename f) (connId connId' : ConnId)
    (idHex why logged : JsString) (err : Option JsString) (counts : Option (Int × Int)) :
    (n'.refuseBind connId' idHex why logged err counts).1 =
        (n.refuseBind connId idHex why logged err counts).1 ∧
      Renames f (n.refuseBind connId idHex why logged err counts).2
        (n'.refuseBind connId' idHex why logged err counts).2 := by
  unfold refuseBind
  refine ⟨rfl, h, ?_⟩
  cases err with
  | none =>
      cases counts with
      | none => exact .cons (.log _ _) .nil
      | some counts => exact .cons (.log _ _) .nil
  | some err =>
      cases counts with
      | none => exact .cons (.log _ _) .nil
      | some counts => exact .cons (.log _ _) .nil

theorem renames_makeRoom {input input' : BindInput} (hinput : input.Renames f cfg input') (now : Int)
    (connId connId' : ConnId) (idHex : JsString) :
    ((n.rename f).makeRoom cfg now input' connId' idHex).1 = (n.makeRoom cfg now input connId idHex).1 ∧
      Renames f (n.makeRoom cfg now input connId idHex).2
        ((n.rename f).makeRoom cfg now input' connId' idHex).2 := by
  have hbudget : (n.rename f).sbBudget = n.sbBudget := rfl
  have hvictim := hinput.victim
  unfold makeRoom
  rw [hinput.openCounted, hbudget]
  split
  · dsimp only
    split
    · exact renames_refuseBind rfl _ _ _ _ _ _ _
    · cases hv : input.victim with
      | none =>
          have hv' : input'.victim = none := by
            rw [hv] at hvictim
            exact Option.map_eq_none_iff.mp hvictim
          rw [hv']
          exact renames_refuseBind rfl _ _ _ _ _ _ _
      | some victim =>
          rw [hv] at hvictim
          obtain ⟨victim', hv', hkey⟩ := Option.map_eq_some_iff.mp hvictim
          rw [hv', hinput.victimId]
          dsimp only
          rw [hkey]
          refine ⟨rfl, ?_, .cons (.log _ _) .nil⟩
          dsimp only
          have hretired : ∀ {r r' : SocketBootstrap.RecentlyRetired}, r' = r.rename f →
              ({ n.rename f with sbBudget := (n.sbBudget.ok now).2.spend now, sbRetired := r' } : Node) =
                { n with sbBudget := (n.sbBudget.ok now).2.spend now, sbRetired := r }.rename f := by
            rintro r r' rfl
            rfl
          cases input.victimId with
          | none =>
              cases cfg.ownDoorKey victim with
              | none => exact hretired rfl
              | some victimConn =>
                  exact hretired (SocketBootstrap.RecentlyRetired.markConn_rename _ _ _)
          | some id =>
              have hid := SocketBootstrap.RecentlyRetired.markIdentity_rename (f := f) n.sbRetired now
                (idToHex id)
              cases cfg.ownDoorKey victim with
              | none => exact hretired hid
              | some victimConn =>
                  have hconn := SocketBootstrap.RecentlyRetired.markConn_rename (f := f)
                    (n.sbRetired.markIdentity (idToHex id) now) now victimConn
                  rw [← hid] at hconn
                  exact hretired hconn
  · exact ⟨rfl, Renames.silent rfl⟩

theorem renames_bindPolicy {input input' : BindInput} (hinput : input.Renames f cfg input')
    {token token' : JsString} (htoken : RenamesToken f cfg token token') (now : Int) (nodeId : NodeId) :
    Renames f (n.bindPolicy cfg now input nodeId token).2
      ((n.rename f).bindPolicy cfg now input' nodeId token').2 := by
  have hhit : (n.rename f).sbRetired.hasIdentity (idToHex nodeId) now =
      ((n.sbRetired.hasIdentity (idToHex nodeId) now).1,
        (n.sbRetired.hasIdentity (idToHex nodeId) now).2.rename f) := rfl
  unfold RenamesToken at htoken
  unfold bindPolicy
  rw [htoken]
  cases cfg.ownDoorKey token with
  | none => exact Renames.silent rfl
  | some connId =>
      dsimp only [Option.map_some]
      rw [hhit, hinput.preflight]
      split
      · exact (renames_refuseBind rfl _ _ _ _ _ _ _).2
      · split
        · exact (renames_refuseBind rfl _ _ _ _ _ _ _).2
        · exact (renames_refuseBind rfl _ _ _ _ _ _ _).2
        · have hroom := renames_makeRoom (f := f)
            (n := { n with sbRetired := (n.sbRetired.hasIdentity (idToHex nodeId) now).2 })
            hinput now connId (f connId) (idToHex nodeId)
          generalize hr : makeRoom cfg { n with
            sbRetired := (n.sbRetired.hasIdentity (idToHex nodeId) now).2 } now input connId
              (idToHex nodeId) = r at hroom
          generalize hr' : makeRoom cfg (Node.rename f { n with
            sbRetired := (n.sbRetired.hasIdentity (idToHex nodeId) now).2 }) now input' (f connId)
              (idToHex nodeId) = r' at hroom
          obtain ⟨verdict, m, out⟩ := r
          obtain ⟨verdict', m', out'⟩ := r'
          obtain ⟨hverdict, hnode, hout⟩ := hroom
          dsimp only at hverdict hnode hout
          rw [show makeRoom cfg { n.rename f with
            sbRetired := (n.sbRetired.hasIdentity (idToHex nodeId) now).2.rename f } now input' (f connId)
              (idToHex nodeId) = (verdict', m', out') from hr', hverdict]
          cases verdict with
          | bound =>
              refine ⟨?_, List.rel_append hout (.cons (.log _ _) .nil)⟩
              dsimp only
              rw [hnode]
              have hmem : f connId ∈ (m.rename f).doorChannelBound ↔ connId ∈ m.doorChannelBound :=
                List.mem_map_of_injective f.injective
              by_cases hbound : connId ∈ m.doorChannelBound
              · rw [if_pos hbound, if_pos (hmem.mpr hbound)]
              · rw [if_neg hbound, if_neg (mt hmem.mp hbound)]
                simp only [rename, List.map_append, List.map_cons, List.map_nil]
          | pass => exact ⟨hnode, hout⟩
          | refused why => exact ⟨hnode, hout⟩

theorem renames_onRouteToDoor {token token' : JsString} (htoken : RenamesToken f cfg token token')
    (nodeId : NodeId) :
    Renames f (n.onRouteToDoor cfg nodeId token) ((n.rename f).onRouteToDoor cfg nodeId token') := by
  unfold RenamesToken at htoken
  unfold onRouteToDoor
  rw [htoken]
  cases cfg.ownDoorKey token with
  | none => exact Renames.silent rfl
  | some connId =>
      dsimp only [Option.map_some]
      have hmem : f connId ∈ (n.rename f).doorChannelBound ↔ connId ∈ n.doorChannelBound :=
        List.mem_map_of_injective f.injective
      by_cases hbound : connId ∈ n.doorChannelBound
      · rw [if_pos hbound, if_pos (hmem.mpr hbound)]
        exact Renames.silent rfl
      · rw [if_neg hbound, if_neg (mt hmem.mp hbound)]
        refine Renames.row ?_ _ _
        simp only [rename, List.map_append, List.map_cons, List.map_nil]

theorem renames_doorSink (f : Renumbering cfg.reservedId) {isConnOpen isConnOpen' : ConnId → Bool}
    {key key' : JsString} (hkey : RenamesToken f cfg key key')
    (hopen : ∀ connId, cfg.ownDoorKey key = some connId →
      isConnOpen' (f connId) = isConnOpen connId) (payload : JsVal) :
    List.Forall₂ (NodeOut.Renames f) (doorSink cfg isConnOpen key payload)
      (doorSink cfg isConnOpen' key' payload) := by
  unfold RenamesToken at hkey
  unfold doorSink
  rw [hkey]
  cases hconn : cfg.ownDoorKey key with
  | none => exact .nil
  | some connId =>
      dsimp only [Option.map_some]
      rw [hopen connId hconn]
      split
      · have hsignal := NodeOut.Renames.signal (f := f) connId cfg.reservedId payload
        rw [f.eq_reserved_iff.mpr rfl] at hsignal
        exact .cons hsignal .nil
      · exact .cons (.log _ _) .nil

theorem reservedIdFor_rename (kernelVersion peerVersion : Option JsString) :
    (n.rename f).reservedIdFor cfg kernelVersion peerVersion =
      n.reservedIdFor cfg kernelVersion peerVersion := rfl

end Node

end AxonaBridge
