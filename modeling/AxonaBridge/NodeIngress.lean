import AxonaBridge.BridgeLifetime
import AxonaBridge.TransportRpc

/-!
# What an unauthenticated socket can change

The frames of a connection without an identity go through the transport's dispatch to the same
handlers as everybody's. Most of them change nothing that outlives the frame. The exceptions are an
answer that names a pending request, a mark on a synapse the node has, the introduction of a peer the
node does not know, and whatever the kernel's own handlers do.
-/

open JsText

namespace AxonaBridge

namespace Node

variable {cfg : NodeConfig} {k : Kernel} {n : Node}

/-- The synaptome, the pending requests and the two binding maps are the same. -/
structure Unchanged (n n' : Node) : Prop where
  synaptome : n'.synaptome = n.synaptome
  pending : n'.transport.pending = n.transport.pending
  forward : n'.transport.connIdByNodeId = n.transport.connIdByNodeId
  reverse : n'.transport.nodeIdByConnId = n.transport.nodeIdByConnId

theorem Unchanged.refl : n.Unchanged n := ⟨rfl, rfl, rfl, rfl⟩

theorem Unchanged.trans {n' n'' : Node} (h : n.Unchanged n') (h' : n'.Unchanged n'') :
    n.Unchanged n'' :=
  ⟨h'.synaptome.trans h.synaptome, h'.pending.trans h.pending, h'.forward.trans h.forward,
    h'.reverse.trans h.reverse⟩

theorem Unchanged.symm {n' : Node} (h : n.Unchanged n') : n'.Unchanged n :=
  ⟨h.synaptome.symm, h.pending.symm, h.forward.symm, h.reverse.symm⟩

/-- The frame is handled by the kernel's own code. -/
def KernelHandles (cfg : NodeConfig) (payload : JsVal) : Prop :=
  ∃ type, JsVal.asString (payload.field (js "type")) = some type ∧
    ((JsVal.asString (payload.field (js "k")) = some (js "req") ∧
        (cfg.kernelRequest type = true ∨ type ∈ delegatedTypes)) ∨
      (JsVal.asString (payload.field (js "k")) = some (js "ntf") ∧ cfg.kernelNotification type = true))

/-- The frame is a notification of a type that the node's own code handles. -/
def Notifies (cfg : NodeConfig) (payload : JsVal) (type : JsString) : Prop :=
  JsVal.asString (payload.field (js "k")) = some (js "ntf") ∧
    JsVal.asString (payload.field (js "type")) = some type ∧ cfg.kernelNotification type = false

/-- An introduction whose id stands in the field `name` changes nothing: the id is `0`, the node knows
it, or the kernel's admission leaves the synaptome as it is. -/
def IntroducesNobody (cfg : NodeConfig) (k : Kernel) (n : Node) (name addedBy : JsString)
    (payload : JsVal) : Prop :=
  ∀ peerId, JsVal.readOpt (payload.field (js "body")) name = some (.bigint peerId) → peerId ≠ 0 →
    n.synaptome.has peerId = false →
      k.addByVitality n.synaptome
        { peerId, latencyMs := 0, stratum := clz64 (Int.xor cfg.id peerId), weight := 1 / 2,
          inertia := k.simEpoch, addedBy } = n.synaptome

/-- The frames that change nothing. -/
structure Harmless (cfg : NodeConfig) (k : Kernel) (isConnOpen : ConnId → Bool) (n : Node)
    (payload : JsVal) : Prop where
  /-- A response names no pending request. -/
  response : JsVal.asString (payload.field (js "k")) = some (js "res") →
    n.transport.pendingFor payload = none
  /-- The kernel's own handler leaves the node alone. -/
  kernel : KernelHandles cfg payload → n.Unchanged (n.runActs isConnOpen k.acts).1
  /-- A mark is put on a synapse the node does not have. -/
  reinforce : Notifies cfg payload (js "reinforce") → ∀ peerId,
    JsVal.readOpt (payload.field (js "body")) (js "synapsePeerId") = some (.bigint peerId) →
      n.synaptome.get peerId = none
  triadic : Notifies cfg payload (js "triadic_introduce") →
    IntroducesNobody cfg k n (js "peerId") (js "triadic") payload
  hopCache : Notifies cfg payload (js "hop_cache") →
    IntroducesNobody cfg k n (js "target") (js "hopCache") payload

/-! ### Requests -/

/-- What the kernel does is independent of the requests being handled. -/
theorem act_handling (isConnOpen : ConnId → Bool) (a : KernelAct)
    (handling : List (ConnId × Option JsVal)) :
    ({ n with handling } : Node).act isConnOpen a =
      ({ (n.act isConnOpen a).1 with handling }, (n.act isConnOpen a).2) := by
  cases a with
  | notify nodeId type body =>
      unfold act
      dsimp only
      split
      · rfl
      · split
        · rfl
        · split
          · rfl
          · split <;> rfl
  | _ => rfl

theorem runActs_handling (isConnOpen : ConnId → Bool) (as : List KernelAct)
    (handling : List (ConnId × Option JsVal)) :
    ({ n with handling } : Node).runActs isConnOpen as =
      ({ (n.runActs isConnOpen as).1 with handling }, (n.runActs isConnOpen as).2) := by
  induction as generalizing n with
  | nil => rfl
  | cons a as ih =>
      simp only [runActs, act_handling, ih]

theorem unchanged_handling {n' : Node} {handling : List (ConnId × Option JsVal)} :
    n.Unchanged { n' with handling } ↔ n.Unchanged n' :=
  ⟨fun h => ⟨h.synaptome, h.pending, h.forward, h.reverse⟩,
    fun h => ⟨h.synaptome, h.pending, h.forward, h.reverse⟩⟩

theorem unchanged_handleRequest_iff {isConnOpen : ConnId → Bool} {connId : ConnId} {msg : JsVal} :
    n.Unchanged (n.handleRequest cfg k isConnOpen connId msg).1 ↔
      ∀ type, JsVal.asString (msg.field (js "type")) = some type →
        cfg.kernelRequest type = true ∨ type ∈ delegatedTypes →
          n.Unchanged (n.runActs isConnOpen k.acts).1 := by
  have hdelegated : ∀ type ∈ delegatedTypes, type ∈ requestTypes := by decide
  have hsame : ∀ m : Node, m = { n with handling := m.handling } → n.Unchanged m := by
    intro m hm
    rw [hm]
    exact ⟨rfl, rfl, rfl, rfl⟩
  unfold handleRequest
  dsimp only
  cases htype : JsVal.asString (msg.field (js "type")) with
  | none =>
      dsimp only
      refine iff_of_true ?_ fun type h => by cases h
      split <;> exact Unchanged.refl
  | some type =>
      dsimp only
      by_cases hkernel : cfg.kernelRequest type = true ∨ type ∈ delegatedTypes
      · have hhandled : cfg.kernelRequest type = true ∨ type ∈ requestTypes :=
          hkernel.imp_right (hdelegated type)
        simp only [hhandled, if_true, hkernel, runActs_handling, unchanged_handling]
        constructor
        · intro h type' _ _
          exact h
        · exact fun h => h type rfl hkernel
      · refine iff_of_true ?_ fun type' heq h => ?_
        · by_cases hhandled : cfg.kernelRequest type = true ∨ type ∈ requestTypes
          · simp only [if_pos hhandled, if_neg hkernel]
            exact ⟨rfl, rfl, rfl, rfl⟩
          · simp only [if_neg hhandled]
            split <;> exact Unchanged.refl
        · cases heq
          exact absurd h hkernel

/-! ### Notifications -/

theorem unchanged_reinforce_iff {body : Option JsVal} :
    n.Unchanged (n.reinforce k body).1 ↔
      ∀ peerId, JsVal.readOpt body (js "synapsePeerId") = some (.bigint peerId) →
        n.synaptome.get peerId = none := by
  have hread : ∀ peerId, JsVal.read body (js "synapsePeerId") = .ok (some (.bigint peerId)) ↔
      JsVal.readOpt body (js "synapsePeerId") = some (.bigint peerId) := by
    intro peerId
    cases body with
    | none => simp [JsVal.read, JsVal.readOpt]
    | some v =>
        rcases @Server.read_some v (js "synapsePeerId") with ⟨hnull, h⟩ | h
        · rw [h, hnull]
          simp [JsVal.readOpt, JsVal.field]
        · rw [h]
          simp [JsVal.readOpt]
  unfold reinforce
  split
  · rename_i e he
    refine iff_of_true Unchanged.refl fun peerId hpeer => ?_
    rw [← hread, he] at hpeer
    cases hpeer
  · rename_i peerId hpeer
    constructor
    · intro h peerId' hpeer'
      rw [← hread, hpeer] at hpeer'
      cases hpeer'
      by_contra hknown
      obtain ⟨syn, hsyn⟩ := Option.ne_none_iff_exists'.mp hknown
      -- the use count goes up by one
      have hmark := congrArg (fun m => m.get peerId) h.synaptome
      simp only [JsMap.get_modify, if_true, hsyn, Option.map_some, Option.some.injEq] at hmark
      have huse := congrArg Synapse.useCount hmark
      cases hcount : syn.useCount with
      | none => simp [hcount] at huse
      | some count => simp [hcount] at huse
    · intro h
      have hnone := h peerId ((hread peerId).mp hpeer)
      refine ⟨?_, rfl, rfl, rfl⟩
      exact JsMap.modify_eq_self hnone
  · rename_i v hnot hv
    refine iff_of_true Unchanged.refl fun peerId hpeer => ?_
    rw [← hread] at hpeer
    rw [hv] at hpeer
    cases hpeer
    exact (hnot peerId rfl).elim

theorem unchanged_introduce_iff {name addedBy : JsString} {payload : JsVal} :
    n.Unchanged (n.introduce cfg k name addedBy (payload.field (js "body"))) ↔
      IntroducesNobody cfg k n name addedBy payload := by
  unfold introduce IntroducesNobody
  split
  · rename_i peerId hpeer
    split
    · rename_i hknown
      refine iff_of_true Unchanged.refl fun peerId' hpeer' hne hnew => ?_
      rw [hpeer] at hpeer'
      cases hpeer'
      rcases hknown with hzero | hhas
      · exact absurd hzero hne
      · rw [hnew] at hhas
        cases hhas
    · rename_i hunknown
      rw [not_or, Bool.not_eq_true] at hunknown
      constructor
      · intro h peerId' hpeer' _ _
        rw [hpeer] at hpeer'
        cases hpeer'
        exact h.synaptome
      · exact fun h => ⟨h peerId hpeer hunknown.1 hunknown.2, rfl, rfl, rfl⟩
  · rename_i hnot
    exact iff_of_true Unchanged.refl fun peerId hpeer => absurd hpeer (hnot peerId)

theorem unchanged_verifyPeerHello (sender : Sender) (body : Option JsVal) (label : HelloLabel) :
    n.Unchanged (n.verifyPeerHello sender body label).1 := by
  cases sender with
  | node nodeId => exact Unchanged.refl
  | conn connId =>
      unfold verifyPeerHello
      dsimp only
      split
      · exact Unchanged.refl
      · exact ⟨rfl, rfl, rfl, rfl⟩

theorem kernelHandles_notification_iff {payload : JsVal} {type : JsString}
    (hkind : JsVal.asString (payload.field (js "k")) = some (js "ntf"))
    (htype : JsVal.asString (payload.field (js "type")) = some type) :
    KernelHandles cfg payload ↔ cfg.kernelNotification type = true := by
  constructor
  · intro h
    obtain ⟨type', htype', hreq | hntf⟩ := h
    · exact absurd (hkind.symm.trans hreq.1) (by decide)
    · rw [htype] at htype'
      cases htype'
      exact hntf.2
  · exact fun h => ⟨type, htype, Or.inr ⟨hkind, h⟩⟩

theorem notifies_iff {payload : JsVal} {type : JsString}
    (hkind : JsVal.asString (payload.field (js "k")) = some (js "ntf"))
    (htype : JsVal.asString (payload.field (js "type")) = some type) (name : JsString) :
    Notifies cfg payload name ↔ type = name ∧ cfg.kernelNotification name = false := by
  unfold Notifies
  rw [htype, Option.some.injEq]
  exact ⟨fun h => h.2, fun h => ⟨hkind, h⟩⟩

theorem unchanged_handleNotification_iff {isConnOpen : ConnId → Bool} {sender : Sender}
    {payload : JsVal} (hkind : JsVal.asString (payload.field (js "k")) = some (js "ntf")) :
    n.Unchanged (n.handleNotification cfg k isConnOpen sender payload).1 ↔
      (KernelHandles cfg payload → n.Unchanged (n.runActs isConnOpen k.acts).1) ∧
      (Notifies cfg payload (js "reinforce") → ∀ peerId,
        JsVal.readOpt (payload.field (js "body")) (js "synapsePeerId") = some (.bigint peerId) →
          n.synaptome.get peerId = none) ∧
      (Notifies cfg payload (js "triadic_introduce") →
        IntroducesNobody cfg k n (js "peerId") (js "triadic") payload) ∧
      (Notifies cfg payload (js "hop_cache") →
        IntroducesNobody cfg k n (js "target") (js "hopCache") payload) := by
  unfold handleNotification
  dsimp only
  cases htype : JsVal.asString (payload.field (js "type")) with
  | none =>
      have hnone : ∀ name, ¬Notifies cfg payload name := fun name h => by
        rw [h.2.1] at htype
        cases htype
      refine iff_of_true Unchanged.refl ⟨fun h => ?_, fun h => absurd h (hnone _),
        fun h => absurd h (hnone _), fun h => absurd h (hnone _)⟩
      obtain ⟨type, htype', -⟩ := h
      rw [htype'] at htype
      cases htype
  | some type =>
      rw [kernelHandles_notification_iff hkind htype, notifies_iff hkind htype, notifies_iff hkind htype,
        notifies_iff hkind htype]
      dsimp only
      split_ifs with hk hhello hack hreinforce htriadic hhop
      · have hno : ∀ name, ¬(type = name ∧ cfg.kernelNotification name = false) := fun name h => by
          rw [h.1, h.2] at hk
          cases hk
        exact ⟨fun h => ⟨fun _ => h, fun h' => absurd h' (hno _), fun h' => absurd h' (hno _),
          fun h' => absurd h' (hno _)⟩, fun h => h.1 hk⟩
      · refine iff_of_true (unchanged_verifyPeerHello _ _ _) ⟨fun h => absurd h hk, ?_, ?_, ?_⟩ <;>
        · rw [hhello]
          exact fun h => absurd h.1 (by decide)
      · refine iff_of_true (unchanged_verifyPeerHello _ _ _) ⟨fun h => absurd h hk, ?_, ?_, ?_⟩ <;>
        · rw [hack]
          exact fun h => absurd h.1 (by decide)
      · rw [unchanged_reinforce_iff]
        refine ⟨fun h => ⟨fun h' => absurd h' hk, fun _ => h, ?_, ?_⟩, fun h => h.2.1 ⟨hreinforce, ?_⟩⟩
        · rw [hreinforce]
          exact fun h' => absurd h'.1 (by decide)
        · rw [hreinforce]
          exact fun h' => absurd h'.1 (by decide)
        · rw [← hreinforce]
          exact Bool.eq_false_iff.mpr hk
      · rw [triadicIntroduce, unchanged_introduce_iff]
        refine ⟨fun h => ⟨fun h' => absurd h' hk, ?_, fun _ => h, ?_⟩, fun h => h.2.2.1 ⟨htriadic, ?_⟩⟩
        · rw [htriadic]
          exact fun h' => absurd h'.1 (by decide)
        · rw [htriadic]
          exact fun h' => absurd h'.1 (by decide)
        · rw [← htriadic]
          exact Bool.eq_false_iff.mpr hk
      · rw [Node.hopCache, unchanged_introduce_iff]
        refine ⟨fun h => ⟨fun h' => absurd h' hk, ?_, ?_, fun _ => h⟩, fun h => h.2.2.2 ⟨hhop, ?_⟩⟩
        · rw [hhop]
          exact fun h' => absurd h'.1 (by decide)
        · rw [hhop]
          exact fun h' => absurd h'.1 (by decide)
        · rw [← hhop]
          exact Bool.eq_false_iff.mpr hk
      · exact iff_of_true Unchanged.refl ⟨fun h => absurd h hk, fun h => absurd h.1 hreinforce,
          fun h => absurd h.1 htriadic, fun h => absurd h.1 hhop⟩

/-! ### Frames -/

theorem unchanged_handleResponse_iff {msg : JsVal} :
    n.Unchanged { n with transport := (n.transport.handleResponse msg).1 } ↔
      n.transport.pendingFor msg = none := by
  cases hpending : n.transport.pendingFor msg with
  | none =>
      refine iff_of_true ?_ rfl
      simp only [Transport.handleResponse, hpending]
      exact Unchanged.refl
  | some p =>
      obtain ⟨id, p⟩ := p
      refine iff_of_false (fun h => ?_) (by simp)
      have hget := Transport.pendingFor_eq_some hpending
      have hgone : (n.transport.handleResponse msg).1.pending.get id = none :=
        Transport.get_handleResponse_of_pendingFor hpending
      rw [h.pending, hget] at hgone
      cases hgone

/-- Which frames change nothing. -/
theorem unchanged_handleAxonaFrame_iff {isConnOpen : ConnId → Bool} {connId : ConnId}
    {payload : JsVal} (hobject : payload.isObject = true) :
    n.Unchanged (n.handleAxonaFrame cfg k isConnOpen connId payload).1 ↔
      n.Harmless cfg k isConnOpen payload := by
  unfold handleAxonaFrame Transport.handleIncoming
  rw [hobject]
  dsimp only
  rw [if_neg (by decide)]
  by_cases hreq : JsVal.asString (payload.field (js "k")) = some (js "req")
  · rw [if_pos hreq]
    dsimp only
    rw [unchanged_handleRequest_iff]
    have hno : ∀ type, ¬Notifies cfg payload type := fun type h =>
      absurd (hreq.symm.trans h.1) (by decide)
    constructor
    · intro h
      refine ⟨fun h' => absurd (hreq.symm.trans h') (by decide), fun h' => ?_, fun h' => absurd h' (hno _),
        fun h' => absurd h' (hno _), fun h' => absurd h' (hno _)⟩
      obtain ⟨type, htype, hk | hk⟩ := h'
      · exact h type htype hk.2
      · exact absurd (hreq.symm.trans hk.1) (by decide)
    · exact fun h type htype hk => h.kernel ⟨type, htype, Or.inl ⟨hreq, hk⟩⟩
  · rw [if_neg hreq]
    by_cases hres : JsVal.asString (payload.field (js "k")) = some (js "res")
    · rw [if_pos hres]
      dsimp only
      rw [unchanged_handleResponse_iff]
      have hno : ∀ type, ¬Notifies cfg payload type := fun type h =>
        absurd (hres.symm.trans h.1) (by decide)
      constructor
      · intro h
        refine ⟨fun _ => h, fun h' => ?_, fun h' => absurd h' (hno _), fun h' => absurd h' (hno _),
          fun h' => absurd h' (hno _)⟩
        obtain ⟨type, -, hk | hk⟩ := h'
        · exact absurd hk.1 hreq
        · exact absurd (hres.symm.trans hk.1) (by decide)
      · exact fun h => h.response hres
    · rw [if_neg hres]
      by_cases hntf : JsVal.asString (payload.field (js "k")) = some (js "ntf")
      · rw [if_pos hntf]
        dsimp only
        rw [unchanged_handleNotification_iff hntf]
        exact ⟨fun h => ⟨fun h' => absurd h' hres, h.1, h.2.1, h.2.2.1, h.2.2.2⟩,
          fun h => ⟨h.kernel, h.reinforce, h.triadic, h.hopCache⟩⟩
      · rw [if_neg hntf]
        dsimp only
        have hno : ∀ type, ¬Notifies cfg payload type := fun type h => hntf h.1
        refine iff_of_true Unchanged.refl ⟨fun h' => absurd h' hres, fun h' => ?_,
          fun h' => absurd h' (hno _), fun h' => absurd h' (hno _), fun h' => absurd h' (hno _)⟩
        obtain ⟨type, -, hk | hk⟩ := h'
        · exact absurd hk.1 hreq
        · exact absurd hk.1 hntf

/-- A verification that proves no identity changes nothing. -/
theorem unchanged_verified {i : Nat} {res : AuthResult} (h : n.proven cfg i res = none) :
    n.Unchanged (n.verified cfg k i res).1 := by
  unfold verified
  unfold proven at h
  cases hv : n.verifying[i]? with
  | none => exact Unchanged.refl
  | some v =>
      cases res with
      | refused reason => exact ⟨rfl, rfl, rfl, rfl⟩
      | ok nodeId =>
          rw [hv] at h
          dsimp only at h ⊢
          by_cases hadmits : cfg.admits nodeId = true
          · rw [if_pos hadmits] at h
            cases hhex : hexValue nodeId with
            | none =>
                rw [hadmits]
                exact ⟨rfl, rfl, rfl, rfl⟩
            | some peerNodeId =>
                rw [hhex] at h
                cases h
          · rw [Bool.eq_false_iff.mpr hadmits]
            exact ⟨rfl, rfl, rfl, rfl⟩

end Node

namespace Server

variable {cfg : Config} {io : Io} {s : Server} {id : ConnId}

/-- The data is a frame of the transport. -/
def IsAxona (data : Inbound) : Prop :=
  ∃ json, data = .text (.ok json) ∧
    JsVal.asString (json.revive.field (js "type")) = some (js "axona")

/-- A frame of the transport on an admitted connection goes to the node, where it has an object in
it. -/
theorem node_onMessage_axona {data : Inbound} (hid : s.IsAdmitted id) (haxona : IsAxona data) :
    (∃ payload, Carries data payload ∧ (s.onMessage cfg io id data).1.node =
        (s.node.handleAxonaFrame cfg.node io.kernel s.isConnOpen id payload).1) ∨
      ((¬∃ payload, Carries data payload) ∧ (s.onMessage cfg io id data).1.node = s.node) := by
  obtain ⟨conn, hget, hadm⟩ := hid
  obtain ⟨json, rfl, htype⟩ := haxona
  have hopen : (s.modifyConn id fun _ => { conn with lastSeenAt := io.now }).isConnOpen =
      s.isConnOpen := by
    funext connId
    exact JsMap.has_modify _ _ _ _
  have hread : JsVal.read (some json.revive) (js "type") = .ok (json.revive.field (js "type")) := by
    rcases @read_some json.revive (js "type") with ⟨hnull, -⟩ | hread
    · rw [hnull] at htype
      cases htype
    · exact hread
  have hframe : s.onMessage cfg io id (.text (.ok json)) =
      (s.modifyConn id fun _ => { conn with lastSeenAt := io.now }).onAxona cfg io id json.revive := by
    unfold onMessage
    rw [hget]
    dsimp only
    rw [hread]
    dsimp only
    rw [if_pos hadm]
    unfold onFrame
    dsimp only
    rw [htype, if_neg (by decide), if_neg (by decide), if_neg (by decide), if_pos rfl]
  rw [hframe]
  unfold onAxona
  cases hpayload : json.revive.field (js "payload") with
  | none =>
      refine Or.inr ⟨fun ⟨payload, hcarries⟩ => ?_, rfl⟩
      obtain ⟨json', heq, -, hpayload', -⟩ := hcarries
      cases heq
      cases hpayload.symm.trans hpayload'
  | some payload =>
      dsimp only
      split
      · rename_i hobject
        refine Or.inl ⟨payload, ⟨json, rfl, htype, hpayload, hobject⟩, ?_⟩
        rw [node_withNode, hopen]
        rfl
      · rename_i hobject
        refine Or.inr ⟨fun ⟨payload', hcarries⟩ => ?_, rfl⟩
        obtain ⟨json', heq, -, hpayload', hobject'⟩ := hcarries
        cases heq
        cases hpayload.symm.trans hpayload'
        exact hobject hobject'

theorem Carries.unique {data : Inbound} {payload payload' : JsVal} (h : Carries data payload)
    (h' : Carries data payload') : payload = payload' := by
  obtain ⟨json, rfl, -, hpayload, -⟩ := h
  obtain ⟨json', heq, -, hpayload', -⟩ := h'
  cases heq
  exact Option.some.inj (hpayload.symm.trans hpayload')

end Server

namespace Bridge

variable {cfg : Config}

/-- Past the version gate, and without an identity. -/
structure Unauthenticated (b : Bridge) (connId : ConnId) : Prop where
  admitted : b.server.IsAdmitted connId
  unbound : b.server.node.transport.nodeIdByConnId.get connId = none

/-- A frame of the transport on the connection, or the completion of a verification that was called
for one of them and proves no identity. -/
def FromUnverified (cfg : Config) (connId : ConnId) (b : Bridge) (e : Io × Event) : Prop :=
  (∃ data, e.2 = .message connId data ∧ Server.IsAxona data) ∨
    ∃ i res v, e.2 = .verified i res ∧ b.server.node.verifying[i]? = some v ∧ v.connId = connId ∧
      b.server.node.proven cfg.node i res = none

/-- The frame that arrives, if one does, is one of those that change nothing. -/
def HarmlessStep (cfg : Config) (b : Bridge) (e : Io × Event) : Prop :=
  ∀ connId data payload, e.2 = .message connId data → Server.Carries data payload →
    b.server.node.Harmless cfg.node e.1.kernel b.server.isConnOpen payload

theorem unchanged_step_iff {b : Bridge} {connId : ConnId} (hid : b.server.IsAdmitted connId)
    {e : Io × Event} (he : b.FromUnverified cfg connId e) :
    b.server.node.Unchanged (b.step cfg e).server.node ↔ b.HarmlessStep cfg e := by
  unfold step
  rcases he with ⟨data, he, haxona⟩ | ⟨i, res, v, he, -, -, hproven⟩
  · rw [he]
    dsimp only [Server.step]
    rcases @Server.node_onMessage_axona cfg e.1 b.server connId data hid haxona with
      ⟨payload, hcarries, hnode⟩ | ⟨hnone, hnode⟩
    · rw [hnode]
      obtain ⟨-, -, -, -, hobject⟩ := id hcarries
      rw [Node.unchanged_handleAxonaFrame_iff hobject]
      constructor
      · intro h connId' data' payload' he' hcarries'
        rw [he] at he'
        cases he'
        rw [hcarries'.unique hcarries]
        exact h
      · exact fun h => h connId data payload he hcarries
    · rw [hnode]
      refine iff_of_true Node.Unchanged.refl fun connId' data' payload' he' hcarries' => ?_
      rw [he] at he'
      cases he'
      exact absurd ⟨payload', hcarries'⟩ hnone
  · rw [he]
    dsimp only [Server.step]
    rw [Server.node_withNode]
    refine iff_of_true (Node.unchanged_verified hproven) fun connId' data' payload' he' => ?_
    rw [he] at he'
    cases he'

/-- The connection stays admitted as long as it only sends frames of the transport. -/
theorem isAdmitted_step {b : Bridge} {connId : ConnId} (hid : b.server.IsAdmitted connId)
    {e : Io × Event} (he : b.FromUnverified cfg connId e) :
    (b.step cfg e).server.IsAdmitted connId := by
  refine Server.isAdmitted_step hid (fun hconnect => ?_) fun code reason hclosed => ?_
  · rcases he with ⟨data, he, -⟩ | ⟨i, res, v, he, -⟩
    · cases he.symm.trans hconnect
    · cases he.symm.trans hconnect
  · rcases he with ⟨data, he, -⟩ | ⟨i, res, v, he, -⟩
    · cases he.symm.trans hclosed
    · cases he.symm.trans hclosed

/-- **Unauthenticated frames.** From any state, a sequence of frames of a connection without an
identity, and of verifications of its hellos that prove none, leaves the node as it was throughout
exactly when every frame of it is harmless. -/
theorem unchanged_along_iff (reportBound : Bool) (b : Bridge) (connId : ConnId)
    (es : List (Io × Event)) (hid : b.Unauthenticated connId)
    (hes : (system cfg reportBound).Along (FromUnverified cfg connId) b es) :
    (∀ es₁ es₂, es = es₁ ++ es₂ →
      b.server.node.Unchanged ((system cfg reportBound).after b es₁).server.node) ↔
        (system cfg reportBound).Along (HarmlessStep cfg) b es := by
  have hadm := hid.admitted
  clear hid
  induction es generalizing b with
  | nil =>
      refine iff_of_true (fun es₁ es₂ hsplit => ?_) trivial
      rw [(List.append_eq_nil_iff.mp hsplit.symm).1]
      exact Node.Unchanged.refl
  | cons e es ih =>
      have hstep := unchanged_step_iff hadm hes.1
      have hrest := ih (b.step cfg e) hes.2 (isAdmitted_step hadm hes.1)
      rw [System.along_cons, ← hstep]
      constructor
      · intro h
        have hfirst : b.server.node.Unchanged (b.step cfg e).server.node := h [e] es rfl
        refine ⟨hfirst, hrest.mp fun es₁ es₂ hsplit => ?_⟩
        exact hfirst.symm.trans (h (e :: es₁) es₂ (by rw [hsplit, List.cons_append]))
      · rintro ⟨hfirst, hothers⟩ es₁ es₂ hsplit
        cases es₁ with
        | nil => exact Node.Unchanged.refl
        | cons e' es₁ =>
            obtain ⟨rfl, hsplit'⟩ := List.cons.inj hsplit
            exact hfirst.trans (hrest.mpr hothers es₁ es₂ hsplit')

/-- A connection opens and is admitted. -/
def admittedOnly : List (Io × Event) :=
  [({}, .connect (js "c1")), ({}, .message (js "c1") presentHello)]

theorem unauthenticated_admittedOnly :
    ((system Server.plain false).after (init Server.plain false) admittedOnly).Unauthenticated
      (js "c1") := by
  refine ⟨Server.isAdmitted_iff.mpr ?_, ?_⟩
  · decide +kernel
  · decide +kernel

/-- A mark on a synapse the node does not have. -/
def marksUnknown : List (Io × Event) :=
  [({}, .message (js "c1") (axonaMessage (notification (js "reinforce")
    (.obj [(js "synapsePeerId", .str (js "9n"))]))))]

theorem unchanged_along_marksUnknown :
    (∀ es₁ es₂, marksUnknown = es₁ ++ es₂ →
      ((system Server.plain false).after (init Server.plain false)
          admittedOnly).server.node.Unchanged
        ((system Server.plain false).after ((system Server.plain false).after
          (init Server.plain false) admittedOnly) es₁).server.node) ↔
      (system Server.plain false).Along (HarmlessStep Server.plain)
        ((system Server.plain false).after (init Server.plain false) admittedOnly) marksUnknown :=
  unchanged_along_iff false _ (js "c1") marksUnknown unauthenticated_admittedOnly
    ⟨Or.inl ⟨_, rfl, _, rfl, by decide +kernel⟩, trivial⟩

/-- A socket that has proven nothing introduces a peer. -/
def introducesPeer : List (Io × Event) :=
  [({}, .message (js "c1") (axonaMessage (notification (js "triadic_introduce")
    (.obj [(js "peerId", .str (js "9n"))]))))]

theorem not_unchanged_introducesPeer :
    (system Server.plain false).Valid (init Server.plain false) (admittedOnly ++ introducesPeer) ∧
      ((system Server.plain false).after (init Server.plain false) admittedOnly).Unauthenticated
        (js "c1") ∧
      (system Server.plain false).Along (FromUnverified Server.plain (js "c1"))
        ((system Server.plain false).after (init Server.plain false) admittedOnly) introducesPeer ∧
      ¬((system Server.plain false).after (init Server.plain false)
          admittedOnly).server.node.Unchanged
        ((system Server.plain false).after (init Server.plain false)
          (admittedOnly ++ introducesPeer)).server.node := by
  refine ⟨⟨?_, ?_, ?_, trivial⟩, unauthenticated_admittedOnly,
    ⟨Or.inl ⟨_, rfl, _, rfl, by decide +kernel⟩, trivial⟩, fun h => ?_⟩
  · change js "c1" = mintConnId 1
    decide +kernel
  · change JsMap.has _ _ = true
    decide +kernel
  · change JsMap.has _ _ = true
    decide +kernel
  · have hhas := congrArg (fun synaptome : JsMap NodeId Synapse => synaptome.has 9) h.synaptome
    revert hhas
    decide +kernel

end Bridge

end AxonaBridge
