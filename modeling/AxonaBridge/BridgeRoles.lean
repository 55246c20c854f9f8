import AxonaBridge.BridgeLifetime
import AxonaBridge.ServerOpaque

/-!
# Who initiates

A newcomer initiates towards the peers of the list it is admitted with, and each of them is told of the
newcomer before anything the newcomer sends. No two connections are put on each other's lists: the one
that was admitted first was not yet told of the other.
-/

open JsText

namespace AxonaBridge

/-- `ws.send` throws on a socket that is still connecting, and the server is handed open ones. -/
def Io.SendsReturn (io : Io) : Prop := ∀ connId, io.sendError connId = none

/-- A list of peers that a connection is sent, at a time. -/
def Out.isListFor (connId : ConnId) (peers : List ConnId) (serverT : Int) : Out → Bool
  | .frame recipient (.peerList listed _ sentAt) =>
      recipient = connId && listed = peers && sentAt = serverT
  | _ => false

theorem Out.exists_of_isListFor {connId : ConnId} {peers : List ConnId} {serverT : Int} {o : Out}
    (h : o.isListFor connId peers serverT = true) :
    ∃ graduated, o = .frame connId (.peerList peers graduated serverT) := by
  unfold Out.isListFor at h
  split at h
  · rename_i graduated sentAt
    obtain ⟨h, hsentAt⟩ := Bool.and_eq_true_iff.mp h
    obtain ⟨hrecipient, hlisted⟩ := Bool.and_eq_true_iff.mp h
    refine ⟨graduated, ?_⟩
    rw [of_decide_eq_true hrecipient, of_decide_eq_true hlisted, of_decide_eq_true hsentAt]
  · cases h

namespace Server

variable {cfg : Config} {io : Io} {s : Server} {id connId : ConnId} {conn : Conn} {json : JsVal}

theorem emits_withNode_any (r : Node × List NodeOut) :
    Emits (fun _ _ => True) s (s.withNode cfg io r) := by
  refine emits_withNode fun o _ => ?_
  cases o with
  | send connId payload => exact fun _ => trivial
  | signal connId sender payload => exact fun _ => trivial
  | close connId reason => trivial
  | log row => trivial

/-! ### A newcomer is announced -/

theorem sent_announce (hadm : s.IsAdmitted connId) (hne : connId ≠ id) (hsend : io.sendError connId = none) :
    Sent s (s.announce cfg io id conn) connId (.peerJoined id io.now) := by
  have hbefore : Emits (fun _ _ => True) s
      ((s.introduce cfg io id conn.claimedRegion).2.sendPeerList cfg io id conn
        (s.introductions cfg io id conn)).2 :=
    Emits.trans (Emits.of_out_eq (out_introduce _ _)) (emits_sendPeerList fun _ => trivial)
  unfold announce
  dsimp only
  rw [withReserved_introduce]
  refine Sent.then ?_ (emits_withNode_any _)
  refine Sent.then (P := fun _ _ => True) ?_ (emits_logInfo _ _)
  refine Sent.after hbefore (sent_broadcast ?_ (fun heq => hne (Option.some.inj heq)) hsend)
  rw [isAdmitted_iff, admission_sendPeerList, admission_introduce, ← isAdmitted_iff]
  exact hadm

theorem sent_admitConnection (hfull : conn.turnRefreshOnly = false) (hadm : s.IsAdmitted connId)
    (hne : connId ≠ id) (hsend : io.sendError connId = none) :
    Sent s (s.admitConnection cfg io id conn) connId (.peerJoined id io.now) := by
  have hwelcome : Emits (fun _ _ => True) s ((s.modifyConn id fun c =>
      { c with helloTimer := false, admitted := true }).sendTo cfg io id
        (.welcome id io.now cfg.version cfg.kernelVersion io.nonce (makeTurnCredential cfg io))).2 :=
    (emits_modifyConn id _).trans (emits_sendTo fun _ => trivial)
  unfold admitConnection
  dsimp only
  rw [hfull]
  refine Sent.after hwelcome (sent_announce ?_ hne hsend)
  rw [isAdmitted_iff, admission_sendTo, admission, get_modifyConn, if_neg hne]
  exact isAdmitted_iff.mp hadm

/-- An introduction is announced to every admitted connection that can be sent to. -/
theorem Introduces.sent_joined (h : Introduces cfg s id conn json) (hadm : s.IsAdmitted connId)
    (hsend : io.sendError connId = none) :
    Sent s (s.onMessage cfg io id (.text (.ok json))).1 connId (.peerJoined id io.now) := by
  obtain ⟨hpending, json', hdata, hhello, hpass⟩ := h.admits
  cases hdata
  have hno : conn.admitted = false := by
    rw [admission, h.get] at hpending
    exact Option.some.inj hpending
  have hne : connId ≠ id := fun heq => by
    rw [isAdmitted_iff, heq, hpending] at hadm
    cases hadm
  rw [onMessage_hello h.get hno hhello]
  obtain ⟨peerVersion, ns, floor, hgate⟩ := hpass
  unfold onClientHello
  dsimp only
  rw [hgate]
  refine Sent.after (P := fun _ _ => True) (emits_modifyConn id fun _ => { conn with lastSeenAt := io.now }) ?_
  refine Sent.after (P := fun _ _ => True)
    (emits_modifyConn id fun _ => Conn.ofHello { conn with lastSeenAt := io.now } json.revive) ?_
  refine Sent.after (P := fun _ _ => True) (emits_logInfo _ _) (sent_admitConnection h.full ?_ hne hsend)
  rw [isAdmitted_iff, admission_logInfo, admission, get_modifyConn, if_neg hne, get_modifyConn, if_neg hne]
  exact isAdmitted_iff.mp hadm

end Server

namespace Bridge

variable {cfg : Config} {reportBound : Bool}

/-! ### What a run adds -/

theorem everAdmitted_subset_after (b : Bridge) (es : List (Io × Event)) :
    b.everAdmitted ⊆ ((system cfg reportBound).after b es).everAdmitted := by
  induction es generalizing b with
  | nil => exact fun _ h => h
  | cons e es ih =>
      intro connId h
      exact ih (b.step cfg e) (mem_everAdmitted_step.mpr (Or.inl h))

theorem out_after (b : Bridge) (es : List (Io × Event)) :
    ∃ rows, ((system cfg reportBound).after b es).server.out = b.server.out ++ rows := by
  induction es generalizing b with
  | nil => exact ⟨[], (List.append_nil _).symm⟩
  | cons e es ih =>
      obtain ⟨rows, hrows⟩ := ih (b.step cfg e)
      obtain ⟨added, hadded, -⟩ := @says_step cfg b e
      refine ⟨added ++ rows, ?_⟩
      calc ((system cfg reportBound).after b (e :: es)).server.out
          = (b.step cfg e).server.out ++ rows := hrows
        _ = b.server.out ++ (added ++ rows) := by rw [hadded, List.append_assoc]

/-- The list of peers `y` is sent by the step that admits it. -/
def AdmittedWith (cfg : Config) (b : Bridge) (e : Io × Event) (y : ConnId) (peers : List ConnId) : Prop :=
  ¬b.server.IsAdmitted y ∧ ∃ graduated serverT,
    Server.Sent b.server (b.step cfg e).server y (.peerList peers graduated serverT)

/-- `x` is admitted before `y` is, and told of it by the step that admits it. -/
structure AwaitsOffer (cfg : Config) (b : Bridge) (e : Io × Event) (x y : ConnId) : Prop where
  admitted : b.server.IsAdmitted x
  notYet : y ∉ b.everAdmitted
  joined : ∃ serverT, Server.Sent b.server (b.step cfg e).server x (.peerJoined y serverT)

theorem ne_reservedId_of_isSome {b : Bridge} (hb : b.Tracked) {connId : ConnId}
    (h : (b.server.admission connId).isSome = true) : connId ≠ cfg.node.reservedId := by
  obtain ⟨i, -, rfl⟩ := hb.minted connId (Or.inr h)
  exact mintConnId_ne_reservedId i cfg.node.epoch

section AtAdmission

variable {b : Bridge} {e : Io × Event} {y : ConnId} {peers : List ConnId}

/-- The step is a client-hello of `y`, and the list is of those it is introduced to. -/
theorem AdmittedWith.introduces (h : AdmittedWith cfg b e y peers) :
    ∃ conn json, e.2 = .message y (.text (.ok json)) ∧ Server.Introduces cfg b.server y conn json ∧
      peers = (Server.greet e.1 b.server y conn json.revive).introductions cfg e.1 y
        (Server.Conn.ofHello conn json.revive) := by
  obtain ⟨hpending, graduated, serverT, hsent⟩ := h
  obtain ⟨conn, json, hevent, hintro | hrelist⟩ := ((says_step b e).sent hsent).of_peerList
  · exact ⟨conn, json, hevent, hintro⟩
  · exact absurd ⟨conn, hrelist.1.get, hrelist.1.admitted⟩ hpending

theorem AdmittedWith.pending (h : AdmittedWith cfg b e y peers) :
    b.server.admission y = some false := by
  obtain ⟨conn, json, -, hintro, -⟩ := h.introduces
  exact hintro.admits.1

theorem AdmittedWith.not_mem_everAdmitted (h : AdmittedWith cfg b e y peers) (hb : b.Tracked) :
    y ∉ b.everAdmitted := fun hmem => hb.kept y hmem h.pending

theorem AdmittedWith.isAdmitted (h : AdmittedWith cfg b e y peers) (hb : b.Tracked) {x : ConnId}
    (hx : x ∈ peers) (hrid : x ≠ cfg.node.reservedId) : b.server.IsAdmitted x := by
  have hself := @ne_reservedId_of_isSome cfg _ hb _ (by rw [h.pending]; rfl)
  obtain ⟨conn, json, -, -, rfl⟩ := h.introduces
  rcases Server.mem_introductions hx with hmem | heq
  · refine (Server.isAdmitted_greet (Server.isAdmitted_of_mem_introduce hmem)).resolve_left fun heq => ?_
    exact Server.not_mem_introductions_self hself _ (heq ▸ hx)
  · exact absurd heq hrid

theorem AdmittedWith.not_mem_self (h : AdmittedWith cfg b e y peers) (hb : b.Tracked) : y ∉ peers := by
  have hself := @ne_reservedId_of_isSome cfg _ hb _ (by rw [h.pending]; rfl)
  obtain ⟨conn, json, -, -, rfl⟩ := h.introduces
  exact Server.not_mem_introductions_self hself _

theorem AdmittedWith.nodup (h : AdmittedWith cfg b e y peers) (hb : b.Tracked) : peers.Nodup := by
  have hself := @ne_reservedId_of_isSome cfg _ hb _ (by rw [h.pending]; rfl)
  obtain ⟨conn, json, -, -, rfl⟩ := h.introduces
  refine Server.nodup_introductions _ _ fun hadm => ?_
  rcases Server.isAdmitted_greet hadm with heq | hadm
  · exact hself heq.symm
  · exact @ne_reservedId_of_isSome cfg _ hb _ (by rw [Server.isAdmitted_iff.mp hadm]; rfl) rfl

theorem AdmittedWith.awaitsOffer (h : AdmittedWith cfg b e y peers) (hb : b.Tracked) {x : ConnId}
    (hx : x ∈ peers) (hrid : x ≠ cfg.node.reservedId) (hsend : e.1.sendError x = none) :
    AwaitsOffer cfg b e x y := by
  have hadm := h.isAdmitted hb hx hrid
  refine ⟨hadm, h.not_mem_everAdmitted hb, e.1.now, ?_⟩
  obtain ⟨conn, json, hevent, hintro, -⟩ := h.introduces
  have hstep : (b.step cfg e).server = (b.server.onMessage cfg e.1 y (.text (.ok json))).1 :=
    server_step_of_event hevent
  rw [hstep]
  exact hintro.sent_joined hadm hsend

/-- Nothing has been relayed from `y` by the time it is admitted. -/
theorem AdmittedWith.no_signal (h : AdmittedWith cfg b e y peers) (hb : b.Tracked)
    (hspoken : b.Spoken cfg b.looseScope) {x : ConnId} {payload : Option JsVal} :
    .frame x (.signal y payload) ∉ (b.step cfg e).server.out := by
  have hself := @ne_reservedId_of_isSome cfg _ hb _ (by rw [h.pending]; rfl)
  have hsays := @says_step cfg b e
  intro hmem
  rcases hsays.mem hmem with hold | hsaid
  · rcases (hspoken x _ hold).2 with hever | heq
    · exact h.not_mem_everAdmitted hb hever
    · exact hself heq
  · rcases hsaid.of_signal with ⟨json, -, hsignals, -⟩ | heq
    · exact h.1 hsignals.1
    · exact hself heq

end AtAdmission

/-- What stands after rows that are in front of both stands after all of them. -/
theorem mem_front_of_split {rows more o₁ o₂ : List Out} {o : Out} (hsplit : rows ++ more = o₁ ++ o :: o₂)
    (ho : o ∉ rows) : ∀ r ∈ rows, r ∈ o₁ := by
  rcases List.append_eq_append_iff.mp hsplit with ⟨front, rfl, -⟩ | ⟨front, rfl, hfront⟩
  · exact fun r hr => List.mem_append_left _ hr
  · cases front with
    | nil =>
        intro r hr
        rw [List.append_nil] at hr
        exact hr
    | cons r front =>
        injection hfront with heq _
        exact absurd (List.mem_append_right _ (heq ▸ List.mem_cons_self)) ho

/-- **Who initiates.** The list a connection is admitted with names no one twice and not itself. Whoever
it names was admitted before, is told of the newcomer in the same step and before anything the newcomer
signals to it, and was not told of the newcomer by the list it was itself admitted with. -/
theorem initiates_once (cfg : Config) (reportBound : Bool) {es es₁ es₂ : List (Io × Event)} {e : Io × Event}
    {y : ConnId} {peers : List ConnId}
    (hes : (system cfg reportBound).Valid (init cfg reportBound) es) (hsplit : es = es₁ ++ e :: es₂)
    (hsend : e.1.SendsReturn)
    (hlist : AdmittedWith cfg ((system cfg reportBound).after (init cfg reportBound) es₁) e y peers) :
    peers.Nodup ∧ y ∉ peers ∧ ∀ x ∈ peers, x ≠ cfg.node.reservedId →
      AwaitsOffer cfg ((system cfg reportBound).after (init cfg reportBound) es₁) e x y ∧
      (∀ o₁ payload o₂, ((system cfg reportBound).after (init cfg reportBound) es).server.out =
          o₁ ++ .frame x (.signal y payload) :: o₂ → ∃ serverT, .frame x (.peerJoined y serverT) ∈ o₁) ∧
      ∀ fs₁ f fs₂ peers', es = fs₁ ++ f :: fs₂ →
        AdmittedWith cfg ((system cfg reportBound).after (init cfg reportBound) fs₁) f x peers' →
          y ∉ peers' := by
  have hvalid : (system cfg reportBound).Valid (init cfg reportBound) (es₁ ++ e :: es₂) := hsplit ▸ hes
  obtain ⟨hbefore, henabled, hafter⟩ := System.along_append.mp hvalid
  have hb := tracked_of_valid hbefore
  refine ⟨hlist.nodup hb, hlist.not_mem_self hb, fun x hx hrid => ?_⟩
  have hawaits := hlist.awaitsOffer hb hx hrid (hsend x)
  refine ⟨hawaits, fun o₁ payload o₂ hout => ?_, fun fs₁ f fs₂ peers' hsplit' hlist' hmem => ?_⟩
  · obtain ⟨rows, hrows⟩ := @out_after cfg reportBound (Bridge.step cfg ((system cfg reportBound).after (init cfg reportBound) es₁) e) es₂
    rw [hsplit, System.after_append] at hout
    obtain ⟨serverT, added, hadded, hjoined⟩ := hawaits.joined
    refine ⟨serverT, mem_front_of_split (hrows.symm.trans hout) ?_ _ ?_⟩
    · exact hlist.no_signal hb (spoken_of_valid hbefore)
    · rw [hadded]
      exact List.mem_append_right _ hjoined
  · have hvalid' : (system cfg reportBound).Valid (init cfg reportBound) (fs₁ ++ f :: fs₂) := hsplit' ▸ hes
    have hb' := tracked_of_valid (System.along_append.mp hvalid').1
    have hne : y ≠ cfg.node.reservedId :=
      ne_reservedId_of_isSome hb (by rw [hlist.pending]; rfl)
    have hy := hb'.admitted y (hlist'.isAdmitted hb' hmem hne)
    have hx := hb.admitted x hawaits.admitted
    -- whichever of the two steps comes first, the later one admits a connection that was admitted by then
    rcases List.append_eq_append_iff.mp (hsplit.symm.trans hsplit') with ⟨gs, rfl, -⟩ | ⟨gs, rfl, -⟩
    · refine hlist'.not_mem_everAdmitted hb' ?_
      rw [System.after_append]
      exact everAdmitted_subset_after _ gs hx
    · refine hlist.not_mem_everAdmitted hb ?_
      rw [System.after_append]
      exact everAdmitted_subset_after _ gs hy

/-- The second of two connections is admitted with the first on its list. -/
theorem admittedWith_twoAdmitted :
    AdmittedWith Server.plain ((system Server.plain false).after (init Server.plain false)
      (twoAdmitted.take 3)) ({ now := 4 }, .message (js "c2") presentHello) (js "c2") [js "c1"] := by
  have hvalid : (system Server.plain false).Valid (init Server.plain false)
      (twoAdmitted.take 3 ++ twoAdmitted.drop 3) := valid_twoAdmitted
  have hb := tracked_of_valid (System.along_append.mp hvalid).1
  refine ⟨fun hadm => ?_, ?_⟩
  · have hpending : ((system Server.plain false).after (init Server.plain false)
        (twoAdmitted.take 3)).server.admission (js "c2") = some false := by decide +kernel
    rw [Server.isAdmitted_iff, hpending] at hadm
    cases hadm
  · have hlisted : ((system Server.plain false).after (init Server.plain false)
        twoAdmitted).server.out.any (Out.isListFor (js "c2") [js "c1"] 4) = true := by decide +kernel
    have hnone : ((system Server.plain false).after (init Server.plain false)
        (twoAdmitted.take 3)).server.out.any (Out.isListFor (js "c2") [js "c1"] 4) = false := by
      decide +kernel
    obtain ⟨graduated, hsent⟩ := Server.exists_sent_of_any (@says_step Server.plain _
      ({ now := 4 }, .message (js "c2") presentHello)) (fun _ => Out.exists_of_isListFor) hnone hlisted
    exact ⟨graduated, 4, hsent⟩

theorem initiates_once_twoAdmitted :
    AwaitsOffer Server.plain ((system Server.plain false).after (init Server.plain false)
      (twoAdmitted.take 3)) ({ now := 4 }, .message (js "c2") presentHello) (js "c1") (js "c2") :=
  ((@initiates_once Server.plain false twoAdmitted (twoAdmitted.take 3) [] _ (js "c2") [js "c1"]
    valid_twoAdmitted rfl (fun _ => rfl) admittedWith_twoAdmitted).2.2 (js "c1") (List.mem_singleton_self _)
      (by decide +kernel)).1

end Bridge

end AxonaBridge
