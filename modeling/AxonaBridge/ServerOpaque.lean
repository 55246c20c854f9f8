import AxonaBridge.BridgeAdmission
import AxonaBridge.ServerRecord
import AxonaBridge.WireCodec

/-!
# Opaque values

What a client puts into the payload of a signal or into the `t` of a ping is decoded by the reviver
and encoded again: by the replacer for a relay, without it for a pong.
-/

open JsText

namespace AxonaBridge

/-- The object a relayed signal is the text of. -/
def signalMessage (sender : ConnId) (payload : Option JsVal) : JsVal :=
  .obj ([(js "type", .str (js "signal")), (js "from", .str sender)] ++
    payload.toList.map fun payload => (js "payload", payload))

/-- The object a pong is the text of. -/
def pongMessage (t : Option JsVal) (serverT : Int) : JsVal :=
  .obj ([(js "type", .str (js "pong"))] ++ (t.toList.map fun t => (js "t", t)) ++
    [(js "serverT", .num (.ofInt serverT))])

theorem field_payload_replace (sender : ConnId) (payload : JsVal) :
    (signalMessage sender (some payload)).replace.field (js "payload") = some payload.replace := by
  rfl

theorem field_t_replace (t : JsVal) (serverT : Int) :
    (pongMessage (some t) serverT).replace.field (js "t") = some t.replace := by
  rfl

/-- A signal frame from one connection to another. -/
def Out.isSignal (sender connId : ConnId) : Out → Bool
  | .frame recipient (.signal id _) => recipient = connId && id = sender
  | _ => false

theorem Out.exists_of_isSignal {sender connId : ConnId} {o : Out} (h : o.isSignal sender connId = true) :
    ∃ payload, o = .frame connId (.signal sender payload) := by
  unfold Out.isSignal at h
  split at h
  · rename_i payload
    obtain ⟨hrecipient, hsender⟩ := Bool.and_eq_true_iff.mp h
    exact ⟨payload, by rw [of_decide_eq_true hrecipient, of_decide_eq_true hsender]⟩
  · cases h

def Out.isPong : Out → Bool
  | .frame _ (.pong ..) => true
  | _ => false

namespace Server

variable {cfg : Config} {io : Io} {s : Server}

theorem onMessage_of_receives {id : ConnId} {conn : Conn} {json : JsVal} {type : JsString}
    (h : Receives s id conn json type) :
    (s.onMessage cfg io id (.text (.ok json))).1 =
      ((s.modifyConn id fun _ => { conn with lastSeenAt := io.now }).onFrame cfg io id
        { conn with lastSeenAt := io.now } json.revive).1 := by
  unfold onMessage
  rw [h.get]
  dsimp only
  rcases @read_some json.revive (js "type") with ⟨hnull, -⟩ | hread
  · have htype := h.type
    rw [hnull] at htype
    cases htype
  · rw [hread]
    dsimp only
    rw [if_pos h.admitted]

/-! ### The pong -/

/-- A pong goes out unless it would carry a `BigInt` or cannot be sent. -/
theorem sent_sendPong_iff {id : ConnId} {msg : JsVal} {t : Option JsVal} :
    Sent s (s.sendPong cfg io id msg) id (.pong t io.now) ↔
      t = msg.field (js "t") ∧ (msg.field (js "t")).any JsVal.hasBigInt = false ∧
        io.sendError id = none := by
  have hquiet : ∀ row, ¬Sent s (s.log cfg row) id (.pong t io.now) := fun row h =>
    Emits.sent (P := fun _ _ => False) (emits_log row) h
  unfold sendPong
  dsimp only
  by_cases hbig : (msg.field (js "t")).any JsVal.hasBigInt = true
  · rw [if_pos hbig]
    exact ⟨fun h => absurd h (hquiet _), fun h => absurd hbig (by rw [h.2.1]; exact Bool.false_ne_true)⟩
  · rw [if_neg hbig]
    cases hsend : io.sendError id with
    | some err =>
        have hfails : s.wsSend io id (.pong (msg.field (js "t")) io.now) = (false, s) := by
          unfold wsSend
          rw [hsend]
          rfl
        rw [hfails, if_neg Bool.false_ne_true]
        exact ⟨fun h => absurd h (hquiet _), fun h => by cases h.2.2⟩
    | none =>
        have hgoes : Sent s (s.wsSend io id (.pong (msg.field (js "t")) io.now)).2 id
            (.pong (msg.field (js "t")) io.now) := sent_wsSend hsend
        have hone : (s.wsSend io id (.pong (msg.field (js "t")) io.now)).1 = true := by
          unfold wsSend
          rw [hsend]
          rfl
        rw [if_pos hone]
        constructor
        · intro h
          have hemits : Emits (fun _ frame => frame = .pong (msg.field (js "t")) io.now) s
              (((s.wsSend io id (.pong (msg.field (js "t")) io.now)).2.modifyConn id fun c =>
                { c with pongs := c.pongs + 1 }).logDebug cfg (js "pong") [(js "connId", .str id)]) := by
            refine Emits.trans ?_ (emits_logDebug _ _)
            refine Emits.trans ?_ (emits_modifyConn id _)
            exact emits_wsSend fun _ => rfl
          have hframe := hemits.sent h
          injection hframe with ht _
          exact ⟨ht, Bool.not_eq_true _ ▸ hbig, rfl⟩
        · rintro ⟨rfl, -, -⟩
          exact (hgoes.then (P := fun _ _ => True) (emits_modifyConn id _)).then
            (P := fun _ _ => True) (emits_logDebug _ _)

/-- A release under rule 4 calls close. -/
theorem added_releaseSocket (id : ConnId) (c : Conn) :
    ∃ reason threw, Added s (s.releaseSocket cfg io id c) (.close id graduated reason threw) := by
  have hcalled := @added_wsClose io s id graduated
    (js "bootstrap complete — your channel to this bridge is bound; freeing the socket")
  refine ⟨_, _, hcalled.then (P := fun _ _ => True) ?_⟩
  unfold releaseSocket
  dsimp only
  refine Emits.trans ?_ (emits_logInfo _ _)
  refine Emits.trans ?_ (emits_logDebug _ _)
  exact Emits.congr_right rfl (emits_noteGraduated _)

/-- A ping that releases nothing is answered. -/
theorem onPing_of_not_released {id : ConnId} {conn : Conn} {msg : JsVal}
    (hget : s.connections.get id = some conn)
    (h : ∀ code reason threw, ¬Added s (s.onPing cfg io id msg) (.close id code reason threw)) :
    ∃ s₁ : Server, s₁.out = s.out ∧ s.onPing cfg io id msg = s₁.sendPong cfg io id msg := by
  obtain ⟨s₁, hout, -, -, hcase⟩ := @onPing_cases cfg io s id conn hget msg
  rcases hcase with ⟨m, -, -, c, hreleased⟩ | ⟨-, hanswered⟩
  · obtain ⟨reason, threw, hclose⟩ := @added_releaseSocket cfg io s₁ id c
    rw [hreleased] at h
    exact absurd (hclose.after (P := fun _ _ => True) (Emits.of_out_eq hout)) (h graduated reason threw)
  · exact ⟨s₁, hout, hanswered⟩

/-- What is new in the output was appended. -/
theorem sent_of_mem {P : ConnId → Frame → Prop} {s' : Server} (h : Emits P s s') {connId : ConnId}
    {frame : Frame} (hmem : .frame connId frame ∈ s'.out) (hnew : .frame connId frame ∉ s.out) :
    Sent s s' connId frame := by
  obtain ⟨added, hout, -⟩ := h
  refine ⟨added, hout, ?_⟩
  rw [hout] at hmem
  exact (List.mem_append.mp hmem).resolve_left hnew

/-- A frame of a kind that was in the output nowhere before was sent. -/
theorem exists_sent_of_any {P : ConnId → Frame → Prop} {s' : Server} {p : Out → Bool} {α : Type}
    {connId : ConnId} {frame : α → Frame} (h : Emits P s s')
    (hp : ∀ o, p o = true → ∃ a, o = .frame connId (frame a)) (hbefore : s.out.any p = false)
    (hnow : s'.out.any p = true) : ∃ a, Sent s s' connId (frame a) := by
  obtain ⟨o, hmem, ho⟩ := List.any_eq_true.mp hnow
  obtain ⟨a, rfl⟩ := hp o ho
  refine ⟨a, sent_of_mem h hmem fun hold => ?_⟩
  exact Bool.false_ne_true (hbefore.symm.trans (List.any_eq_true.mpr ⟨_, hold, ho⟩))

end Server

namespace Bridge

variable {cfg : Config} {b : Bridge} {io : Io} {id : ConnId} {conn : Conn} {json v : JsVal}

/-- What a message makes the server say. -/
theorem says_message (hb : b.Tracked) (cfg : Config) (io : Io) (id : ConnId) (data : Server.Inbound) :
    Server.Emits (Server.Says cfg io (· ∈ b.everAdmitted) b.server (.message id data)) b.server
      (b.step cfg (io, .message id data)).server :=
  Server.says_step _ hb.node hb.admitted fun _ _ ht _ => by cases ht

/-- A relayed payload is the one that was sent, decoded and encoded again. -/
theorem field_payload_of_sent (hb : b.Tracked)
    (h : Server.Receives b.server id conn json (js "signal"))
    (hv : json.field (js "payload") = some v) {dest : ConnId} {p : Option JsVal}
    (hsent : Server.Sent b.server (b.step cfg (io, .message id (.text (.ok json)))).server dest
      (.signal id p)) :
    (signalMessage id p).replace.field (js "payload") = some v.revive.replace := by
  have hadm : b.server.IsAdmitted id := ⟨conn, h.get, h.admitted⟩
  have hid : id ≠ cfg.node.reservedId := by
    obtain ⟨i, -, heq⟩ := hb.minted id (Or.inl (hb.admitted id hadm))
    rw [heq]
    exact mintConnId_ne_reservedId i cfg.node.epoch
  rcases ((says_message hb cfg io id (.text (.ok json))).sent hsent).of_signal with ⟨json', heq, -, hp⟩ | hrid
  · cases heq
    rw [hp, JsVal.field_revive, hv]
    exact field_payload_replace id v.revive
  · exact absurd hrid hid

/-- The answer to a ping that releases nothing. -/
theorem sent_pong_iff (h : Server.Receives b.server id conn json (js "ping"))
    (hv : json.field (js "t") = some v)
    (hkept : ∀ code reason threw, ¬Server.Added b.server
      (b.step cfg (io, .message id (.text (.ok json)))).server (.close id code reason threw))
    (t : Option JsVal) :
    Server.Sent b.server (b.step cfg (io, .message id (.text (.ok json)))).server id (.pong t io.now) ↔
      t = some v.revive ∧ v.revive.hasBigInt = false ∧ io.sendError id = none := by
  have hstep : (b.step cfg (io, .message id (.text (.ok json)))).server =
      (b.server.modifyConn id fun _ => { conn with lastSeenAt := io.now }).onPing cfg io id
        json.revive := by
    refine (Server.onMessage_of_receives h).trans ?_
    unfold Server.onFrame
    dsimp only
    rw [h.type]
    rfl
  rw [hstep] at hkept ⊢
  obtain ⟨s₁, hout, heq⟩ := Server.onPing_of_not_released (Server.get_heard h.get) hkept
  have hsame : ∀ s' frame, Server.Sent b.server s' id frame ↔ Server.Sent s₁ s' id frame := by
    intro s' frame
    unfold Server.Sent
    rw [hout]
    rfl
  rw [heq, hsame, Server.sent_sendPong_iff, JsVal.field_revive, hv]
  exact Iff.rfl

/-- **Opaque values.** In every state a run reaches, a relayed payload arrives as it was sent exactly
when no string in it reads as a `BigInt` that is written otherwise; and a ping that releases nothing is
answered with its `t` exactly when the socket can be sent to and no string in `t` reads as a
`BigInt`. -/
theorem opaque_iff {reportBound : Bool} {es : List (Io × Event)}
    (hes : (system cfg reportBound).Valid (init cfg reportBound) es)
    (hb : b = (system cfg reportBound).after (init cfg reportBound) es) (hv : v.IsJson) :
    (Server.Receives b.server id conn json (js "signal") → json.field (js "payload") = some v →
      ∀ dest p, Server.Sent b.server (b.step cfg (io, .message id (.text (.ok json)))).server dest
          (.signal id p) →
        ((signalMessage id p).replace.field (js "payload") = some v ↔ v.hasRewritten = false)) ∧
    (Server.Receives b.server id conn json (js "ping") → json.field (js "t") = some v →
      (∀ code reason threw, ¬Server.Added b.server
        (b.step cfg (io, .message id (.text (.ok json)))).server (.close id code reason threw)) →
        ((∃ t, Server.Sent b.server (b.step cfg (io, .message id (.text (.ok json)))).server id
            (.pong t io.now) ∧ (pongMessage t io.now).replace.field (js "t") = some v) ↔
          io.sendError id = none ∧ v.hasNumeral = false)) := by
  have htracked : b.Tracked := hb ▸ tracked_of_valid hes
  constructor
  · intro h hpayload dest p hsent
    rw [field_payload_of_sent htracked h hpayload hsent, Option.some.injEq]
    exact JsVal.replace_revive_iff v hv.1 hv.2
  · intro h ht hkept
    have hnumeral : v.revive.hasBigInt = v.hasNumeral := JsVal.hasBigInt_revive v hv.1
    constructor
    · rintro ⟨t, hsent, -⟩
      obtain ⟨-, hplain, hsend⟩ := (sent_pong_iff h ht hkept t).mp hsent
      exact ⟨hsend, hnumeral ▸ hplain⟩
    · rintro ⟨hsend, hplain⟩
      refine ⟨some v.revive, (sent_pong_iff h ht hkept _).mpr ⟨rfl, hnumeral.trans hplain, hsend⟩, ?_⟩
      rw [field_t_replace, Option.some.injEq]
      exact (JsVal.replace_revive_iff v hv.1 hv.2).mpr (JsVal.not_hasRewritten hplain)

/-- Two connections are admitted. -/
def twoAdmitted : List (Io × Event) :=
  [({ now := 1 }, .connect (js "c1")), ({ now := 2 }, .connect (js "c2")),
    ({ now := 3 }, .message (js "c1") (.text (.ok (Server.clientHello (.str (js "4.0.0"))
      (.str (js "4.0")))))),
    ({ now := 4 }, .message (js "c2") (.text (.ok (Server.clientHello (.str (js "4.0.0"))
      (.str (js "4.0"))))))]

theorem valid_twoAdmitted :
    (system Server.plain false).Valid (init Server.plain false) twoAdmitted :=
  valid_of_openRun (by decide +kernel)

/-- The bridge with two admitted connections. -/
def withTwo : Bridge := (system Server.plain false).after (init Server.plain false) twoAdmitted

/-- A signal of the first connection to the second. -/
def signalTo (payload : JsVal) : JsVal :=
  .obj [(js "type", .str (js "signal")), (js "to", .str (js "c2")), (js "payload", payload)]

def ping (t : JsVal) : JsVal := .obj [(js "type", .str (js "ping")), (js "t", t)]

/-- The first connection sends a frame. -/
def sends (json : JsVal) : Bridge :=
  withTwo.step Server.plain ({ now := 5 }, .message (js "c1") (.text (.ok json)))

theorem receives_of_type {type : JsString} (hjson : JsVal.asString (json.revive.field (js "type")) = some type) :
    ∃ conn, Server.Receives withTwo.server (js "c1") conn json type := by
  have hadm : withTwo.server.IsAdmitted (js "c1") := Server.isAdmitted_iff.mpr (by decide +kernel)
  obtain ⟨conn, hget, hadm⟩ := hadm
  exact ⟨conn, hget, hadm, hjson⟩

theorem sent_signalTo (payload : JsVal)
    (h : (sends (signalTo payload)).server.out.any (Out.isSignal (js "c1") (js "c2")) = true) :
    ∃ p, Server.Sent withTwo.server (sends (signalTo payload)).server (js "c2")
      (.signal (js "c1") p) := by
  have hemits := says_message (tracked_of_valid valid_twoAdmitted) Server.plain { now := 5 }
    (js "c1") (.text (.ok (signalTo payload)))
  have hnone : withTwo.server.out.any (Out.isSignal (js "c1") (js "c2")) = false := by
    decide +kernel
  exact Server.exists_sent_of_any hemits (fun _ => Out.exists_of_isSignal) hnone h

theorem closes_nobody {json : JsVal} (h : (sends json).server.out.any (fun o => o.cutOff.isSome) = false)
    (code : Nat) (reason : JsString) (threw : Bool) :
    ¬Server.Added withTwo.server (sends json).server (.close (js "c1") code reason threw) := by
  rintro ⟨added, hout, hmem⟩
  have hany : (sends json).server.out.any (fun o => o.cutOff.isSome) = true :=
    List.any_eq_true.mpr ⟨_, hout ▸ List.mem_append_right _ hmem, rfl⟩
  exact Bool.false_ne_true (h.symm.trans hany)

theorem opaque_plainText :
    (∃ p, Server.Sent withTwo.server (sends (signalTo (.str (js "x")))).server (js "c2")
        (.signal (js "c1") p) ∧
      (signalMessage (js "c1") p).replace.field (js "payload") = some (.str (js "x"))) ∧
    (∃ t, Server.Sent withTwo.server (sends (ping (.str (js "x")))).server (js "c1") (.pong t 5) ∧
      (pongMessage t 5).replace.field (js "t") = some (.str (js "x"))) := by
  have hplain : (JsVal.str (js "x")).IsJson := ⟨rfl, rfl⟩
  constructor
  · obtain ⟨conn, hreceives⟩ := @receives_of_type (signalTo (.str (js "x"))) (js "signal") rfl
    obtain ⟨p, hsent⟩ := sent_signalTo (.str (js "x")) (by decide +kernel)
    exact ⟨p, hsent, ((opaque_iff valid_twoAdmitted rfl hplain).1 hreceives rfl _ p hsent).mpr rfl⟩
  · obtain ⟨conn, hreceives⟩ := @receives_of_type (ping (.str (js "x"))) (js "ping") rfl
    have hkept := @closes_nobody (ping (.str (js "x"))) (by decide +kernel)
    exact ((opaque_iff valid_twoAdmitted rfl hplain).2 hreceives rfl hkept).mpr ⟨rfl, rfl⟩

/-- A payload of `007n` arrives as `7n`, and a ping with a `t` of `5n` is neither answered nor the
end of the socket. -/
theorem not_opaque_numerals :
    (∃ conn p, Server.Receives withTwo.server (js "c1") conn (signalTo (.str (js "007n"))) (js "signal") ∧
      Server.Sent withTwo.server (sends (signalTo (.str (js "007n")))).server (js "c2")
        (.signal (js "c1") p) ∧
      (signalMessage (js "c1") p).replace.field (js "payload") ≠ some (.str (js "007n"))) ∧
    (∃ conn, Server.Receives withTwo.server (js "c1") conn (ping (.str (js "5n"))) (js "ping") ∧
      (∀ code reason threw, ¬Server.Added withTwo.server (sends (ping (.str (js "5n")))).server
        (.close (js "c1") code reason threw)) ∧
      ∀ t, ¬Server.Sent withTwo.server (sends (ping (.str (js "5n")))).server (js "c1") (.pong t 5)) := by
  constructor
  · obtain ⟨conn, hreceives⟩ := @receives_of_type (signalTo (.str (js "007n"))) (js "signal") rfl
    obtain ⟨p, hsent⟩ := sent_signalTo (.str (js "007n")) (by decide +kernel)
    refine ⟨conn, p, hreceives, hsent, ?_⟩
    rw [field_payload_of_sent (tracked_of_valid valid_twoAdmitted) hreceives rfl hsent, Ne,
      Option.some.injEq, JsVal.replace_revive_iff _ rfl rfl]
    decide +kernel
  · obtain ⟨conn, hreceives⟩ := @receives_of_type (ping (.str (js "5n"))) (js "ping") rfl
    refine ⟨conn, hreceives, closes_nobody (by decide +kernel), fun t h => ?_⟩
    obtain ⟨added, hout, hmem⟩ := h
    have hsilent : (sends (ping (.str (js "5n")))).server.out.any Out.isPong = false := by
      decide +kernel
    have hany : (sends (ping (.str (js "5n")))).server.out.any Out.isPong = true :=
      List.any_eq_true.mpr ⟨_, hout ▸ List.mem_append_right _ hmem, rfl⟩
    exact Bool.false_ne_true (hsilent.symm.trans hany)

end Bridge

end AxonaBridge
