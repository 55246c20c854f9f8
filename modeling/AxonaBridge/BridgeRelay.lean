import AxonaBridge.BridgeMeter
import AxonaBridge.BridgeSession

/-!
# The relay of signals

Between two connections the relay is a queue that is never reordered: in any run the signals one has from
the other are those the other sent it while both were there and its meter let through, each once and in
the order they were sent.
-/

open JsText

namespace AxonaBridge

/-- The payload of a signal under a sender's id. -/
def Frame.signalFrom (sender : ConnId) : Frame → Option (Option JsVal)
  | .signal connId payload => if connId = sender then some payload else none
  | _ => none

theorem Frame.eq_of_signalFrom {sender : ConnId} {frame : Frame} {payload : Option JsVal}
    (h : frame.signalFrom sender = some payload) : frame = .signal sender payload := by
  cases frame with
  | signal connId payload' =>
      dsimp only [Frame.signalFrom] at h
      split_ifs at h with heq
      rw [heq, Option.some.inj h]
  | _ => cases h

/-- The meter lets a signal at this time through, or is off. -/
def Meter.lets (cfg : Config) (now : Int) (m : Meter) : Bool :=
  cfg.signalRate ≤ 0 || (m.attempt cfg now).1 = .relay

namespace Server

variable {cfg : Config} {io : Io} {s t : Server} {id dest : ConnId} {conn : Conn} {payload : Option JsVal}

/-- The payloads a connection has from a sender, in the order they came. -/
def signalsTo (s : Server) (sender connId : ConnId) : List (Option JsVal) :=
  (s.framesTo connId).filterMap (Frame.signalFrom sender)

theorem hears_relaySignal (hdest : s.connections.has dest = true) (hsend : io.sendError dest = none) :
    Hears dest s (s.relaySignal cfg io id dest payload) [.signal id payload] := by
  have hsent := @hears_sendTo cfg io s dest (.signal id payload) hdest hsend
  unfold relaySignal
  dsimp only
  split
  · exact hsent.quiet_right ((emits_modifyConn id _).trans (emits_logDebug _ _))
  · exact hsent

/-- What the recipient hears of a signal is what the meter lets through. -/
theorem hears_meteredRelay (hdest : s.connections.has dest = true) (hsend : io.sendError dest = none) :
    Hears dest s (s.meteredRelay cfg io id conn dest payload)
      (if conn.meterState.lets cfg io.now then [.signal id payload] else []) := by
  unfold meteredRelay
  split
  · rename_i hoff
    rw [if_pos (by rw [Meter.lets, decide_eq_true hoff, Bool.true_or])]
    exact hears_relaySignal hdest hsend
  · rename_i hon
    have hlets : conn.meterState.lets cfg io.now = decide ((meter cfg io conn).1 = .relay) := by
      rw [Meter.lets, decide_eq_false hon, Bool.false_or, (Meter.meter_eq cfg io conn).1]
    rw [hlets]
    dsimp only
    have hquiet : Emits (fun recipient _ => recipient ≠ dest) s
        (s.modifyConn id fun _ => (meter cfg io conn).2) := emits_modifyConn id _
    cases (meter cfg io conn).1 with
    | relay =>
        rw [decide_eq_true rfl, if_pos rfl]
        refine (hears_relaySignal ?_ hsend).quiet_left hquiet
        rw [modifyConn, JsMap.has_modify]
        exact hdest
    | drop logged =>
        rw [decide_eq_false (fun h => Metered.noConfusion h), if_neg Bool.false_ne_true]
        cases logged with
        | true => exact hears_nil (hquiet.trans (Emits.congr_left rfl (emits_logInfo _ _)))
        | false => exact hears_nil (hquiet.trans (Emits.of_out_eq rfl))

/-- A signal that is to be relayed goes to the meter. -/
theorem step_of_attemptOf {e : Event} (hdest : cfg.node.isReservedId dest = false)
    (h : s.attemptOf id e = some (dest, payload)) :
    ∃ conn, s.connections.get id = some conn ∧ s.step cfg io e =
      (s.modifyConn id fun _ => { conn with lastSeenAt := io.now }).meteredRelay cfg io id
        { conn with lastSeenAt := io.now } dest payload := by
  obtain ⟨conn, json, rfl, hreceives, hto, hhas, rfl⟩ := attemptOf_eq_some.mp h
  refine ⟨conn, hreceives.get, (onMessage_of_receives hreceives).trans ?_⟩
  unfold onFrame
  dsimp only
  rw [hreceives.type, if_neg (by decide), if_neg (by decide), if_neg (by decide), if_neg (by decide),
    if_pos rfl]
  unfold onSignal
  rw [hto]
  dsimp only
  have hdoor : ¬(conn.admitted = true ∧ cfg.node.isReservedId dest = true) := fun h =>
    Bool.false_ne_true (hdest.symm.trans h.2)
  rw [if_neg hdoor, if_neg Bool.false_ne_true, modifyConn, JsMap.has_modify, hhas]
  exact if_neg Bool.false_ne_true

end Server

namespace Bridge

variable {cfg : Config} {b : Bridge} {e : Io × Event} {x y : ConnId}

/-- The payload an event has relayed from one connection to another. -/
def relayedTo (cfg : Config) (x y : ConnId) (b : Bridge) (e : Io × Event) : Option (Option JsVal) :=
  (b.server.attemptOf x e.2).bind fun a =>
    if a.1 = y ∧ (b.server.connections.get x).any (fun conn => conn.meterState.lets cfg e.1.now) then some a.2
    else none

/-- One step relays at most what it is asked to. -/
theorem signalsTo_step (hb : b.Tracked) (hsend : e.1.SendsReturn) (hx : x ≠ cfg.node.reservedId) :
    (b.step cfg e).server.signalsTo x y = b.server.signalsTo x y ++ (relayedTo cfg x y b e).toList := by
  have hsplit : ∀ {frames : List Frame}, Server.Hears y b.server (b.step cfg e).server frames →
      (b.step cfg e).server.signalsTo x y =
        b.server.signalsTo x y ++ frames.filterMap (Frame.signalFrom x) := by
    intro frames hheard
    unfold Server.signalsTo
    rw [hheard, List.filterMap_append]
  by_cases hattempt : ∃ payload, b.server.attemptOf x e.2 = some (y, payload)
  · obtain ⟨payload, hattempt⟩ := hattempt
    obtain ⟨conn, hget, hstep⟩ := Server.step_of_attemptOf
      (isReservedId_of_attemptOf hb hattempt) hattempt
    obtain ⟨_, _, -, -, -, hhas, -⟩ := Server.attemptOf_eq_some.mp hattempt
    have hheard := @Server.hears_meteredRelay cfg e.1
      (b.server.modifyConn x fun _ => { conn with lastSeenAt := e.1.now }) x y
      { conn with lastSeenAt := e.1.now } payload (by rw [Server.modifyConn, JsMap.has_modify]; exact hhas)
      (hsend y)
    rw [← hstep] at hheard
    rw [hsplit (hheard.quiet_left (Server.emits_modifyConn x _))]
    unfold relayedTo
    rw [hattempt, Option.bind_some, hget, Option.any_some]
    have hmeter : ({ conn with lastSeenAt := e.1.now } : Conn).meterState = conn.meterState := rfl
    rw [hmeter]
    cases conn.meterState.lets cfg e.1.now with
    | true => simp [Frame.signalFrom]
    | false => simp
  · -- no other event says anything to `y` in the name of `x`
    obtain ⟨frames, hheard, hframes⟩ := Server.exists_hears (@says_step cfg b e) y
    have hnone : frames.filterMap (Frame.signalFrom x) = [] := by
      refine List.filterMap_eq_nil_iff.mpr fun frame hmem => ?_
      by_contra hsome
      obtain ⟨payload, hpayload⟩ := Option.ne_none_iff_exists'.mp hsome
      have hsaid := (hframes frame hmem).1
      rw [Frame.eq_of_signalFrom hpayload] at hsaid
      rcases hsaid.of_signal with ⟨json, hmessage, ⟨hadm, json', heq, htype, hto, hhas⟩, -⟩ | hrid
      · cases heq
        obtain ⟨conn, hget, hyes⟩ := hadm
        refine hattempt ⟨json.revive.field (js "payload"), ?_⟩
        rw [hmessage]
        exact Server.attemptOf_eq_some.mpr ⟨conn, json, rfl, ⟨hget, hyes, htype⟩, hto, hhas, rfl⟩
      · exact hx hrid
    have hnot : relayedTo cfg x y b e = none := by
      unfold relayedTo
      cases hto : b.server.attemptOf x e.2 with
      | none => rfl
      | some a => exact if_neg fun h => hattempt ⟨a.2, by rw [hto, ← h.1]⟩
    rw [hsplit hheard, hnone, hnot, Option.toList_none]

/-- **The relay.** In every run in which sends return, the signals a connection has from another are the
payloads of the signals the other sent it while both were there and that its meter let through: each once,
in the order they were sent, and no others. -/
theorem relay_in_order (cfg : Config) (reportBound : Bool) (es : List (Io × Event))
    (hes : (system cfg reportBound).Valid (init cfg reportBound) es)
    (hsend : ∀ e ∈ es, e.1.SendsReturn) (x y : ConnId) (hx : x ≠ cfg.node.reservedId) :
    ((system cfg reportBound).after (init cfg reportBound) es).server.signalsTo x y =
      (system cfg reportBound).trace (relayedTo cfg x y) (init cfg reportBound) es := by
  revert hsend
  refine System.Valid.history (P := fun es => (∀ e ∈ es, e.1.SendsReturn) →
    ((system cfg reportBound).after (init cfg reportBound) es).server.signalsTo x y =
      (system cfg reportBound).trace (relayedTo cfg x y) (init cfg reportBound) es) ?_ ?_ hes
  · exact fun _ => rfl
  · intro es e hes he ih hsend
    have hbefore := ih fun e hmem => hsend e (List.mem_append_left _ hmem)
    have hstep := signalsTo_step (y := y) (tracked_of_valid hes)
      (hsend e (List.mem_append_right _ List.mem_cons_self)) hx
    rw [System.trace_snoc, System.after_append, ← hbefore]
    exact hstep

/-- One connection signals another twice, and once more when that has left. -/
def signalsThrice : List (Io × Event) :=
  twoAdmitted ++ [({ now := 5 }, .message (js "c1") (.text (.ok (signalTo .null)))),
    ({ now := 6 }, .message (js "c1") (.text (.ok (signalTo (.str (js "again")))))),
    ({ now := 7 }, .closed (js "c2") 1000 []),
    ({ now := 8 }, .message (js "c1") (.text (.ok (signalTo .null))))]

theorem relay_in_order_signalsThrice :
    ((system Server.plain false).after (init Server.plain false) signalsThrice).server.signalsTo
        (js "c1") (js "c2") =
      (system Server.plain false).trace (relayedTo Server.plain (js "c1") (js "c2"))
        (init Server.plain false) signalsThrice := by
  refine relay_in_order Server.plain false signalsThrice (valid_of_openRun (by decide +kernel)) ?_
    (js "c1") (js "c2") (by decide)
  intro e hmem connId
  simp only [signalsThrice, twoAdmitted, List.cons_append, List.nil_append, List.mem_cons,
    List.not_mem_nil, or_false] at hmem
  rcases hmem with rfl | rfl | rfl | rfl | rfl | rfl | rfl | rfl <;> rfl

end Bridge

end AxonaBridge
