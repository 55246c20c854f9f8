import AxonaBridge.BridgeAdmission
import AxonaBridge.ServerKeeps
import AxonaBridge.SignalMeter

/-!
# The meter of signals

Along any run what becomes of the signals of a connection is what its meter makes of their times, and so
nobody else has a part in it. Each window is dealt with as it should be, in every run in which no count
has to leave its 32 bits.
-/

open JsText

namespace AxonaBridge

namespace Server

variable {cfg : Config} {io : Io} {s t s' : Server} {id dest : ConnId} {conn : Conn}
  {payload : Option JsVal}

/-- The signal of the connection that an event asks to be relayed: an admitted connection names a present
one. -/
def attemptOf (s : Server) (id : ConnId) : Event → Option (ConnId × Option JsVal)
  | .message sender (.text (.ok json)) =>
      (JsVal.asString (json.revive.field (js "to"))).bind fun dest =>
        if sender = id ∧ s.admission id = some true ∧
            JsVal.asString (json.revive.field (js "type")) = some (js "signal") ∧
            s.connections.has dest = true then
          some (dest, json.revive.field (js "payload"))
        else none
  | _ => none

theorem attemptOf_eq_some {e : Event} : s.attemptOf id e = some (dest, payload) ↔
    ∃ conn json, e = .message id (.text (.ok json)) ∧ Receives s id conn json (js "signal") ∧
      JsVal.asString (json.revive.field (js "to")) = some dest ∧ s.connections.has dest = true ∧
        payload = json.revive.field (js "payload") := by
  constructor
  · intro h
    unfold attemptOf at h
    split at h
    · rename_i sender json
      obtain ⟨dest', hdest, hsome⟩ := Option.bind_eq_some_iff.mp h
      split at hsome
      · rename_i hattempt
        obtain ⟨rfl, hadm, htype, hhas⟩ := hattempt
        obtain ⟨rfl, rfl⟩ := Prod.mk.inj (Option.some.inj hsome)
        obtain ⟨conn, hget, hadm⟩ := isAdmitted_iff.mpr hadm
        exact ⟨conn, json, rfl, ⟨hget, hadm, htype⟩, hdest, hhas, rfl⟩
      · cases hsome
    · cases h
  · rintro ⟨conn, json, rfl, hreceives, hdest, hhas, rfl⟩
    unfold attemptOf
    dsimp only
    rw [hdest, Option.bind_some, if_pos]
    exact ⟨rfl, isAdmitted_iff.mp ⟨conn, hreceives.get, hreceives.admitted⟩, hreceives.type, hhas⟩

/-! ### What a step shows of it -/

/-- The row of a window with more signals than the rate. -/
def rateLimited (cfg : Config) (id : ConnId) : LogRow where
  level := .info
  event := js "signal-rate-limited"
  fields := [(js "connId", .str id), (js "limit", .int cfg.signalRate),
    (js "windowMs", .int cfg.signalWindowMs), (js "dropped", .int 1)]

/-- What became of a signal of the connection between two states: the connection's count of what was
dropped moved, with a row or without, or the signal was relayed. -/
def shown (id : ConnId) (s s' : Server) : Metered :=
  if (s'.connections.get id).map (·.signalsRateLimited) =
      (s.connections.get id).map (·.signalsRateLimited) then .relay
  else .drop (s.out.length < s'.out.length)

/-- A signal that is relayed goes out where the socket can be sent to; one that is dropped is counted among
all that were, as long as a number counts exactly, and nothing goes out but the row; and nobody is closed
over either. -/
structure Shows (cfg : Config) (io : Io) (id dest : ConnId) (payload : Option JsVal) (verdict : Metered)
    (s s' : Server) : Prop where
  relayed : verdict = .relay → io.sendError dest = none → Sent s s' dest (.signal id payload)
  unrowed : verdict = .relay → ¬Added s s' (.log (rateLimited cfg id))
  dropped : ∀ row, verdict = .drop row →
    (s.signalRateLimitedTotal < 2 ^ 53 → s'.signalRateLimitedTotal = s.signalRateLimitedTotal + 1) ∧
      s'.out = s.out ++ if row then [.log (rateLimited cfg id)] else []
  kept : ∀ o, Added s s' o → o.cutOff = none

theorem sendTo_of_sendable {msg : Frame} (hdest : s.connections.has dest = true)
    (hsend : io.sendError dest = none) :
    s.sendTo cfg io dest msg = (true, { s with out := s.out ++ [.frame dest msg] }) := by
  unfold sendTo wsSend
  rw [hdest, hsend]
  rfl

theorem sendTo_of_throws {msg : Frame} {err : JsString} (hdest : s.connections.has dest = true)
    (hsend : io.sendError dest = some err) :
    s.sendTo cfg io dest msg = (false, s.sendFailed cfg io (js "send-failed") dest msg) := by
  unfold sendTo wsSend
  rw [hdest, hsend]
  rfl

/-- What a relay puts out, the signal and rows of its own, and that it keeps the meter. -/
theorem relaySignal_spec (hdest : s.connections.has dest = true) (hget : s.connections.get id = some conn) :
    (∃ added, (s.relaySignal cfg io id dest payload).out = s.out ++ added ∧
      (∀ o ∈ added, o = Out.frame dest (.signal id payload) ∨
        ∃ row : LogRow, o = .log row ∧ row.level ≠ .info) ∧
      (io.sendError dest = none → .frame dest (.signal id payload) ∈ added)) ∧
    ∃ conn', (s.relaySignal cfg io id dest payload).connections.get id = some conn' ∧
      conn'.meterState = conn.meterState := by
  unfold relaySignal
  dsimp only
  cases hsend : io.sendError dest with
  | none =>
      rw [sendTo_of_sendable hdest hsend, if_pos rfl]
      have hrelayed : (s.modifyConn id fun c => { c with signalsRelayed := c.signalsRelayed + 1 }).connections.get
          id = some { conn with signalsRelayed := conn.signalsRelayed + 1 } := by
        rw [get_modifyConn, if_pos rfl, hget]
        rfl
      unfold logDebug log
      split
      · exact ⟨⟨_, rfl, by simp, by simp⟩, _, hrelayed, rfl⟩
      · exact ⟨⟨_, List.append_assoc _ _ _, by simp, by simp⟩, _, hrelayed, rfl⟩
  | some err =>
      rw [sendTo_of_throws hdest hsend, if_neg Bool.false_ne_true]
      unfold sendFailed logErr log
      rw [if_neg (by simp)]
      exact ⟨⟨_, rfl, by simp, by simp⟩, conn, hget, rfl⟩

theorem shows_relay {added : List Out} (hout : s'.out = s.out ++ added)
    (honly : ∀ o ∈ added, o = .frame dest (.signal id payload) ∨
      ∃ row : LogRow, o = .log row ∧ row.level ≠ .info)
    (hsent : io.sendError dest = none → .frame dest (.signal id payload) ∈ added) :
    Shows cfg io id dest payload .relay s s' := by
  have hadded : ∀ o, Added s s' o → o ∈ added := by
    rintro o ⟨added', hout', hmem⟩
    exact List.append_cancel_left (hout'.symm.trans hout) ▸ hmem
  refine ⟨fun _ hsend => ⟨added, hout, hsent hsend⟩, fun _ hrow => ?_, fun _ hdrop => Metered.noConfusion hdrop,
    fun o ho => ?_⟩
  · rcases honly _ (hadded _ hrow) with hframe | ⟨row, hlog, hlevel⟩
    · cases hframe
    · cases hlog
      exact hlevel rfl
  · rcases honly o (hadded o ho) with rfl | ⟨row, rfl, -⟩ <;> rfl

theorem shows_drop {row : Bool} (htotal : s'.signalRateLimitedTotal = s.signalRateLimitedTotal + 1)
    (hout : s'.out = s.out ++ if row then [.log (rateLimited cfg id)] else []) :
    Shows cfg io id dest payload (.drop row) s s' := by
  refine ⟨Metered.noConfusion, Metered.noConfusion, fun row' hdrop => ?_, ?_⟩
  · cases hdrop
    exact ⟨fun _ => htotal, hout⟩
  · rintro o ⟨added, hout', hmem⟩
    rw [List.append_cancel_left (hout'.symm.trans hout)] at hmem
    cases row with
    | true =>
        rw [List.mem_singleton.mp hmem]
        rfl
    | false => cases hmem

/-- The relay of a present recipient's signal does what the meter says. -/
theorem meteredRelay_spec (hrate : 1 ≤ cfg.signalRate) (hdest : s.connections.has dest = true)
    (hget : s.connections.get id = some conn) :
    Shows cfg io id dest payload (meter cfg io conn).1 s (s.meteredRelay cfg io id conn dest payload) ∧
    ∃ conn', (s.meteredRelay cfg io id conn dest payload).connections.get id = some conn' ∧
      conn'.meterState = (meter cfg io conn).2.meterState := by
  have hmetered : (s.modifyConn id fun _ => (meter cfg io conn).2).connections.get id =
      some (meter cfg io conn).2 := by
    rw [get_modifyConn, if_pos rfl, hget]
    rfl
  have hhas : (s.modifyConn id fun _ => (meter cfg io conn).2).connections.has dest = true := by
    rw [modifyConn, JsMap.has_modify]
    exact hdest
  unfold meteredRelay
  dsimp only
  rw [if_neg (by omega)]
  cases (meter cfg io conn).1 with
  | relay =>
      dsimp only
      obtain ⟨⟨added, hout, honly, hsent⟩, hconn⟩ := @relaySignal_spec cfg io _ id dest _ payload hhas hmetered
      exact ⟨shows_relay hout honly hsent, hconn⟩
  | drop row =>
      dsimp only
      cases row with
      | true => exact ⟨shows_drop rfl rfl, _, hmetered, rfl⟩
      | false => exact ⟨shows_drop rfl (List.append_nil _).symm, _, hmetered, rfl⟩

/-- That a connection is heard from shows nothing. -/
theorem Shows.of_heard {verdict : Metered} {f : Conn → Conn}
    (h : Shows cfg io id dest payload verdict (s.modifyConn id f) s') :
    Shows cfg io id dest payload verdict s s' :=
  ⟨h.relayed, h.unrowed, h.dropped, h.kept⟩

/-- What a step shows is the verdict of the meter. -/
theorem shown_eq {conn' : Conn} (hget : s.connections.get id = some conn)
    (hget' : s'.connections.get id = some conn')
    (hmeter : conn'.meterState = (conn.meterState.attempt cfg io.now).2)
    (h : Shows cfg io id dest payload (conn.meterState.attempt cfg io.now).1 s s') :
    shown id s s' = (conn.meterState.attempt cfg io.now).1 := by
  have hcounted : (s'.connections.get id).map (·.signalsRateLimited) =
      (s.connections.get id).map (·.signalsRateLimited) ↔
        (conn.meterState.attempt cfg io.now).1 = .relay := by
    rw [hget, hget', Option.map_some, Option.map_some, Option.some.injEq, ← Meter.limited_attempt_eq_iff,
      ← hmeter]
    rfl
  unfold shown
  cases hverdict : (conn.meterState.attempt cfg io.now).1 with
  | relay => exact if_pos (hcounted.mpr hverdict)
  | drop row =>
      have hnot : (conn.meterState.attempt cfg io.now).1 ≠ .relay := by
        rw [hverdict]
        exact Metered.noConfusion
      rw [if_neg (mt hcounted.mp hnot), (h.dropped row hverdict).2]
      cases row <;> simp

/-- What becomes of a signal to be relayed. -/
theorem attempt_spec {e : Event} (hrate : 1 ≤ cfg.signalRate) (hdest : cfg.node.isReservedId dest = false)
    (h : s.attemptOf id e = some (dest, payload)) :
    ∃ conn conn', s.connections.get id = some conn ∧ (s.step cfg io e).connections.get id = some conn' ∧
      conn'.meterState = (conn.meterState.attempt cfg io.now).2 ∧
      shown id s (s.step cfg io e) = (conn.meterState.attempt cfg io.now).1 ∧
      Shows cfg io id dest payload (conn.meterState.attempt cfg io.now).1 s (s.step cfg io e) := by
  obtain ⟨conn, json, rfl, hreceives, hto, hhas, rfl⟩ := attemptOf_eq_some.mp h
  have hstep : s.step cfg io (.message id (.text (.ok json))) =
      (s.modifyConn id fun _ => { conn with lastSeenAt := io.now }).meteredRelay cfg io id
        { conn with lastSeenAt := io.now } dest (json.revive.field (js "payload")) := by
    refine (onMessage_of_receives hreceives).trans ?_
    unfold onFrame
    dsimp only
    rw [hreceives.type, if_neg (by decide), if_neg (by decide), if_neg (by decide), if_neg (by decide),
      if_pos rfl]
    unfold onSignal
    rw [hto]
    dsimp only
    have hnoDoor : ¬(conn.admitted = true ∧ cfg.node.isReservedId dest = true) := fun hdoor =>
      Bool.false_ne_true (hdest.symm.trans hdoor.2)
    rw [if_neg hnoDoor, if_neg Bool.false_ne_true, modifyConn, JsMap.has_modify, hhas]
    exact if_neg Bool.false_ne_true
  have hheard := @get_heard io s id conn hreceives.get
  obtain ⟨hverdict, hafter⟩ := Meter.meter_eq cfg io { conn with lastSeenAt := io.now }
  obtain ⟨hshows, conn', hget', hmeter⟩ := @meteredRelay_spec cfg io _ id dest _
    (json.revive.field (js "payload")) hrate ((JsMap.has_modify _ _ _ _).trans hhas) hheard
  rw [hverdict] at hshows
  rw [hstep]
  exact ⟨conn, conn', hreceives.get, hget', hmeter.trans hafter,
    shown_eq hreceives.get hget' (hmeter.trans hafter) hshows.of_heard, hshows.of_heard⟩

/-! ### Everything else leaves the meter alone -/

/-- What is kept of the meter of a connection is as it was. -/
def KeepsMeter (id : ConnId) (s t : Server) : Prop :=
  ∀ c', t.connections.get id = some c' → ∃ c, s.connections.get id = some c ∧ c'.meterState = c.meterState

theorem looks_keepsMeter : Looks fun o o' => ∀ c', o' = some c' →
    ∃ c, o = some c ∧ c'.meterState = c.meterState where
  refl o c hc := ⟨c, hc, rfl⟩
  trans h h' c'' hc'' := by
    obtain ⟨c', hc', heq'⟩ := h' c'' hc''
    obtain ⟨c, hc, heq⟩ := h c' hc'
    exact ⟨c, hc, heq'.trans heq⟩
  aside {c c'} h d hd := by
    cases hd
    rw [h]
    exact ⟨c, rfl, rfl⟩
  hello c msg _ d hd := by
    cases hd
    exact ⟨c, rfl, rfl⟩
  admission c _ d hd := by
    cases hd
    exact ⟨c, rfl, rfl⟩

/-- Where no signal of the connection is to be relayed and it is not opened, its meter stays. -/
theorem keepsMeter_step {e : Event} (hfresh : e ≠ .connect id) (hquiet : s.attemptOf id e = none) :
    KeepsMeter id s (s.step cfg io e) := by
  refine looks_keepsMeter.step hfresh (fun conn _ _ _ c hc => by cases hc; exact ⟨conn, rfl, rfl⟩)
    (fun _ _ _ _ hc => by cases hc) fun conn json dest hevent hreceives hdest hhas => ?_
  cases hquiet.symm.trans (attemptOf_eq_some.mpr ⟨conn, json, hevent, hreceives, hdest, hhas, rfl⟩)

/-- A connection is opened with a meter that has counted nothing. -/
theorem meterState_onConnection (h : (s.onConnection cfg io id).connections.get id = some conn) :
    conn.meterState = {} := by
  unfold onConnection at h
  dsimp only at h
  rw [connections_sendTo, connections_logInfo, JsMap.get_set_self] at h
  cases h
  rfl

end Server

namespace Bridge

variable {cfg : Config} {b : Bridge} {e : Io × Event} {id : ConnId} {reportBound : Bool}
  {es : List (Io × Event)} {log : List (Int × Server.Metered)}

/-- When a step deals with a signal of the connection to be relayed, and what becomes of it. -/
def meterEntry (cfg : Config) (id : ConnId) (b : Bridge) (e : Io × Event) : Option (Int × Server.Metered) :=
  (b.server.attemptOf id e.2).map fun _ => (time e, Server.shown id b.server (b.step cfg e).server)

def meterLog (cfg : Config) (reportBound : Bool) (id : ConnId) (es : List (Io × Event)) :
    List (Int × Server.Metered) :=
  (system cfg reportBound).trace (meterEntry cfg id) (init cfg reportBound) es

/-- The times at which a connection sends signals to be relayed. -/
def attemptTimes (cfg : Config) (reportBound : Bool) (id : ConnId) (es : List (Io × Event)) : List Int :=
  (meterLog cfg reportBound id es).map Prod.fst

/-- The meter that is kept of a connection is the one that has judged its signals. -/
structure MeterTracks (cfg : Config) (id : ConnId) (b : Bridge) (log : List (Int × Server.Metered)) :
    Prop where
  verdicts : log.map Prod.snd = Meter.verdicts cfg {} (log.map Prod.fst)
  state : ∀ conn, b.server.connections.get id = some conn →
    conn.meterState = Meter.after cfg {} (log.map Prod.fst)
  everAdmitted : log ≠ [] → id ∈ b.everAdmitted

/-- The recipient of a signal to be relayed is not the bridge. -/
theorem isReservedId_of_attemptOf (hb : b.Tracked) {event : Event} {dest : ConnId} {payload : Option JsVal}
    (h : b.server.attemptOf id event = some (dest, payload)) : cfg.node.isReservedId dest = false := by
  obtain ⟨conn, json, -, -, -, hhas, -⟩ := Server.attemptOf_eq_some.mp h
  obtain ⟨i, -, rfl⟩ := hb.minted dest (Or.inr (Server.has_iff_admission.mp hhas))
  unfold NodeConfig.isReservedId
  have hne : mintConnId i ≠ cfg.node.reservedId := mintConnId_ne_reservedId i cfg.node.epoch
  rw [decide_eq_false hne, Bool.and_false]

theorem MeterTracks.step (hrate : 1 ≤ cfg.signalRate) (hb : b.Tracked) (he : b.Enabled cfg e)
    (h : MeterTracks cfg id b log) :
    MeterTracks cfg id (b.step cfg e) (log ++ (meterEntry cfg id b e).toList) := by
  cases hattempt : b.server.attemptOf id e.2 with
  | none =>
      have hnone : meterEntry cfg id b e = none := by rw [meterEntry, hattempt, Option.map_none]
      rw [hnone, Option.toList_none, List.append_nil]
      refine ⟨h.verdicts, fun conn hconn => ?_, fun hlog =>
        mem_everAdmitted_step.mpr (Or.inl (h.everAdmitted hlog))⟩
      by_cases hfresh : e.2 = .connect id
      · have hnot : log = [] := by
          by_contra hlog
          exact ne_connect_of_minted he (hb.minted id (Or.inl (h.everAdmitted hlog))) hfresh
        rw [server_step_of_event hfresh] at hconn
        rw [hnot]
        exact Server.meterState_onConnection hconn
      · obtain ⟨c, hc, heq⟩ := Server.keepsMeter_step hfresh hattempt conn hconn
        exact heq.trans (h.state c hc)
  | some attempt =>
      obtain ⟨dest, payload⟩ := attempt
      obtain ⟨conn, conn', hget, hget', hmeter, hshown, -⟩ :=
        @Server.attempt_spec cfg e.1 b.server id dest payload e.2 hrate
          (isReservedId_of_attemptOf hb hattempt) hattempt
      have hentry : meterEntry cfg id b e = some (time e, (conn.meterState.attempt cfg e.1.now).1) := by
        rw [meterEntry, hattempt, ← hshown]
        rfl
      rw [h.state conn hget] at hmeter hentry
      rw [hentry, Option.toList_some]
      refine ⟨?_, fun c hc => ?_, fun _ => ?_⟩
      · rw [List.map_append, List.map_append, Meter.verdicts_append, h.verdicts]
        rfl
      · cases hget'.symm.trans hc
        rw [hmeter, List.map_append]
        exact Meter.after_snoc.symm
      · refine mem_everAdmitted_step.mpr (Or.inl (hb.admitted id ?_))
        obtain ⟨conn, json, -, hreceives, -⟩ := Server.attemptOf_eq_some.mp hattempt
        exact ⟨conn, hreceives.get, hreceives.admitted⟩

theorem meterTracks_of_valid (hrate : 1 ≤ cfg.signalRate)
    (hes : (system cfg reportBound).Valid (init cfg reportBound) es) :
    MeterTracks cfg id ((system cfg reportBound).after (init cfg reportBound) es)
      (meterLog cfg reportBound id es) := by
  have hstart : MeterTracks cfg id (init cfg reportBound) [] :=
    ⟨rfl, fun conn hconn => (nomatch hconn), fun h => absurd rfl h⟩
  refine System.Valid.history (P := fun es => MeterTracks cfg id
    ((system cfg reportBound).after (init cfg reportBound) es) (meterLog cfg reportBound id es)) hstart
    (fun es e hes he h => ?_) hes
  rw [System.after_append, meterLog, System.trace_snoc]
  exact h.step hrate (tracked_of_valid hes) he

/-- A connection that has sent signals to be relayed was in the table after the last of them. -/
theorem exists_present (hrate : 1 ≤ cfg.signalRate)
    (hes : (system cfg reportBound).Valid (init cfg reportBound) es)
    (hlog : meterLog cfg reportBound id es ≠ []) :
    ∃ es₁ es₂ conn, es = es₁ ++ es₂ ∧ meterLog cfg reportBound id es₁ = meterLog cfg reportBound id es ∧
      ((system cfg reportBound).after (init cfg reportBound) es₁).server.connections.get id = some conn := by
  induction es using List.reverseRecOn with
  | nil => exact absurd rfl hlog
  | append_singleton es e ih =>
      obtain ⟨hbefore, -, -⟩ := System.along_append.mp hes
      have hsnoc : meterLog cfg reportBound id (es ++ [e]) = meterLog cfg reportBound id es ++
          (meterEntry cfg id ((system cfg reportBound).after (init cfg reportBound) es) e).toList :=
        System.trace_snoc
      cases hattempt : ((system cfg reportBound).after (init cfg reportBound) es).server.attemptOf id e.2 with
      | none =>
          rw [meterEntry, hattempt, Option.map_none, Option.toList_none, List.append_nil] at hsnoc
          rw [hsnoc] at hlog ⊢
          obtain ⟨es₁, es₂, conn, hsplit, hsame, hconn⟩ := ih hbefore hlog
          exact ⟨es₁, es₂ ++ [e], conn, by rw [hsplit, List.append_assoc], hsame, hconn⟩
      | some attempt =>
          obtain ⟨dest, payload⟩ := attempt
          obtain ⟨-, conn', -, hget', -⟩ := @Server.attempt_spec cfg e.1 _ id dest payload e.2 hrate
            (isReservedId_of_attemptOf (tracked_of_valid hbefore) hattempt) hattempt
          refine ⟨es ++ [e], [], conn', (List.append_nil _).symm, rfl, ?_⟩
          rw [System.after_append]
          exact hget'

/-! ### Every window as it is due -/

/-- What a connection can expect of the meter: in each window of its signals the first up to the rate are
relayed and the others dropped, the first of these with a row; all that was dropped is counted; at most
twice the rate is relayed in any interval as long as a window; what a step shows is what it does, and it
closes nobody; and nothing but the times of its own signals has a part in it. -/
structure MeterHolds (cfg : Config) (reportBound : Bool) (es : List (Io × Event)) (id : ConnId) :
    Prop where
  verdicts : (meterLog cfg reportBound id es).map Prod.snd =
    (FixedWindow.windows cfg.signalWindowMs (attemptTimes cfg reportBound id es)).flatMap
      fun w => Meter.windowVerdicts cfg.signalRate w.length
  counted : ∀ es₁ es₂, es = es₁ ++ es₂ → ∀ conn,
    ((system cfg reportBound).after (init cfg reportBound) es₁).server.connections.get id = some conn →
      conn.signalsRateLimited = Meter.dropped ((meterLog cfg reportBound id es₁).map Prod.snd)
  halfOpen : ∀ a, (Meter.relayed (attemptTimes cfg reportBound id es)
    ((meterLog cfg reportBound id es).map Prod.snd)).countP
      (fun t => a ≤ t ∧ t < a + cfg.signalWindowMs) ≤ 2 * cfg.signalRate
  shows : (system cfg reportBound).Along (fun b e => ∀ dest payload,
    b.server.attemptOf id e.2 = some (dest, payload) →
      Server.Shows cfg e.1 id dest payload (Server.shown id b.server (b.step cfg e).server) b.server
        (b.step cfg e).server) (init cfg reportBound) es
  alone : ∀ reportBound' es', (system cfg reportBound').Valid (init cfg reportBound') es' →
    attemptTimes cfg reportBound' id es' = attemptTimes cfg reportBound id es →
      meterLog cfg reportBound' id es' = meterLog cfg reportBound id es

/-- No count of the connection has to leave its 32 bits: no window has more than `2 ^ 31` signals and more
than the rate, and the windows together no more than `2 ^ 31` over the rate. -/
structure WithinCounts (cfg : Config) (reportBound : Bool) (es : List (Io × Event)) (id : ConnId) :
    Prop where
  window : ∀ w ∈ FixedWindow.windows cfg.signalWindowMs (attemptTimes cfg reportBound id es),
    w.length ≤ cfg.signalRate ∨ w.length ≤ 2 ^ 31
  total : ((FixedWindow.windows cfg.signalWindowMs (attemptTimes cfg reportBound id es)).map
    fun w => w.length - cfg.signalRate.toNat).sum ≤ 2 ^ 31

/-- The verdicts of a run, by the windows of its signals. -/
theorem meterLog_windows (hrate : 1 ≤ cfg.signalRate)
    (hes : (system cfg reportBound).Valid (init cfg reportBound) es)
    (hpos : ∀ t ∈ attemptTimes cfg reportBound id es, 0 < t) :
    (meterLog cfg reportBound id es).map Prod.snd =
      (FixedWindow.windows cfg.signalWindowMs (attemptTimes cfg reportBound id es)).flatMap
        fun w => (List.range w.length).map (Meter.verdictAt cfg.signalRate) :=
  (meterTracks_of_valid hrate hes).verdicts.trans (Meter.verdicts_windows fun t ht => (hpos t ht).ne')

/-- Every window is dealt with as it is due where none has too many signals. -/
theorem verdicts_iff (hrate : 1 ≤ cfg.signalRate)
    (hes : (system cfg reportBound).Valid (init cfg reportBound) es)
    (hpos : ∀ t ∈ attemptTimes cfg reportBound id es, 0 < t) :
    (meterLog cfg reportBound id es).map Prod.snd =
        (FixedWindow.windows cfg.signalWindowMs (attemptTimes cfg reportBound id es)).flatMap
          (fun w => Meter.windowVerdicts cfg.signalRate w.length) ↔
      ∀ w ∈ FixedWindow.windows cfg.signalWindowMs (attemptTimes cfg reportBound id es),
        w.length ≤ cfg.signalRate ∨ w.length ≤ 2 ^ 31 := by
  rw [meterLog_windows hrate hes hpos, FixedWindow.flatMap_inj fun w => by simp [Meter.windowVerdicts]]
  exact forall₂_congr fun w _ => Meter.windowVerdicts_iff (by omega)

/-- What is counted of a connection in the table. -/
theorem signalsRateLimited_eq (hrate : 1 ≤ cfg.signalRate)
    (hes : (system cfg reportBound).Valid (init cfg reportBound) es) {conn : Conn}
    (hconn : ((system cfg reportBound).after (init cfg reportBound) es).server.connections.get id =
      some conn) :
    conn.signalsRateLimited =
      Meter.counted (Meter.dropped ((meterLog cfg reportBound id es).map Prod.snd)) := by
  have htracks := @meterTracks_of_valid cfg id reportBound es hrate hes
  have hlimited := @Meter.limited_after cfg {} ((meterLog cfg reportBound id es).map Prod.fst) 0 rfl
  rw [← htracks.state conn hconn, ← htracks.verdicts, Nat.zero_add] at hlimited
  exact hlimited

theorem MeterHolds.within (hrate : 1 ≤ cfg.signalRate)
    (hes : (system cfg reportBound).Valid (init cfg reportBound) es)
    (hpos : ∀ t ∈ attemptTimes cfg reportBound id es, 0 < t) (h : MeterHolds cfg reportBound es id) :
    WithinCounts cfg reportBound es id := by
  refine ⟨(verdicts_iff hrate hes hpos).mp h.verdicts, ?_⟩
  rw [← Meter.dropped_windows (by omega), ← h.verdicts]
  by_cases hlog : meterLog cfg reportBound id es = []
  · rw [hlog]
    exact Nat.zero_le _
  · obtain ⟨es₁, es₂, conn, rfl, hsame, hconn⟩ := exists_present hrate hes hlog
    have hcounted := h.counted es₁ es₂ rfl conn hconn
    rw [signalsRateLimited_eq hrate (System.along_append.mp hes).1 hconn, hsame] at hcounted
    exact Meter.counted_eq_iff.mp hcounted

theorem WithinCounts.holds (hrate : 1 ≤ cfg.signalRate) (hwindow : 1 ≤ cfg.signalWindowMs)
    (hes : (system cfg reportBound).Valid (init cfg reportBound) es)
    (hts : (attemptTimes cfg reportBound id es).Pairwise (· ≤ ·))
    (hpos : ∀ t ∈ attemptTimes cfg reportBound id es, 0 < t) (h : WithinCounts cfg reportBound es id) :
    MeterHolds cfg reportBound es id := by
  have hverdicts := (verdicts_iff hrate hes hpos).mpr h.window
  refine ⟨hverdicts, ?_, fun a => ?_, ?_, fun reportBound' es' hes' hsame => ?_⟩
  · rintro es₁ es₂ rfl conn hconn
    rw [signalsRateLimited_eq hrate (System.along_append.mp hes).1 hconn]
    refine Meter.counted_of_le (le_trans ?_ h.total)
    rw [← Meter.dropped_windows (by omega), ← hverdicts, meterLog, meterLog, System.trace_append,
      List.map_append]
    exact (List.sublist_append_left _ _).countP_le
  · rw [hverdicts]
    exact Meter.countP_relayed_le (by omega) (by omega) hts a
  · refine System.Along.of_invariant (I := Tracked) (fun b e hb he => ⟨fun dest payload hattempt => ?_,
      tracked_step hb he⟩) (tracked_init reportBound) hes
    obtain ⟨conn, -, -, -, -, hshown, hshows⟩ := @Server.attempt_spec cfg e.1 b.server id dest payload e.2
      hrate (isReservedId_of_attemptOf hb hattempt) hattempt
    rw [← hshown] at hshows
    exact hshows
  · have hlog := (@meterTracks_of_valid cfg id reportBound es hrate hes).verdicts
    have hlog' := (@meterTracks_of_valid cfg id reportBound' es' hrate hes').verdicts
    unfold attemptTimes at hsame
    rw [hsame, ← hlog] at hlog'
    rw [← List.zip_unzip (meterLog cfg reportBound' id es'), List.unzip_eq_map, hsame, hlog',
      ← List.unzip_eq_map, List.zip_unzip]

/-- **The meter of signals.** In every run a connection is dealt with as it can expect of the meter exactly
when no count of it has to leave its 32 bits. -/
theorem meterHolds_iff (hrate : 1 ≤ cfg.signalRate) (hwindow : 1 ≤ cfg.signalWindowMs)
    (hes : (system cfg reportBound).Valid (init cfg reportBound) es)
    (hts : (attemptTimes cfg reportBound id es).Pairwise (· ≤ ·))
    (hpos : ∀ t ∈ attemptTimes cfg reportBound id es, 0 < t) :
    MeterHolds cfg reportBound es id ↔ WithinCounts cfg reportBound es id :=
  ⟨MeterHolds.within hrate hes hpos, WithinCounts.holds hrate hwindow hes hts hpos⟩

/-- Under a rate of one a connection sends two signals to another. -/
def oneOver : List (Io × Event) :=
  twoAdmitted ++ [({ now := 5 }, .message (js "c1") (.text (.ok (signalTo .null)))),
    ({ now := 6 }, .message (js "c1") (.text (.ok (signalTo .null))))]

/-- The bridge of the defaults with a rate of one. -/
def rateOne : Config := { Server.plain with signalRate := 1 }

theorem meterHolds_oneOver : MeterHolds rateOne false oneOver (js "c1") ∧
    meterLog rateOne false (js "c1") oneOver = [(5, .relay), (6, .drop true)] := by
  have hlog : meterLog rateOne false (js "c1") oneOver = [(5, .relay), (6, .drop true)] := by
    decide +kernel
  have htimes : attemptTimes rateOne false (js "c1") oneOver = [5, 6] := congrArg (List.map Prod.fst) hlog
  refine ⟨(meterHolds_iff (by decide) (by decide) (valid_of_openRun (by decide +kernel)) ?_ ?_).mpr
    ⟨?_, ?_⟩, hlog⟩
  · rw [htimes]
    decide
  · rw [htimes]
    decide
  · rw [htimes]
    decide
  · rw [htimes]
    decide

/-- A signal to a present recipient can be sent again and again. -/
theorem repeated {io : Io} {dest : ConnId} {json : JsVal} (n : Nat) (hadm : b.server.IsAdmitted id)
    (hdest : b.server.connections.has dest = true)
    (htype : JsVal.asString (json.revive.field (js "type")) = some (js "signal"))
    (hto : JsVal.asString (json.revive.field (js "to")) = some dest) :
    (system cfg reportBound).Valid b (List.replicate n (io, .message id (.text (.ok json)))) ∧
      ((system cfg reportBound).trace (meterEntry cfg id) b
        (List.replicate n (io, .message id (.text (.ok json))))).map Prod.fst = List.replicate n io.now := by
  induction n generalizing b with
  | zero => exact ⟨trivial, rfl⟩
  | succ n ih =>
      have hadm' : (b.step cfg (io, .message id (.text (.ok json)))).server.IsAdmitted id :=
        Server.isAdmitted_step hadm Event.noConfusion fun _ _ => Event.noConfusion
      obtain ⟨conn, hget, hconn⟩ := hadm
      have hattempt : b.server.attemptOf id (.message id (.text (.ok json))) =
          some (dest, json.revive.field (js "payload")) :=
        Server.attemptOf_eq_some.mpr ⟨conn, json, rfl, ⟨hget, hconn, htype⟩, hto, hdest, rfl⟩
      obtain ⟨hvalid, htimes⟩ := ih hadm' (Server.has_step hdest fun _ _ => Event.noConfusion)
      have hentry : meterEntry cfg id b (io, .message id (.text (.ok json))) =
          some (io.now, Server.shown id b.server (b.step cfg (io, .message id (.text (.ok json)))).server) := by
        rw [meterEntry, hattempt]
        rfl
      rw [List.replicate_succ, System.trace, hentry, Option.toList_some, List.map_append, List.replicate_succ]
      refine ⟨⟨?_, hvalid⟩, congrArg (io.now :: ·) htimes⟩
      exact JsMap.has_eq_true_iff.mpr (JsMap.mem_keys_of_get hget)

/-- One more signal than the count can take comes within a window. -/
def overflow : List (Io × Event) :=
  twoAdmitted ++ List.replicate (2 ^ 31 + 1)
    ({ now := 5 }, .message (js "c1") (.text (.ok (signalTo .null))))

theorem valid_overflow : (system Server.plain false).Valid (init Server.plain false) overflow ∧
    attemptTimes Server.plain false (js "c1") overflow = List.replicate (2 ^ 31 + 1) 5 := by
  have hadm : withTwo.server.IsAdmitted (js "c1") := Server.isAdmitted_iff.mpr (by decide +kernel)
  have hdest : withTwo.server.connections.has (js "c2") = true := by decide +kernel
  have hnone : meterLog Server.plain false (js "c1") twoAdmitted = [] := by decide +kernel
  obtain ⟨hvalid, htimes⟩ := @repeated Server.plain withTwo (js "c1") false { now := 5 } (js "c2")
    (signalTo .null) (2 ^ 31 + 1) hadm hdest rfl rfl
  refine ⟨System.along_append.mpr ⟨valid_twoAdmitted, hvalid⟩, ?_⟩
  unfold meterLog at hnone
  rw [attemptTimes, meterLog, overflow, System.trace_append, hnone, List.nil_append]
  exact htimes

/-- The `2 ^ 31 + 1`-st signal of a window is relayed, far above the rate. -/
theorem not_meterHolds_overflow : ¬MeterHolds Server.plain false overflow (js "c1") := by
  obtain ⟨hvalid, htimes⟩ := valid_overflow
  intro h
  have hmem : ∀ t ∈ attemptTimes Server.plain false (js "c1") overflow, t = 5 := by
    rw [htimes]
    exact fun t ht => List.eq_of_mem_replicate ht
  have hwithin := h.within (by decide) hvalid fun t ht => by
    rw [hmem t ht]
    decide
  have hone := FixedWindow.windows_replicate (W := Server.plain.signalWindowMs) (t := (5 : Int)) (2 ^ 31)
    (by decide)
  have hlength := hwithin.window (List.replicate (2 ^ 31 + 1) 5) (by
    rw [htimes, hone]
    exact List.mem_singleton_self _)
  rw [List.length_replicate] at hlength
  have hrate : Server.plain.signalRate = 600 := rfl
  omega

end Bridge

end AxonaBridge
