import AxonaBridge.BridgeListening
import AxonaBridge.BridgeReleasedOnce

/-!
# The sweep, judged from the log

A sweep reads of a connection when its socket was accepted and when it last sent something, and of the
loop when it last stood still. All three are told by the events alone, in whatever order they came. So
whom a sweep cuts off is settled by what was sent and when, and by nothing a handler did in between.
-/

open JsText

namespace AxonaBridge

/-- When a socket was accepted, and when it last sent something. -/
structure Clock where
  since : Int
  lastSeenAt : Int

namespace Clock

/-- What an event makes of the clock of a connection. -/
def step (id : ConnId) (c : Option Clock) (e : Io × Event) : Option Clock :=
  match e.2 with
  | .connect id' => if id' = id then some { since := e.1.now, lastSeenAt := e.1.now } else c
  | .message id' _ => if id' = id then c.map fun c => { c with lastSeenAt := e.1.now } else c
  | .closed id' _ _ => if id' = id then none else c
  | _ => c

/-- The clock of a connection after a list of events, where its socket is open. -/
def ofLog (id : ConnId) (es : List (Io × Event)) : Option Clock := es.foldl (step id) none

end Clock

def Conn.clock (c : Conn) : Clock where
  since := c.since
  lastSeenAt := c.lastSeenAt

/-- The sampler of the loop after a list of events. -/
def GapSampler.ofLog (loadedAt : Int) (es : List (Io × Event)) : GapSampler :=
  es.foldl (fun g e => match e.2 with
    | .heartbeat => g.tick 1000 2000 e.1.now
    | _ => g) { lastAt := loadedAt, gapEndAt := 0 }

/-- The connection a termination is of. -/
def Out.terminated : Out → Option ConnId
  | .terminate connId => some connId
  | _ => none

namespace Server

variable {cfg : Config} {io : Io} {s t u : Server} {id : ConnId} {e : Event}

/-! ### The clock of a connection -/

/-- The clock the table has of a connection. -/
def clock (s : Server) (id : ConnId) : Option Clock := (s.connections.get id).map Conn.clock

theorem looks_clock : Looks fun o o' => o'.map Conn.clock = o.map Conn.clock where
  refl o := rfl
  trans h h' := h'.trans h
  aside {c c'} h := by
    rw [h]
    rfl
  hello c msg _ := rfl
  admission c _ := rfl

theorem clock_meter (conn : Conn) : (meter cfg io conn).2.clock = conn.clock := by
  have hopen : (openWindow cfg io conn).clock = conn.clock := by
    unfold openWindow
    split <;> rfl
  unfold meter
  dsimp only
  split <;> exact hopen

theorem clock_connect : (s.step cfg io (.connect id)).clock id = some { since := io.now, lastSeenAt := io.now } := by
  change (s.onConnection cfg io id).clock id = _
  unfold clock onConnection
  dsimp only
  rw [connections_sendTo, connections_logInfo, JsMap.get_set_self]
  rfl

theorem clock_closed {code : Nat} {reason : JsString} : (s.step cfg io (.closed id code reason)).clock id = none := by
  change (s.onClose cfg io id code reason).clock id = none
  unfold clock onClose
  cases hget : s.connections.get id with
  | none => exact congrArg (Option.map Conn.clock) hget
  | some conn =>
      dsimp only
      rw [connections_logInfo, connections_broadcast, JsMap.get_delete_self]
      rfl

/-- A message stamps the clock of its connection and does nothing else to it. -/
theorem clock_message {data : Inbound} : (s.step cfg io (.message id data)).clock id =
    (s.clock id).map fun c => { c with lastSeenAt := io.now } := by
  change (s.onMessage cfg io id data).1.clock id = _
  cases hget : s.connections.get id with
  | none =>
      unfold clock onMessage
      rw [hget]
      exact congrArg (Option.map Conn.clock) hget
  | some conn =>
      have hrest : (s.onMessage cfg io id data).1.clock id =
          (s.modifyConn id fun _ => { conn with lastSeenAt := io.now }).clock id :=
        (@Looks.overlooks cfg _ looks_clock id).onMessage_heard hget data
          (fun _ _ _ _ _ _ _ => congrArg some (clock_meter _))
          fun _ _ _ t c => looks_clock.of_connections (by simp [releaseSocket])
      rw [hrest]
      unfold clock
      rw [get_heard hget, hget]
      rfl

/-- Every event moves the clock as the log says. -/
theorem clock_step (e : Io × Event) : (s.step cfg e.1 e.2).clock id = Clock.step id (s.clock id) e := by
  have hkept : ∀ {event : Event}, event ≠ .connect id → (∀ data, event ≠ .message id data) →
      (∀ code reason, event ≠ .closed id code reason) →
      (s.step cfg e.1 event).clock id = s.clock id := by
    intro event hconnect hmessage hclosed
    exact looks_clock.step hconnect (fun _ data heq _ => absurd heq (hmessage data))
      (fun code reason heq => absurd heq (hclosed code reason))
      (fun _ _ _ _ _ _ _ => congrArg some (clock_meter _))
  obtain ⟨io, event⟩ := e
  unfold Clock.step
  cases event with
  | connect id' =>
      dsimp only
      by_cases hid : id' = id
      · rw [if_pos hid, hid]
        exact clock_connect
      · rw [if_neg hid]
        exact hkept (fun heq => hid (Event.connect.inj heq)) (fun _ heq => by cases heq)
          fun _ _ heq => by cases heq
  | message id' data =>
      dsimp only
      by_cases hid : id' = id
      · rw [if_pos hid, hid]
        exact clock_message
      · rw [if_neg hid]
        exact hkept (fun heq => by cases heq) (fun _ heq => hid (Event.message.inj heq).1)
          fun _ _ heq => by cases heq
  | closed id' code reason =>
      dsimp only
      by_cases hid : id' = id
      · rw [if_pos hid, hid]
        exact clock_closed
      · rw [if_neg hid]
        exact hkept (fun heq => by cases heq) (fun _ heq => by cases heq)
          fun _ _ heq => hid (Event.closed.inj heq).1
  | _ => exact hkept (fun heq => by cases heq) (fun _ heq => by cases heq) fun _ _ heq => by cases heq

/-! ### Whom a sweep cuts off -/

/-- The connections that were terminated, in order. -/
def terminated (s : Server) : List ConnId := s.out.filterMap Out.terminated

theorem terminated_of_append {o : Out} (ho : o.terminated = none) (hout : t.out = s.out ++ [o]) :
    t.terminated = s.terminated := by
  unfold terminated
  rw [hout, List.filterMap_append, List.filterMap_cons_none ho, List.filterMap_nil, List.append_nil]

theorem terminated_log (row : LogRow) : (s.log cfg row).terminated = s.terminated := by
  unfold log
  split
  · rfl
  · exact terminated_of_append (o := .log row) rfl rfl

theorem terminated_kickUnbound (e : ConnId × Conn) : (s.kickUnbound cfg io e).terminated = s.terminated := by
  have hclosed : ∀ {u : Server} {code : Nat} {reason : JsString},
      (u.wsClose io e.1 code reason).terminated = u.terminated := fun {u code reason} =>
    terminated_of_append (o := .close e.1 code reason (closeThrows io e.1 reason)) rfl rfl
  unfold kickUnbound
  dsimp only
  split
  · exact (terminated_log _).trans (hclosed.trans (terminated_log _))
  · exact hclosed.trans (terminated_log _)

theorem terminated_kickIdle (e : ConnId × Conn) : (s.kickIdle cfg io e).terminated = s.terminated ++ [e.1] := by
  unfold kickIdle
  dsimp only
  rw [← @terminated_log cfg s]
  unfold terminated
  rw [List.filterMap_append]
  rfl

/-- The connections a sweep finds silent. -/
def foundIdle (cfg : Config) (io : Io) (s : Server) : List (ConnId × Conn) :=
  if SweepDue cfg io s then s.connections.entries.filter (isIdle cfg io) else []

theorem terminated_sweep : (s.sweepIdleConnections cfg io).terminated =
    s.terminated ++ (s.foundIdle cfg io).map Prod.fst := by
  have hunbound : ∀ (entries : List (ConnId × Conn)) (s : Server),
      (entries.foldl (fun s e => s.kickUnbound cfg io e) s).terminated = s.terminated := by
    intro entries
    induction entries with
    | nil => exact fun s => rfl
    | cons e entries ih =>
        intro s
        rw [List.foldl_cons, ih, terminated_kickUnbound]
  have hidle : ∀ (entries : List (ConnId × Conn)) (s : Server),
      (entries.foldl (fun s e => s.kickIdle cfg io e) s).terminated =
        s.terminated ++ entries.map Prod.fst := by
    intro entries
    induction entries with
    | nil => exact fun s => (List.append_nil _).symm
    | cons e entries ih =>
        intro s
        rw [List.foldl_cons, ih, terminated_kickIdle, List.append_assoc]
        rfl
  unfold sweepIdleConnections foundIdle
  by_cases hdue : SweepDue cfg io s
  · rw [if_pos hdue, if_neg (by rw [hdue]; exact Bool.false_ne_true)]
    dsimp only
    rw [hidle, hunbound]
  · rw [if_neg hdue, if_pos (Bool.not_eq_false _ ▸ hdue)]
    rw [logInfo, terminated_log, List.map_nil, List.append_nil]

theorem sweepDue_iff : SweepDue cfg io s ↔
    ¬s.record.sampler.Sees 1000 2000 (io.now - cfg.idleTimeoutMs) io.now := by
  rw [← sees_iff, Bool.not_eq_true]
  rfl

theorem mem_foundIdle_iff : id ∈ (s.foundIdle cfg io).map Prod.fst ↔
    SweepDue cfg io s ∧ ∃ c, s.clock id = some c ∧ cfg.idleTimeoutMs < io.now - c.lastSeenAt := by
  unfold foundIdle clock
  by_cases hdue : SweepDue cfg io s
  · rw [if_pos hdue, and_iff_right hdue, List.mem_map]
    constructor
    · rintro ⟨e, he, rfl⟩
      obtain ⟨hmem, hidle⟩ := List.mem_filter.mp he
      exact ⟨e.2.clock, by rw [JsMap.mem_entries_iff.mp hmem]; rfl, of_decide_eq_true hidle⟩
    · rintro ⟨c, hc, hidle⟩
      obtain ⟨conn, hget, rfl⟩ := Option.map_eq_some_iff.mp hc
      exact ⟨(id, conn), List.mem_filter.mpr ⟨JsMap.mem_entries_iff.mpr hget, decide_eq_true hidle⟩, rfl⟩
  · rw [if_neg hdue]
    exact iff_of_false List.not_mem_nil fun h => hdue h.1

/-- Admitted, and without an identity of its own. -/
def Unbound (s : Server) (id : ConnId) : Prop :=
  s.IsAdmitted id ∧ ∀ nodeId, s.node.transport.nodeIdByConnId.get id = some nodeId → nodeId = 0

theorem mem_foundUnbound_iff : id ∈ (s.foundUnbound cfg io).map Prod.fst ↔
    SweepDue cfg io s ∧ s.Unbound id ∧ ∃ c, s.clock id = some c ∧
      io.now - c.lastSeenAt ≤ cfg.idleTimeoutMs ∧ 0 < cfg.unboundKickMs ∧ cfg.unboundKickMs < io.now - c.since := by
  unfold foundUnbound clock
  by_cases hdue : SweepDue cfg io s
  · rw [if_pos hdue, and_iff_right hdue, List.mem_map]
    have htest : ∀ conn, (!isIdle cfg io (id, conn) && s.isUnbound cfg io (id, conn)) = true ↔
        io.now - conn.lastSeenAt ≤ cfg.idleTimeoutMs ∧ 0 < cfg.unboundKickMs ∧ conn.admitted = true ∧
          cfg.unboundKickMs < io.now - conn.since ∧
          ∀ nodeId, s.node.transport.nodeIdByConnId.get id = some nodeId → nodeId = 0 := by
      intro conn
      unfold isIdle isUnbound
      dsimp only
      rw [Bool.and_eq_true, Bool.not_eq_true', decide_eq_false_iff_not, not_lt, Bool.and_eq_true,
        Bool.and_eq_true, Bool.and_eq_true, decide_eq_true_eq, decide_eq_true_eq, Option.all_eq_true,
        and_assoc, and_assoc]
      simp only [decide_eq_true_eq]
    constructor
    · rintro ⟨⟨id', conn⟩, he, rfl⟩
      obtain ⟨hmem, hfound⟩ := List.mem_filter.mp he
      have hget := JsMap.mem_entries_iff.mp hmem
      obtain ⟨hheard, hon, hadm, hlate, hbound⟩ := (htest conn).mp hfound
      exact ⟨⟨⟨conn, hget, hadm⟩, hbound⟩, conn.clock,
        by rw [hget]; rfl, hheard, hon, hlate⟩
    · rintro ⟨⟨hadm, hbound⟩, c, hc, hheard, hon, hlate⟩
      obtain ⟨conn, hget, rfl⟩ := Option.map_eq_some_iff.mp hc
      obtain ⟨conn', hget', hadm⟩ := hadm
      cases hget.symm.trans hget'
      exact ⟨(id, conn), List.mem_filter.mpr ⟨JsMap.mem_entries_iff.mpr hget,
        (htest conn).mpr ⟨hheard, hon, hadm, hlate, hbound⟩⟩, rfl⟩
  · rw [if_neg hdue]
    exact iff_of_false List.not_mem_nil fun h => hdue h.1

end Server

namespace Bridge

variable {cfg : Config} {reportBound : Bool} {id : ConnId} {es : List (Io × Event)}

theorem clock_after (b : Bridge) : ((system cfg reportBound).after b es).server.clock id =
    es.foldl (Clock.step id) (b.server.clock id) := by
  induction es generalizing b with
  | nil => rfl
  | cons e es ih =>
      rw [System.after_cons, ih, List.foldl_cons, ← Server.clock_step e]
      rfl

theorem sampler_after (b : Bridge) : ((system cfg reportBound).after b es).server.record.sampler =
    es.foldl (fun g e => match e.2 with
      | .heartbeat => g.tick 1000 2000 e.1.now
      | _ => g) b.server.record.sampler := by
  induction es generalizing b with
  | nil => rfl
  | cons e es ih =>
      have hstep : (b.server.step cfg e.1 e.2).record.sampler = (match e.2 with
          | .heartbeat => b.server.record.sampler.tick 1000 2000 e.1.now
          | _ => b.server.record.sampler) := by
        split
        · rename_i hbeat
          rw [hbeat]
          exact congrArg Record.sampler Server.record_onHeartbeat
        · rename_i hbeat
          exact Server.sampler_step hbeat
      rw [System.after_cons, ih, List.foldl_cons, ← hstep]
      rfl

/-- **A sweep judges by the log.** After any events at all a sweep terminates, each once, the connections
that the events show to have sent nothing for longer than the timeout, and it closes those among the
others that the events show to be past their deadline and the node has no identity of. Where the
heartbeats among the events show the loop to have stood still it does neither. -/
theorem sweep_judges (cfg : Config) (reportBound : Bool) (es : List (Io × Event)) (io : Io) :
    ∃ silent unbound : List ConnId, silent.Nodup ∧ unbound.Nodup ∧
      ((system cfg reportBound).after (init cfg reportBound) (es ++ [(io, .sweep)])).server.terminated =
        ((system cfg reportBound).after (init cfg reportBound) es).server.terminated ++ silent ∧
      (∀ id, (∃ code reason threw, Server.Added
          ((system cfg reportBound).after (init cfg reportBound) es).server
          ((system cfg reportBound).after (init cfg reportBound) (es ++ [(io, .sweep)])).server
          (.close id code reason threw)) ↔ id ∈ unbound) ∧
      (∀ id, id ∈ silent ↔
        ¬(GapSampler.ofLog cfg.loadedAt es).Sees 1000 2000 (io.now - cfg.idleTimeoutMs) io.now ∧
          ∃ c, Clock.ofLog id es = some c ∧ cfg.idleTimeoutMs < io.now - c.lastSeenAt) ∧
      ∀ id, id ∈ unbound ↔
        ¬(GapSampler.ofLog cfg.loadedAt es).Sees 1000 2000 (io.now - cfg.idleTimeoutMs) io.now ∧
          ((system cfg reportBound).after (init cfg reportBound) es).server.Unbound id ∧
          ∃ c, Clock.ofLog id es = some c ∧ io.now - c.lastSeenAt ≤ cfg.idleTimeoutMs ∧
            0 < cfg.unboundKickMs ∧ cfg.unboundKickMs < io.now - c.since := by
  have hclock : ∀ id, ((system cfg reportBound).after (init cfg reportBound) es).server.clock id =
      Clock.ofLog id es := fun id => clock_after _
  have hsampler : ((system cfg reportBound).after (init cfg reportBound) es).server.record.sampler =
      GapSampler.ofLog cfg.loadedAt es := sampler_after _
  rw [System.after_append]
  generalize (system cfg reportBound).after (init cfg reportBound) es = b at *
  have hdue := @Server.sweepDue_iff cfg io b.server
  rw [hsampler] at hdue
  refine ⟨(b.server.foundIdle cfg io).map Prod.fst, (b.server.foundUnbound cfg io).map Prod.fst, ?_,
    Server.nodup_foundUnbound, Server.terminated_sweep, fun id => Server.shuts_sweep.added_iff,
    fun id => ?_, fun id => ?_⟩
  · unfold Server.foundIdle
    split
    · exact b.server.connections.nodup.sublist (List.filter_sublist.map _)
    · exact List.nodup_nil
  · rw [Server.mem_foundIdle_iff, hdue, hclock]
  · rw [Server.mem_foundUnbound_iff, hdue, hclock]

end Bridge

end AxonaBridge
