import AxonaBridge.BridgeAdmission
import AxonaBridge.GapSampler
import AxonaBridge.ServerRecord

/-!
# Judgments of time the loop did not listen

A blocked loop reads no frame. When it resumes, its expired timers fire in any order, so the sweep and
the hello timers may run before the tick of the sampler that records the stall. The sweep judges by no
window that a stall ended in. A hello timer judges the wait from the connect so, and grants its one
grace; the wait after the grace is not judged by stalls.
-/

open JsText

namespace AxonaBridge

/-- The sampler of the loop: `lastHeartbeatAt` and `lastStallEndAt`. -/
def Record.sampler (r : Record) : GapSampler where
  lastAt := r.lastHeartbeatAt
  gapEndAt := r.lastStallEndAt

namespace Record

theorem sampler_noteGraduated (r : Record) (now : Int) (nh : Option JsString) :
    (r.noteGraduated now nh).sampler = r.sampler := by
  cases nh <;> rfl

/-- A change of marks that leaves what a connection waits for alone. -/
theorem mark_modify {r : Record} {id connId : ConnId} {f : Mark → Mark} {m' : Mark}
    (hm' : (r.modify id f).marks connId = some m')
    (hf : ∀ m, (f m).since = m.since ∧ (f m).helloRetried = m.helloRetried) :
    ∃ m, r.marks connId = some m ∧ m'.since = m.since ∧ m'.helloRetried = m.helloRetried := by
  obtain ⟨m, hm, ⟨-, rfl⟩ | rfl⟩ := exists_of_marks_modify hm'
  · exact ⟨m, hm, hf m⟩
  · exact ⟨m', hm, rfl, rfl⟩

end Record

namespace Server

variable {cfg : Config} {io : Io} {s : Server}

theorem sampler_step {e : Event} (hne : e ≠ .heartbeat) :
    (s.step cfg io e).record.sampler = s.record.sampler := by
  have hremembers := remembers_step cfg io s e
  generalize (s.step cfg io e).record = r at hremembers ⊢
  cases hremembers with
  | heartbeat => exact absurd rfl hne
  | released hreleases => exact Record.sampler_noteGraduated _ _ _
  | graduated hdue hpick => exact Record.sampler_noteGraduated _ _ _
  | _ => rfl

/-- What both judgments ask: `stallTaintedSince(since) || stallPending(now)`. -/
theorem sees_iff {since : Int} : (s.stallTaintedSince since || s.stallPending io) = true ↔
    s.record.sampler.Sees 1000 2000 since io.now := by
  unfold stallTaintedSince stallPending
  rw [Bool.or_eq_true, decide_eq_true_eq, decide_eq_true_eq]
  have hlate : io.now - s.lastHeartbeatAt - 1000 = s.record.sampler.lateBy 1000 io.now := rfl
  rw [hlate]
  rfl

/-- A stall that nothing ran in is covered by the sampler through every event. -/
theorem covers_step {e : Event} {start stop : Int} (hlong : 1000 + 2000 ≤ stop - start)
    (h : s.record.sampler.Covers start stop) (hnow : io.now ≤ start ∨ stop ≤ io.now) :
    (s.step cfg io e).record.sampler.Covers start stop := by
  by_cases hbeat : e = .heartbeat
  · rw [hbeat]
    have htick : (s.step cfg io .heartbeat).record.sampler = s.record.sampler.tick 1000 2000 io.now :=
      congrArg Record.sampler record_onHeartbeat
    rw [htick]
    exact GapSampler.covers_tick hlong h hnow
  · rw [sampler_step hbeat]
    exact h

theorem cuts_sweep_of_sees {C : ConnId → Prop}
    (h : s.record.sampler.Sees 1000 2000 (io.now - cfg.idleTimeoutMs) io.now) :
    Cuts C s (s.step cfg io .sweep) := by
  unfold step sweepIdleConnections
  rw [if_pos (sees_iff.mpr h)]
  exact cuts_logInfo _ _

/-! ### The hello timer -/

/-- The timer finds the connection without a client-hello, and grants it the grace. -/
def GrantsGrace (io : Io) (s : Server) (id : ConnId) : Prop :=
  ∃ conn, s.connections.get id = some conn ∧ conn.admitted = false ∧ conn.helloRetried = false ∧
    (s.stallTaintedSince conn.since || s.stallPending io) = true

instance (id : ConnId) : Decidable (GrantsGrace io s id) :=
  decidable_of_iff ((s.connections.get id).any fun conn => conn.admitted = false ∧
      conn.helloRetried = false ∧ (s.stallTaintedSince conn.since || s.stallPending io) = true) (by
    rw [Option.any_eq_true]
    exact exists_congr fun conn => and_congr_right fun _ => decide_eq_true_iff)

/-- The timer closes the connection where it is not admitted and gets no grace. -/
theorem added_onHelloTimeout_iff {id : ConnId} :
    (∃ reason threw, Added s (s.onHelloTimeout cfg io id) (.close id helloTimeoutCode reason threw)) ↔
      s.admission id = some false ∧ ¬GrantsGrace io s id := by
  have hnone : ∀ {t : Server}, Cuts (fun _ => False) s t →
      ¬∃ reason threw, Added s t (.close id helloTimeoutCode reason threw) := by
    rintro t hcuts ⟨reason, threw, hadded⟩
    exact hcuts.added hadded rfl
  unfold onHelloTimeout
  split
  · rename_i hget
    refine iff_of_false (hnone Cuts.refl) fun h => ?_
    rw [admission, hget] at h
    cases h.1
  · rename_i conn hget
    have hadmission : s.admission id = some conn.admitted := by
      rw [admission, hget]
      rfl
    split
    · rename_i hadm
      refine iff_of_false (hnone Cuts.refl) fun h => ?_
      rw [hadmission, hadm] at h
      cases h.1
    · rename_i hadm
      rw [Bool.not_eq_true] at hadm
      split
      · rename_i hgrace
        rw [Bool.and_eq_true, Bool.not_eq_true'] at hgrace
        refine iff_of_false (hnone ?_) fun h => h.2 ⟨conn, hget, hadm, hgrace⟩
        exact Cuts.trans (Cuts.of_out_eq rfl) (cuts_logInfo _ _)
      · rename_i hgrace
        refine iff_of_true ?_ ⟨by rw [hadmission, hadm], ?_⟩
        · refine ⟨_, _, Added.after (P := fun _ _ => True) ?_ (added_wsClose id helloTimeoutCode _)⟩
          exact Emits.trans (Emits.of_out_eq rfl) (emits_logErr _ _)
        · rintro ⟨conn', hget', -, hfirst, hstall⟩
          cases hget.symm.trans hget'
          refine hgrace ?_
          rw [hfirst, hstall]
          rfl

/-- The grace is granted once. -/
theorem marks_of_grantsGrace {id : ConnId} (h : GrantsGrace io s id) :
    ((s.step cfg io (.helloTimeout id)).record.marks id).all (·.helloRetried) = true := by
  obtain ⟨conn, hget, hadm, hfirst, hstall⟩ := h
  have hgrace : (!conn.helloRetried && (s.stallTaintedSince conn.since || s.stallPending io)) = true := by
    rw [hfirst, hstall]
    rfl
  have hstep : s.step cfg io (.helloTimeout id) = s.onHelloTimeout cfg io id := rfl
  rw [hstep, onHelloTimeout, hget]
  dsimp only
  rw [hadm, if_neg Bool.false_ne_true, if_pos hgrace, record_logInfo, marks_record, get_modifyConn,
    if_pos rfl, hget]
  rfl

/-- The event sets the hello timer: the connection comes, or gets its grace. -/
def SetsHelloTimer (io : Io) (s : Server) (e : Event) (id : ConnId) : Prop :=
  e = .connect id ∨ (e = .helloTimeout id ∧ GrantsGrace io s id)

/-- A connection that stays keeps what it waits from, and is marked by its grace alone. -/
theorem mark_step {e : Event} {id : ConnId} {m' : Mark} (hset : ¬SetsHelloTimer io s e id)
    (hm' : (s.step cfg io e).record.marks id = some m') :
    ∃ m, s.record.marks id = some m ∧ m'.since = m.since ∧ m'.helloRetried = m.helloRetried := by
  have hremembers := remembers_step cfg io s e
  generalize (s.step cfg io e).record = r at hremembers hm'
  cases hremembers with
  | connect connId =>
      have hne : id ≠ connId := fun heq => hset (Or.inl (by rw [heq]))
      dsimp only [Record.enter] at hm'
      rw [if_neg hne] at hm'
      exact ⟨m', hm', rfl, rfl⟩
  | closed connId code reason =>
      dsimp only [Record.enter] at hm'
      split at hm'
      · cases hm'
      · exact ⟨m', hm', rfl, rfl⟩
  | @grace connId conn hget hadm hfirst hstall =>
      have hne : id ≠ connId := by
        intro heq
        refine hset (Or.inr ⟨by rw [heq], conn, ?_, hadm, hfirst, hstall⟩)
        rw [heq]
        exact hget
      dsimp only [Record.modify] at hm'
      rw [if_neg hne] at hm'
      exact ⟨m', hm', rfl, rfl⟩
  | refused => exact Record.mark_modify hm' fun _ => ⟨rfl, rfl⟩
  | credential => exact Record.mark_modify hm' fun _ => ⟨rfl, rfl⟩
  | introduced =>
      obtain ⟨m, hm, hsince, hretried⟩ := Record.mark_modify hm' fun _ => ⟨rfl, rfl⟩
      obtain ⟨m₀, hm₀, hsince₀, hretried₀⟩ := Record.mark_modify hm fun _ => ⟨rfl, rfl⟩
      exact ⟨m₀, hm₀, hsince.trans hsince₀, hretried.trans hretried₀⟩
  | relisted => exact Record.mark_modify hm' fun _ => ⟨rfl, rfl⟩
  | released => exact ⟨m', (Record.marks_noteGraduated _ _ _) ▸ hm', rfl, rfl⟩
  | graduated => exact ⟨m', (Record.marks_noteGraduated _ _ _) ▸ hm', rfl, rfl⟩
  | _ => exact ⟨m', hm', rfl, rfl⟩

end Server

namespace Bridge

variable {cfg : Config} {reportBound : Bool} {es es₁ es₂ es₃ : List (Io × Event)} {a e : Io × Event}
  {id : ConnId} {start stop : Int}

/-- The loop is blocked between the two moments of a run: nothing executes. -/
structure Blocked (cfg : Config) (es : List (Io × Event)) (start stop : Int) : Prop where
  loaded : cfg.loadedAt ≤ start
  silent : ∀ e ∈ es, time e ≤ start ∨ stop ≤ time e

theorem Blocked.left (h : Blocked cfg (es₁ ++ es₂) start stop) : Blocked cfg es₁ start stop where
  loaded := h.loaded
  silent := fun e he => h.silent e (List.mem_append_left _ he)

/-- The sampler covers every interval the loop was blocked for that is long enough to be a stall. -/
theorem covers_of_blocked (h : Blocked cfg es start stop) (hlong : 2000 + 1000 ≤ stop - start) :
    ((system cfg reportBound).after (init cfg reportBound) es).server.record.sampler.Covers start stop := by
  induction es using List.reverseRecOn with
  | nil => exact Or.inl h.loaded
  | append_singleton es e ih =>
      rw [System.after_append]
      refine Server.covers_step (by omega) (ih h.left) (h.silent e ?_)
      exact List.mem_append_right _ (List.mem_singleton_self e)

/-- A sweep cuts off no connection if the moment is in the window it judges by. -/
def SweepSpares (cfg : Config) (stop : Int) (b : Bridge) (e : Io × Event) : Prop :=
  e.2 = .sweep → time e - cfg.idleTimeoutMs ≤ stop → stop ≤ time e →
    Server.Cuts (fun _ => False) b.server (b.step cfg e).server

/-- **The sweep judges no window that a stall ended in**, for every interval of a run in which the loop
was blocked for `STALL_MIN_MS + STALL_SAMPLE_MS` or longer. The events of the run come in any order,
and its heartbeats whenever they come. -/
theorem sweepSpares_along (h : Blocked cfg es start stop) (hlong : 2000 + 1000 ≤ stop - start) :
    (system cfg reportBound).Along (SweepSpares cfg stop) (init cfg reportBound) es := by
  rw [System.along_iff_split]
  rintro es₁ ⟨io, e⟩ es₂ rfl hsweep hfrom hto
  cases hsweep
  have hcovers := @covers_of_blocked cfg reportBound es₁ start stop h.left hlong
  exact Server.cuts_sweep_of_sees (hcovers.sees (by omega) hfrom hto)

/-- A connection comes, the loop is blocked past the idle window, and the sweep fires first. -/
def sweepsFirst : List (Io × Event) := [({}, .connect (js "c1")), ({ now := 16000 }, .sweep)]

theorem sweepSpares_sweepsFirst :
    (system Server.plain false).Valid (init Server.plain false) sweepsFirst ∧
      System.Forward time sweepsFirst ∧
      (system Server.plain false).Along (SweepSpares Server.plain 16000) (init Server.plain false)
        sweepsFirst := by
  refine ⟨⟨?_, trivial, trivial⟩, ?_, @sweepSpares_along Server.plain false sweepsFirst 0 16000 ?_ (by decide)⟩
  · change js "c1" = mintConnId 1
    decide +kernel
  · unfold System.Forward
    decide
  · exact ⟨le_refl _, by decide⟩

/-! ### The hello deadline -/

/-- The hello timer of the connection fires and closes it with 4408. -/
def ClosesLate (cfg : Config) (b : Bridge) (e : Io × Event) (id : ConnId) : Prop :=
  e.2 = .helloTimeout id ∧
    ∃ reason threw, Server.Added b.server (b.step cfg e).server (.close id helloTimeoutCode reason threw)

/-- A wait for the client-hello of a connection: `a` sets its timer, which fires with `e` and which no
event in between sets again. -/
structure Waits (cfg : Config) (reportBound : Bool) (b : Bridge) (a : Io × Event)
    (es : List (Io × Event)) (e : Io × Event) (id : ConnId) : Prop where
  sets : Server.SetsHelloTimer a.1 b.server a.2 id
  kept : (system cfg reportBound).Along (fun b e => ¬Server.SetsHelloTimer e.1 b.server e.2 id)
    (b.step cfg a) es
  fires : e.2 = .helloTimeout id

/-- No stall ends in a wait that a close with 4408 ends. -/
def JudgesListening (cfg : Config) (reportBound : Bool) (es : List (Io × Event)) : Prop :=
  ∀ es₁ a es₂ e es₃ id, es = es₁ ++ a :: (es₂ ++ e :: es₃) →
    Waits cfg reportBound ((system cfg reportBound).after (init cfg reportBound) es₁) a es₂ e id →
      ClosesLate cfg ((system cfg reportBound).after (init cfg reportBound) (es₁ ++ a :: es₂)) e id →
        ∀ start stop, Blocked cfg es start stop → 2000 + 1000 ≤ stop - start →
          ¬(time a ≤ stop ∧ stop ≤ time e)

/-- The id has been minted, and a connection under it is marked so. -/
def Marked (b : Bridge) (id : ConnId) (P : Mark → Prop) : Prop :=
  (∃ i, i ≤ b.connSeq ∧ id = mintConnId i) ∧ ∀ m, b.server.record.marks id = some m → P m

theorem Marked.step {b : Bridge} {P : Mark → Prop} (h : b.Marked id P)
    (hP : ∀ m m', P m → m'.since = m.since → m'.helloRetried = m.helloRetried → P m')
    (hset : ¬Server.SetsHelloTimer e.1 b.server e.2 id) : (b.step cfg e).Marked id P := by
  obtain ⟨⟨i, hi, hid⟩, hmark⟩ := h
  refine ⟨⟨i, hi.trans connSeq_le_step, hid⟩, fun m' hm' => ?_⟩
  obtain ⟨m, hm, hsince, hretried⟩ := Server.mark_step hset hm'
  exact hP m m' (hmark m hm) hsince hretried

/-- A connection that has had its grace gets no other. -/
theorem not_setsHelloTimer {b : Bridge} (h : b.Marked id fun m => m.helloRetried = true)
    (he : b.Enabled cfg e) : ¬Server.SetsHelloTimer e.1 b.server e.2 id := by
  rintro (hconnect | ⟨-, conn, hget, -, hfirst, -⟩)
  · exact ne_connect_of_minted he h.1 hconnect
  · have hretried := h.2 conn.mark (congrArg (Option.map Conn.mark) hget)
    cases hfirst.symm.trans hretried

theorem Marked.after {b : Bridge} {P : Mark → Prop} (h : b.Marked id P)
    (hP : ∀ m m', P m → m'.since = m.since → m'.helloRetried = m.helloRetried → P m')
    (hkept : (system cfg reportBound).Along (fun b e => ¬Server.SetsHelloTimer e.1 b.server e.2 id) b es) :
    ((system cfg reportBound).after b es).Marked id P :=
  System.Along.invariant (I := fun b => Marked b id P) (fun _ _ hb hset => hb.step hP hset) h hkept

/-- A connection that comes is marked by when. -/
theorem marked_connect {b : Bridge} (he : b.Enabled cfg e) (hconnect : e.2 = .connect id) :
    (b.step cfg e).Marked id fun m => m.since = time e ∧ m.helloRetried = false := by
  obtain ⟨io, e⟩ := e
  cases hconnect
  refine ⟨⟨b.connSeq + 1, le_refl _, he⟩, fun m hm => ?_⟩
  have hrecord : (b.step cfg (io, .connect id)).server.record = b.server.record.enter id (some
      { since := io.now, admitted := false, helloRetried := false, turnRefreshOnly := false,
        intro := none }) := Server.record_onConnection id
  rw [hrecord] at hm
  dsimp only [Record.enter] at hm
  rw [if_pos rfl] at hm
  cases hm
  exact ⟨rfl, rfl⟩

/-- A connection that gets its grace is marked by it. -/
theorem marked_grace {b : Bridge} (hb : b.Tracked) (hfires : e.2 = .helloTimeout id)
    (hgrace : Server.GrantsGrace e.1 b.server id) :
    (b.step cfg e).Marked id fun m => m.helloRetried = true := by
  obtain ⟨io, e⟩ := e
  cases hfires
  have hall := @Server.marks_of_grantsGrace cfg io b.server id hgrace
  obtain ⟨conn, hget, -⟩ := hgrace
  have hpresent : (b.server.admission id).isSome = true := by
    rw [Server.admission, hget]
    rfl
  obtain ⟨i, hi, hid⟩ := hb.minted id (Or.inr hpresent)
  refine ⟨⟨i, hi, hid⟩, fun m hm => ?_⟩
  have hm' : (b.server.step cfg io (.helloTimeout id)).record.marks id = some m := hm
  rw [hm', Option.all_some] at hall
  exact hall

/-- No stall that ends in the first wait of a connection goes unseen where the wait ends. -/
theorem grantsGrace_of_blocked {b : Bridge} (hadm : b.server.admission id = some false)
    (hmarked : b.Marked id fun m => m.since = time a ∧ m.helloRetried = false)
    (hcovers : b.server.record.sampler.Covers start stop) (hlong : 2000 + 1000 ≤ stop - start)
    (hfrom : time a ≤ stop) (hto : stop ≤ time e) : Server.GrantsGrace e.1 b.server id := by
  rw [Server.admission] at hadm
  obtain ⟨conn, hget, hadmitted⟩ := Option.map_eq_some_iff.mp hadm
  obtain ⟨hsince, hretried⟩ := hmarked.2 conn.mark (congrArg (Option.map Conn.mark) hget)
  refine ⟨conn, hget, hadmitted, hretried, ?_⟩
  have hsees : b.server.record.sampler.Sees 1000 2000 conn.since e.1.now :=
    hcovers.sees (by omega) (hsince.le.trans hfrom) hto
  exact Server.sees_iff.mpr hsees

/-- Nobody is granted a second grace. -/
theorem along_not_setsHelloTimer {b : Bridge} (h : b.Marked id fun m => m.helloRetried = true)
    (hes : (system cfg reportBound).Valid b es) :
    (system cfg reportBound).Along (fun b e => ¬Server.SetsHelloTimer e.1 b.server e.2 id) b es := by
  refine System.Along.of_invariant (I := fun b => Marked b id fun m => m.helloRetried = true) ?_ h hes
  intro b e hb he
  have hset := not_setsHelloTimer hb he
  refine ⟨hset, hb.step ?_ hset⟩
  exact fun m m' hm _ hretried => hretried.trans hm

theorem closesLate_iff {b : Bridge} : ClosesLate cfg b e id ↔
    e.2 = .helloTimeout id ∧ b.server.admission id = some false ∧ ¬Server.GrantsGrace e.1 b.server id := by
  obtain ⟨io, e⟩ := e
  refine and_congr_right fun hfires => ?_
  cases hfires
  exact Server.added_onHelloTimeout_iff

/-- **The first wait for a client-hello is judged by no stall that ended in it, and the grace is
granted once**: whoever is not admitted when the timer fires again is closed, whatever the loop did in
the meantime. -/
theorem hello_deadline
    (hes : (system cfg reportBound).Valid (init cfg reportBound) (es₁ ++ a :: (es₂ ++ e :: es₃)))
    (hwait : Waits cfg reportBound ((system cfg reportBound).after (init cfg reportBound) es₁) a es₂ e id) :
    (a.2 = .connect id →
      ClosesLate cfg ((system cfg reportBound).after (init cfg reportBound) (es₁ ++ a :: es₂)) e id →
        ∀ start stop, Blocked cfg (es₁ ++ a :: (es₂ ++ e :: es₃)) start stop →
          2000 + 1000 ≤ stop - start → ¬(time a ≤ stop ∧ stop ≤ time e)) ∧
    (a.2 = .helloTimeout id →
      (system cfg reportBound).Along (fun b e => ¬Server.SetsHelloTimer e.1 b.server e.2 id)
        ((system cfg reportBound).after (init cfg reportBound) (es₁ ++ [a])) (es₂ ++ e :: es₃) ∧
      (((system cfg reportBound).after (init cfg reportBound) (es₁ ++ a :: es₂)).server.admission id =
          some false →
        ClosesLate cfg ((system cfg reportBound).after (init cfg reportBound) (es₁ ++ a :: es₂)) e id)) := by
  obtain ⟨hes₁, ha, hrest⟩ := System.along_append.mp hes
  have hafter : (system cfg reportBound).after (init cfg reportBound) (es₁ ++ a :: es₂) =
      (system cfg reportBound).after
        (((system cfg reportBound).after (init cfg reportBound) es₁).step cfg a) es₂ := by
    rw [System.after_append, System.after_cons]
    rfl
  constructor
  · rintro hconnect hclosed start stop hblocked hlong ⟨hfrom, hto⟩
    obtain ⟨-, hadm, hgrace⟩ := closesLate_iff.mp hclosed
    have hmarked := (marked_connect ha hconnect).after ?_ hwait.kept
    · have hsplit : es₁ ++ a :: (es₂ ++ e :: es₃) = (es₁ ++ a :: es₂) ++ e :: es₃ := by
        rw [List.append_assoc, List.cons_append]
      rw [hsplit] at hblocked
      rw [← hafter] at hmarked
      exact hgrace (grantsGrace_of_blocked hadm hmarked (covers_of_blocked hblocked.left hlong) hlong
        hfrom hto)
    · exact fun m m' hm hsince hretried => ⟨hsince.trans hm.1, hretried.trans hm.2⟩
  · intro hfires
    have hmarked : (((system cfg reportBound).after (init cfg reportBound) es₁).step cfg a).Marked id
        fun m => m.helloRetried = true := by
      rcases hwait.sets with hconnect | ⟨-, hgrace⟩
      · cases hfires.symm.trans hconnect
      · exact marked_grace (tracked_of_valid hes₁) hfires hgrace
    have hnever := along_not_setsHelloTimer hmarked hrest
    refine ⟨?_, fun hadm => closesLate_iff.mpr ⟨hwait.fires, hadm, fun hgrace => ?_⟩⟩
    · rw [System.after_append]
      exact hnever
    · obtain ⟨-, hnow, -⟩ := System.along_append.mp hnever
      rw [hafter] at hgrace
      exact hnow (Or.inr ⟨hwait.fires, hgrace⟩)

/-- A connection comes and sends no client-hello. -/
def staysSilent : List (Io × Event) :=
  [({ now := 1 }, .connect (js "c1")), ({ now := 2500 }, .heartbeat),
    ({ now := 5001 }, .helloTimeout (js "c1"))]

theorem hello_deadline_staysSilent :
    ClosesLate Server.plain ((system Server.plain false).after (init Server.plain false)
        [({ now := 1 }, .connect (js "c1")), ({ now := 2500 }, .heartbeat)])
      ({ now := 5001 }, .helloTimeout (js "c1")) (js "c1") ∧
    ∀ start stop, Blocked Server.plain staysSilent start stop → 2000 + 1000 ≤ stop - start →
      ¬(1 ≤ stop ∧ stop ≤ 5001) := by
  have hclosed : ClosesLate Server.plain ((system Server.plain false).after (init Server.plain false)
        [({ now := 1 }, .connect (js "c1")), ({ now := 2500 }, .heartbeat)])
      ({ now := 5001 }, .helloTimeout (js "c1")) (js "c1") :=
    closesLate_iff.mpr ⟨rfl, by decide +kernel, by decide +kernel⟩
  have hvalid : (system Server.plain false).Valid (init Server.plain false) staysSilent := by
    refine ⟨?_, trivial, ?_, trivial⟩
    · change js "c1" = mintConnId 1
      decide +kernel
    · exact ⟨_, rfl, rfl⟩
  refine ⟨hclosed, (@hello_deadline Server.plain false [] [({ now := 2500 }, .heartbeat)] [] _ _ (js "c1")
    hvalid ?_).1 rfl hclosed⟩
  refine ⟨Or.inl rfl, ⟨?_, trivial⟩, rfl⟩
  rintro (h | ⟨h, -⟩) <;> cases h

/-- The loop is blocked again while a connection waits after its grace. -/
def stallsTwice : List (Io × Event) :=
  [({}, .connect (js "c1")), ({ now := 6000 }, .helloTimeout (js "c1")), ({ now := 6000 }, .heartbeat),
    ({ now := 11000 }, .helloTimeout (js "c1"))]

theorem not_judgesListening_stallsTwice :
    (system Server.plain false).Valid (init Server.plain false) stallsTwice ∧
      System.Forward time stallsTwice ∧ ¬JudgesListening Server.plain false stallsTwice := by
  refine ⟨⟨?_, ⟨_, rfl, rfl⟩, trivial, ⟨_, rfl, rfl⟩, trivial⟩, ?_, fun h => ?_⟩
  · change js "c1" = mintConnId 1
    decide +kernel
  · unfold System.Forward
    decide
  · refine h [({}, .connect (js "c1"))] ({ now := 6000 }, .helloTimeout (js "c1"))
      [({ now := 6000 }, .heartbeat)] ({ now := 11000 }, .helloTimeout (js "c1")) [] (js "c1") rfl ?_ ?_
      6000 11000 ⟨by decide, by decide⟩ (by decide) (by decide)
    · refine ⟨Or.inr ⟨rfl, by decide +kernel⟩, ⟨?_, trivial⟩, rfl⟩
      rintro (h | ⟨h, -⟩) <;> cases h
    · exact closesLate_iff.mpr ⟨rfl, by decide +kernel, by decide +kernel⟩

end Bridge

end AxonaBridge
