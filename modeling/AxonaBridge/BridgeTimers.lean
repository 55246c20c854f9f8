import AxonaBridge.BridgeAdmission
import AxonaBridge.ServerTimers

/-!
# Nobody is kept waiting

A connection that waits for the bridge, to be admitted or to be let go after its credential, has a timer
running for it until the bridge has called close on it. The timer of a hello fires twice at most, the one
of a release once.
-/

open JsText

namespace AxonaBridge

/-- The hello timer of the connection fires. -/
def Event.expires (id : ConnId) : Event → Bool
  | .helloTimeout connId => connId = id
  | _ => false

/-- The release timer of the connection fires. -/
def Event.releases (id : ConnId) : Event → Bool
  | .turnRelease connId => connId = id
  | _ => false

section Fires

variable {id : ConnId} {event : Event}

theorem Event.expires_iff : event.expires id = true ↔ event = .helloTimeout id := by
  cases event with
  | helloTimeout connId =>
      refine decide_eq_true_iff.trans ⟨fun heq => congrArg Event.helloTimeout heq, fun heq => ?_⟩
      injection heq
  | _ => exact ⟨fun h => (by cases h), fun h => (by cases h)⟩

theorem Event.releases_iff : event.releases id = true ↔ event = .turnRelease id := by
  cases event with
  | turnRelease connId =>
      refine decide_eq_true_iff.trans ⟨fun heq => congrArg Event.turnRelease heq, fun heq => ?_⟩
      injection heq
  | _ => exact ⟨fun h => (by cases h), fun h => (by cases h)⟩

end Fires

namespace Conn

/-- How often the hello timer may still fire. -/
def helloLeft (c : Conn) : Nat := if c.helloTimer then if c.helloRetried then 1 else 2 else 0

/-- How often the release timer may still fire. -/
def releaseLeft (c : Conn) : Nat := if c.releaseTimer then 1 else if c.admitted then 0 else 1

theorem helloLeft_pos {c : Conn} (h : c.helloTimer = true) : 0 < c.helloLeft := by
  rw [helloLeft, h, if_pos rfl]
  split
  · exact Nat.one_pos
  · exact Nat.two_pos

/-- A connection that waits has its timer running, or was closed, and no timer runs for another. -/
structure Tended (closed : Prop) (c : Conn) : Prop where
  hello : c.admitted = false → c.helloTimer = true ∨ closed
  release : c.admitted = true → c.turnRefreshOnly = true → c.releaseTimer = true ∨ closed
  pending : c.helloTimer = true → c.admitted = false
  credential : c.releaseTimer = true → c.admitted = true ∧ c.turnRefreshOnly = true

theorem Tended.mono {closed closed' : Prop} {c : Conn} (h : c.Tended closed) (himp : closed → closed') :
    c.Tended closed' :=
  ⟨fun hadm => (h.hello hadm).imp_right himp, fun hadm hfull => (h.release hadm hfull).imp_right himp,
    h.pending, h.credential⟩

theorem Tended.not_releaseTimer {closed : Prop} {c : Conn} (h : c.Tended closed)
    (hpending : c.admitted = false) : c.releaseTimer = false := by
  refine Bool.eq_false_iff.mpr fun hr => ?_
  cases hpending.symm.trans (h.credential hr).1

theorem Tended.greets {closed : Prop} {c : Conn} {msg : JsVal} {g : Conn → Conn} (h : c.Tended closed)
    (hpending : c.admitted = false) (hg : Server.Greets msg g) : (g c).Tended closed := by
  have hno := h.not_releaseTimer hpending
  cases hg with
  | refused =>
      refine ⟨h.hello, fun hadm => ?_, h.pending, fun hr => ?_⟩
      · cases hpending.symm.trans hadm
      · cases hno.symm.trans hr
  | admitted =>
      refine ⟨fun hadm => (by cases hadm), fun _ hrefresh => Or.inl ?_, fun ht => (by cases ht),
        fun hr => ⟨rfl, ?_⟩⟩
      · exact Bool.or_eq_true_iff.mpr (Or.inl hrefresh)
      · refine (Bool.or_eq_true_iff.mp hr).resolve_right ?_
        rw [Server.Conn.ofHello, hno]
        exact Bool.false_ne_true

end Conn

namespace Server

variable {t : Server} {id : ConnId} {e : Event} {o o' : Option Conn} {closed : Prop}

/-- An event keeps it so. -/
theorem Winds.tended (h : Winds t id e o o') (hclosed : closed → t.CloseCalled id)
    (ho : ∀ c, o = some c → c.Tended closed) : ∀ c, o' = some c → c.Tended (t.CloseCalled id) := by
  intro c' hc'
  cases h with
  | same htimes => exact (ho c' hc').mono hclosed
  | absent hconnect => cases hc'
  | opened now =>
      obtain rfl := Option.some.inj hc'
      exact ⟨fun _ => Or.inl rfl, fun hadm => (by cases hadm), fun _ => rfl, fun hr => (by cases hr)⟩
  | closed code reason => cases hc'
  | greeted data hpending hg =>
      obtain rfl := Option.some.inj hc'
      exact ((ho _ rfl).greets hpending hg).mono hclosed
  | late hadm => exact (ho c' hc').mono hclosed
  | @grace c hpending hfirst =>
      obtain rfl := Option.some.inj hc'
      have hold := (ho c rfl).mono hclosed
      exact ⟨hold.hello, hold.release, hold.pending, hold.credential⟩
  | @expired c hpending hclose =>
      obtain rfl := Option.some.inj hc'
      have hold := ho c rfl
      exact ⟨fun _ => Or.inr hclose, fun _ _ => Or.inr hclose, fun ht => (by cases ht), hold.credential⟩
  | @released c hclose =>
      obtain rfl := Option.some.inj hc'
      have hold := ho c rfl
      exact ⟨fun _ => Or.inr hclose, fun _ _ => Or.inr hclose, hold.pending, fun hr => (by cases hr)⟩

section Fires

variable {c c' : Conn} (h : Winds t id e (some c) (some c')) (hc : c.Tended closed)
  (hconnect : e ≠ .connect id)

include h hc hconnect

theorem Winds.helloLeft_le (hfires : e = .helloTimeout id → c.helloTimer = true) :
    (if e.expires id then 1 else 0) + c'.helloLeft ≤ c.helloLeft := by
  cases h with
  | same htimes =>
      have hno : ¬e.expires id = true := fun hexpires => htimes (by rw [Event.expires_iff.mp hexpires]; rfl)
      rw [if_neg hno, Nat.zero_add]
  | opened now => exact absurd rfl hconnect
  | greeted data hpending hg =>
      refine (Nat.zero_add _).le.trans ?_
      cases hg with
      | refused => exact Nat.le_refl _
      | admitted => exact Nat.zero_le _
  | late hadm => cases hadm.symm.trans (hc.pending (hfires rfl))
  | grace hpending hfirst =>
      rw [if_pos (Event.expires_iff.mpr rfl), Conn.helloLeft, Conn.helloLeft, hfires rfl, hfirst]
      exact Nat.le_refl 2
  | expired hpending hclose =>
      rw [if_pos (Event.expires_iff.mpr rfl)]
      change 1 + 0 ≤ c.helloLeft
      rw [Conn.helloLeft, hfires rfl, if_pos rfl]
      split
      · exact Nat.le_refl 1
      · exact Nat.le_succ 1
  | released hclose => exact (Nat.zero_add _).le

theorem Winds.releaseLeft_le (hfires : e = .turnRelease id → c.releaseTimer = true) :
    (if e.releases id then 1 else 0) + c'.releaseLeft ≤ c.releaseLeft := by
  cases h with
  | same htimes =>
      have hno : ¬e.releases id = true := fun hreleases => htimes (by rw [Event.releases_iff.mp hreleases]; rfl)
      rw [if_neg hno, Nat.zero_add]
  | opened now => exact absurd rfl hconnect
  | greeted data hpending hg =>
      refine (Nat.zero_add _).le.trans ?_
      have hold : c.releaseLeft = 1 := by
        rw [Conn.releaseLeft, hc.not_releaseTimer hpending, hpending]
        rfl
      cases hg with
      | refused => exact Nat.le_refl _
      | admitted =>
          rw [hold, Conn.releaseLeft]
          split
          · exact Nat.le_refl 1
          · exact Nat.zero_le 1
  | late hadm => exact (Nat.zero_add _).le
  | grace hpending hfirst => exact (Nat.zero_add _).le
  | expired hpending hclose => exact (Nat.zero_add _).le
  | released hclose =>
      have hold := hfires rfl
      rw [if_pos (Event.releases_iff.mpr rfl), Conn.releaseLeft, Conn.releaseLeft, hold, (hc.credential hold).1]
      exact Nat.le_refl 1

end Fires

end Server

namespace Bridge

variable {cfg : Config} {b : Bridge} {e : Io × Event} {id : ConnId}

/-- Every connection that is there is tended to. -/
def Tends (b : Bridge) : Prop :=
  ∀ id c, b.server.settled id = some c → c.Tended (b.server.CloseCalled id)

theorem Tends.step (h : b.Tends) : (b.step cfg e).Tends := by
  intro id
  refine (Server.winds_step cfg e.1 b.server e.2 id).tended (fun hclosed => ?_) (h id)
  obtain ⟨o, ho, hclose⟩ := hclosed
  exact ⟨o, (@says_step cfg b e).out_mem ho, hclose⟩

/-- How often a timer of the connection may still fire, where an id that is not minted yet may have `n`. -/
def firesLeft (n : Nat) (f : Conn → Nat) (id : ConnId) (b : Bridge) : Nat :=
  match b.server.settled id with
  | some c => f c
  | none => if ∃ i, i ≤ b.connSeq ∧ id = mintConnId i then 0 else n

theorem firesLeft_of_settled {n : Nat} {f : Conn → Nat} {c : Conn} (h : b.server.settled id = some c) :
    firesLeft n f id b = f c := by
  rw [firesLeft, h]

theorem firesLeft_init_le {reportBound : Bool} (n : Nat) (f : Conn → Nat) :
    firesLeft n f id (init cfg reportBound) ≤ n := by
  have hnone : (init cfg reportBound).server.settled id = none := rfl
  rw [firesLeft, hnone]
  dsimp only
  split
  · exact Nat.zero_le n
  · exact Nat.le_refl n

theorem minted_of_settled (hb : b.Tracked) {c : Conn} (h : b.server.settled id = some c) :
    ∃ i, i ≤ b.connSeq ∧ id = mintConnId i := by
  obtain ⟨conn, hget, -⟩ := Option.map_eq_some_iff.mp h
  exact hb.minted id (Or.inr (by rw [Server.admission, hget]; rfl))

/-- A timer that fires is one the connection had left. -/
theorem firesLeft_step {n : Nat} {f : Conn → Nat} {p : Event → Bool} (hb : b.Tracked) (he : b.Enabled cfg e)
    (hnew : ∀ now, f { since := now, lastSeenAt := 0, helloTimer := true } ≤ n)
    (habsent : b.server.settled id = none → p e.2 = false)
    (hclosed : ∀ code reason, p (.closed id code reason) = false)
    (hpresent : ∀ c c', b.server.settled id = some c → e.2 ≠ .connect id →
      Server.Winds (b.step cfg e).server id e.2 (some c) (some c') → (if p e.2 then 1 else 0) + f c' ≤ f c) :
    (if p e.2 then 1 else 0) + firesLeft n f id (b.step cfg e) ≤ firesLeft n f id b := by
  have hwinds : Server.Winds (b.step cfg e).server id e.2 (b.server.settled id)
      ((b.step cfg e).server.settled id) := Server.winds_step cfg e.1 b.server e.2 id
  have hmono : (∃ i, i ≤ b.connSeq ∧ id = mintConnId i) →
      ∃ i, i ≤ (b.step cfg e).connSeq ∧ id = mintConnId i :=
    fun ⟨i, hi, heq⟩ => ⟨i, hi.trans connSeq_le_step, heq⟩
  unfold firesLeft
  cases ho : b.server.settled id with
  | some c =>
      have hminted := minted_of_settled hb ho
      rw [ho] at hwinds
      cases ho' : (b.step cfg e).server.settled id with
      | some c' =>
          rw [ho'] at hwinds
          exact hpresent c c' ho (ne_connect_of_minted he hminted) hwinds
      | none =>
          rw [ho'] at hwinds
          generalize hevent : e.2 = event at hwinds
          cases hwinds with
          | closed code reason =>
              rw [hclosed]
              dsimp only
              rw [if_pos (hmono hminted)]
              exact Nat.zero_le _
  | none =>
      rw [habsent ho]
      rw [ho] at hwinds
      cases ho' : (b.step cfg e).server.settled id with
      | some c' =>
          rw [ho'] at hwinds
          generalize hevent : e.2 = event at hwinds
          cases hwinds with
          | opened now =>
              dsimp only
              rw [if_neg fun hminted => ne_connect_of_minted he hminted hevent, if_neg Bool.false_ne_true,
                Nat.zero_add]
              exact hnew now
      | none =>
          dsimp only
          rw [if_neg Bool.false_ne_true, Nat.zero_add]
          split
          · exact Nat.zero_le _
          · rename_i hno
            rw [if_neg fun hminted => hno (hmono hminted)]

theorem helloTimer_of_enabled (he : b.Enabled cfg e) (hevent : e.2 = .helloTimeout id) :
    ∃ c, b.server.settled id = some c ∧ c.helloTimer = true := by
  obtain ⟨conn, hget, htimer⟩ := he.of_event hevent
  exact ⟨conn.settled, Server.settled_of_get hget, htimer⟩

theorem releaseTimer_of_enabled (he : b.Enabled cfg e) (hevent : e.2 = .turnRelease id) :
    ∃ c, b.server.settled id = some c ∧ c.releaseTimer = true := by
  obtain ⟨conn, hget, htimer⟩ := he.of_event hevent
  exact ⟨conn.settled, Server.settled_of_get hget, htimer⟩

theorem helloLeft_step (h : b.Tends) (hb : b.Tracked) (he : b.Enabled cfg e) :
    (if e.2.expires id then 1 else 0) + firesLeft 2 Conn.helloLeft id (b.step cfg e) ≤
      firesLeft 2 Conn.helloLeft id b := by
  refine firesLeft_step hb he (fun _ => Nat.le_refl 2) (fun hnone => ?_) (fun _ _ => rfl)
    fun c c' hc hconnect hwinds => hwinds.helloLeft_le (h id c hc) hconnect fun hevent => ?_
  · refine Bool.eq_false_iff.mpr fun hexpires => ?_
    obtain ⟨c, hc, -⟩ := helloTimer_of_enabled he (Event.expires_iff.mp hexpires)
    cases hnone.symm.trans hc
  · obtain ⟨c', hc', htimer⟩ := helloTimer_of_enabled he hevent
    cases hc.symm.trans hc'
    exact htimer

theorem releaseLeft_step (h : b.Tends) (hb : b.Tracked) (he : b.Enabled cfg e) :
    (if e.2.releases id then 1 else 0) + firesLeft 1 Conn.releaseLeft id (b.step cfg e) ≤
      firesLeft 1 Conn.releaseLeft id b := by
  refine firesLeft_step hb he (fun _ => Nat.le_refl 1) (fun hnone => ?_) (fun _ _ => rfl)
    fun c c' hc hconnect hwinds => hwinds.releaseLeft_le (h id c hc) hconnect fun hevent => ?_
  · refine Bool.eq_false_iff.mpr fun hreleases => ?_
    obtain ⟨c, hc, -⟩ := releaseTimer_of_enabled he (Event.releases_iff.mp hreleases)
    cases hnone.symm.trans hc
  · obtain ⟨c', hc', htimer⟩ := releaseTimer_of_enabled he hevent
    cases hc.symm.trans hc'
    exact htimer

section Runs

variable {reportBound : Bool} {es : List (Io × Event)}

theorem tends_of_valid (hes : (system cfg reportBound).Valid (init cfg reportBound) es) :
    ((system cfg reportBound).after (init cfg reportBound) es).Tends :=
  System.Valid.invariant (fun _ _ h => (by cases h)) (fun _ _ h _ => h.step) hes

/-- What every step uses up of a timer bounds how often the timer fires. -/
theorem fires_add_le {p : Event → Bool} {f : Bridge → Nat}
    (hstep : ∀ b e, Tends b → b.Tracked → b.Enabled cfg e →
      (if p e.2 then 1 else 0) + f (b.step cfg e) ≤ f b)
    (hes : (system cfg reportBound).Valid (init cfg reportBound) es) :
    es.countP (fun e => p e.2) + f ((system cfg reportBound).after (init cfg reportBound) es) ≤
      f (init cfg reportBound) := by
  refine System.Along.countP_add_le (System.along_iff_split.mpr fun es₁ e es₂ hsplit => ?_)
  rw [hsplit] at hes
  obtain ⟨hes₁, he, -⟩ := System.along_append.mp hes
  exact hstep _ e (tends_of_valid hes₁) (tracked_of_valid hes₁) he

/-- **Nobody is kept waiting.** In every run the hello timer of a connection fires twice at most and its
release timer once. A connection that is there and not admitted was closed, or its hello timer is running
and may fire; one that was admitted for a credential was closed, or its release timer is running and has
not fired; and the timers run for no other connection. -/
theorem never_kept_waiting (cfg : Config) (reportBound : Bool) (es : List (Io × Event))
    (hes : (system cfg reportBound).Valid (init cfg reportBound) es) (id : ConnId) :
    es.countP (fun e => e.2.expires id) ≤ 2 ∧ es.countP (fun e => e.2.releases id) ≤ 1 ∧
    ∀ conn, ((system cfg reportBound).after (init cfg reportBound) es).server.connections.get id = some conn →
      (conn.admitted = false → (conn.helloTimer = true ∧ es.countP (fun e => e.2.expires id) < 2) ∨
        ((system cfg reportBound).after (init cfg reportBound) es).server.CloseCalled id) ∧
      (conn.admitted = true → conn.turnRefreshOnly = true →
        (conn.releaseTimer = true ∧ es.countP (fun e => e.2.releases id) = 0) ∨
          ((system cfg reportBound).after (init cfg reportBound) es).server.CloseCalled id) ∧
      (conn.helloTimer = true → conn.admitted = false) ∧
      (conn.releaseTimer = true → conn.admitted = true ∧ conn.turnRefreshOnly = true) := by
  have hhello := (fires_add_le (fun b e => @helloLeft_step cfg b e id) hes).trans (firesLeft_init_le _ _)
  have hrelease := (fires_add_le (fun b e => @releaseLeft_step cfg b e id) hes).trans (firesLeft_init_le _ _)
  refine ⟨(Nat.le_add_right _ _).trans hhello, (Nat.le_add_right _ _).trans hrelease, fun conn hget => ?_⟩
  have hsettled := Server.settled_of_get hget
  have htended := tends_of_valid hes id conn.settled hsettled
  rw [firesLeft_of_settled hsettled] at hhello hrelease
  refine ⟨fun hadm => ?_, fun hadm hrefresh => ?_, htended.pending, htended.credential⟩
  · refine (htended.hello hadm).imp_left fun htimer => ⟨htimer, ?_⟩
    have hleft : 0 < conn.settled.helloLeft := Conn.helloLeft_pos htimer
    omega
  · refine (htended.release hadm hrefresh).imp_left fun htimer => ⟨htimer, ?_⟩
    have hleft : conn.settled.releaseLeft = 1 := if_pos htimer
    omega

/-- A connection whose hello the loop's stall kept is given a second wait. -/
def secondWait : List (Io × Event) :=
  [({ now := 1 }, .connect (js "c1")), ({ now := 4500 }, .heartbeat), ({ now := 5001 }, .helloTimeout (js "c1")),
    ({ now := 10001 }, .helloTimeout (js "c1"))]

theorem valid_secondWait : (system Server.plain false).Valid (init Server.plain false) secondWait := by
  refine ⟨?_, trivial, ⟨_, rfl, rfl⟩, ⟨_, rfl, rfl⟩, trivial⟩
  change js "c1" = mintConnId 1
  decide +kernel

theorem never_kept_waiting_secondWait :
    ∃ conn, ((system Server.plain false).after (init Server.plain false)
        secondWait).server.connections.get (js "c1") = some conn ∧
      ((system Server.plain false).after (init Server.plain false) secondWait).server.CloseCalled (js "c1") := by
  obtain ⟨conn, hget⟩ := Option.isSome_iff_exists.mp (show (((system Server.plain false).after
    (init Server.plain false) secondWait).server.connections.get (js "c1")).isSome = true by decide +kernel)
  have hadm : conn.admitted = false := by
    have hall : (((system Server.plain false).after (init Server.plain false)
      secondWait).server.connections.get (js "c1")).all (fun c => c.admitted = false) = true := by decide +kernel
    rw [hget] at hall
    exact of_decide_eq_true hall
  obtain ⟨-, -, hwaits⟩ := never_kept_waiting Server.plain false secondWait valid_secondWait (js "c1")
  refine ⟨conn, hget, ((hwaits conn hget).1 hadm).resolve_left fun hrunning => ?_⟩
  exact absurd hrunning.2 (by decide +kernel)

end Runs

end Bridge

end AxonaBridge
