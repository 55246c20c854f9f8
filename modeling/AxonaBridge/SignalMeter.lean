import AxonaBridge.FixedWindow
import AxonaBridge.ServerModel

/-!
# The meter of a socket

What `case 'signal'` counts of a connection, on its own: the verdicts over any sequence of attempts, by
the windows they fall into. The count is coerced to 32 bits before it is raised, and so it falls below
every limit after the `2 ^ 31`-th attempt of a window.
-/

namespace AxonaBridge

/-- What the meter keeps of a connection. -/
structure Meter where
  start : Option Int := none
  count : Int := 0
  logged : Bool := false
  limited : Int := 0
  deriving DecidableEq

def Conn.meterState (c : Conn) : Meter where
  start := c.sigWinStart
  count := c.sigWinCount
  logged := c.sigWinLogged
  limited := c.signalsRateLimited

namespace Meter

open Server

/-- Open a window where none is open. -/
def opened (cfg : Config) (m : Meter) (now : Int) : Meter :=
  if m.start.all fun start => start = 0 ∨ cfg.signalWindowMs ≤ now - start then
    { m with start := some now, count := 0, logged := false }
  else m

/-- Count an attempt in the window that is open, and judge it. -/
def judge (cfg : Config) (m : Meter) : Metered × Meter :=
  let m := { m with count := toInt32 m.count + 1 }
  if cfg.signalRate < m.count then
    (.drop !m.logged, { m with limited := toInt32 m.limited + 1, logged := true })
  else (.relay, m)

def attempt (cfg : Config) (m : Meter) (now : Int) : Metered × Meter := (m.opened cfg now).judge cfg

def after (cfg : Config) (m : Meter) (ts : List Int) : Meter :=
  ts.foldl (fun m t => (m.attempt cfg t).2) m

/-- The verdicts on attempts at a sequence of times. -/
def verdicts (cfg : Config) : Meter → List Int → List Metered
  | _, [] => []
  | m, t :: ts => (m.attempt cfg t).1 :: verdicts cfg (m.attempt cfg t).2 ts

variable {cfg : Config} {m : Meter} {now start t : Int} {ts us : List Int} {n k : Nat}

/-- The meter of the server is the meter of what it keeps. -/
theorem meter_eq (cfg : Config) (io : Io) (conn : Conn) :
    (meter cfg io conn).1 = (conn.meterState.attempt cfg io.now).1 ∧
      (meter cfg io conn).2.meterState = (conn.meterState.attempt cfg io.now).2 := by
  have hopen : (openWindow cfg io conn).meterState = conn.meterState.opened cfg io.now := by
    unfold openWindow opened Conn.meterState
    dsimp only
    split <;> rfl
  unfold attempt
  rw [← hopen]
  unfold meter judge
  generalize openWindow cfg io conn = c
  dsimp only
  have hcount : c.meterState.count = c.sigWinCount := rfl
  rw [hcount]
  split <;> exact ⟨rfl, rfl⟩

theorem verdicts_append : verdicts cfg m (ts ++ us) = verdicts cfg m ts ++ verdicts cfg (after cfg m ts) us := by
  induction ts generalizing m with
  | nil => rfl
  | cons t ts ih => exact congrArg (_ :: ·) ih

theorem after_snoc : after cfg m (ts ++ [t]) = ((after cfg m ts).attempt cfg t).2 := by
  rw [after, List.foldl_append]
  rfl

/-! ### A counter of 32 bits -/

/-- What `(x | 0) + 1` makes of `0` in so many steps. -/
def counted : Nat → Int
  | 0 => 0
  | n + 1 => toInt32 (counted n) + 1

theorem toInt32_of_bounds {x : Int} (hlow : -2 ^ 31 ≤ x) (hhigh : x < 2 ^ 31) : toInt32 x = x := by
  unfold toInt32
  omega

theorem toInt32_lt (x : Int) : toInt32 x < 2 ^ 31 := by
  unfold toInt32
  omega

theorem counted_of_le (h : n ≤ 2 ^ 31) : counted n = n := by
  induction n with
  | zero => rfl
  | succ n ih =>
      rw [counted, ih (by omega), toInt32_of_bounds (by omega) (by omega)]
      rfl

theorem counted_le (n : Nat) : counted n ≤ 2 ^ 31 := by
  cases n with
  | zero => exact Int.le_of_lt (by decide)
  | succ n => exact Int.add_one_le_of_lt (toInt32_lt _)

/-- The count goes wrong when it has to leave the 32 bits. -/
theorem counted_eq_iff : counted n = n ↔ n ≤ 2 ^ 31 := by
  refine ⟨fun h => ?_, counted_of_le⟩
  have hle := counted_le n
  rw [h] at hle
  exact_mod_cast hle

theorem counted_wraps (h : n = 2 ^ 31) : counted (n + 1) = -2 ^ 31 + 1 := by
  have hn : counted n = 2 ^ 31 := by
    rw [counted_of_le h.le, h]
    rfl
  rw [counted, hn]
  decide

/-! ### The attempts of a window -/

/-- Some of so many attempts of a window was over the rate. -/
def overRate (rate : Int) : Nat → Bool
  | 0 => false
  | n + 1 => overRate rate n || decide (rate < counted (n + 1))

/-- The verdict on the attempt that `n` others of the window came before. -/
def verdictAt (rate : Int) (n : Nat) : Metered :=
  if rate < counted (n + 1) then .drop !overRate rate n else .relay

/-- The verdict it is due: the first attempts up to the rate are relayed, the others are dropped, the
first of those with a row. -/
def due (rate : Int) (n : Nat) : Metered := if n < rate then .relay else .drop (n = rate)

/-- What a window of so many attempts is due. -/
def windowVerdicts (rate : Int) (length : Nat) : List Metered := (List.range length).map (due rate)

theorem overRate_of_le (hn : n ≤ 2 ^ 31) (hrate : 0 ≤ cfg.signalRate) :
    overRate cfg.signalRate n = decide (cfg.signalRate < n) := by
  induction n with
  | zero => exact (decide_eq_false (not_lt.mpr hrate)).symm
  | succ n ih =>
      rw [overRate, ih (by omega), counted_of_le hn, ← Bool.decide_or]
      exact decide_eq_decide.mpr (by omega)

theorem verdictAt_of_lt (hn : n < 2 ^ 31) (hrate : 0 ≤ cfg.signalRate) :
    verdictAt cfg.signalRate n = due cfg.signalRate n := by
  unfold verdictAt due
  rw [counted_of_le hn, overRate_of_le hn.le hrate, ← decide_not]
  by_cases h : (n : Int) < cfg.signalRate
  · rw [if_pos h, if_neg (by omega)]
  · rw [if_neg h, if_pos (by omega)]
    exact congrArg Metered.drop (decide_eq_decide.mpr (by omega))

/-- No attempt is dropped under a rate that the count cannot exceed. -/
theorem verdictAt_of_rate_ge (hrate : 2 ^ 31 ≤ cfg.signalRate) : verdictAt cfg.signalRate n = .relay :=
  if_neg (not_lt.mpr ((counted_le _).trans hrate))

/-- The attempt at which the count wraps is relayed. -/
theorem verdictAt_wraps (hn : n = 2 ^ 31) (hrate : 0 ≤ cfg.signalRate) :
    verdictAt cfg.signalRate n = .relay := by
  unfold verdictAt
  rw [counted_wraps hn]
  exact if_neg (by omega)

theorem due_of_ge (h : cfg.signalRate ≤ n) : due cfg.signalRate n ≠ .relay := by
  unfold due
  rw [if_neg (not_lt.mpr h)]
  exact Metered.noConfusion

theorem windowVerdicts_iff (hrate : 0 ≤ cfg.signalRate) :
    (List.range n).map (verdictAt cfg.signalRate) = windowVerdicts cfg.signalRate n ↔
      n ≤ cfg.signalRate ∨ n ≤ 2 ^ 31 := by
  unfold windowVerdicts
  rw [List.map_inj_left]
  constructor
  · intro h
    by_contra! hlong
    obtain ⟨hover, hwraps⟩ := hlong
    by_cases hbig : 2 ^ 31 ≤ cfg.signalRate
    · obtain ⟨k, hk⟩ := Int.eq_ofNat_of_zero_le hrate
      have hdue := h k (List.mem_range.mpr (by omega))
      rw [verdictAt_of_rate_ge hbig] at hdue
      exact due_of_ge hk.le hdue.symm
    · have hdue := h (2 ^ 31) (List.mem_range.mpr hwraps)
      rw [verdictAt_wraps rfl hrate] at hdue
      exact due_of_ge (by omega) hdue.symm
  · intro h i hi
    have hin := List.mem_range.mp hi
    by_cases hlow : i < 2 ^ 31
    · exact verdictAt_of_lt hlow hrate
    · rw [verdictAt_of_rate_ge (by omega)]
      exact (if_pos (by omega)).symm

/-! ### The windows of a sequence of attempts -/

/-- The meter is in the window opened at `start`, which has had `n` attempts. -/
structure InWindow (cfg : Config) (start : Int) (n : Nat) (m : Meter) : Prop where
  start : m.start = some start
  count : m.count = counted n
  logged : m.logged = overRate cfg.signalRate n

theorem InWindow.judge (h : InWindow cfg start n m) :
    (m.judge cfg).1 = verdictAt cfg.signalRate n ∧ InWindow cfg start (n + 1) (m.judge cfg).2 := by
  have hcount : toInt32 m.count + 1 = counted (n + 1) := by
    rw [h.count]
    rfl
  unfold Meter.judge verdictAt
  dsimp only
  rw [hcount, h.logged]
  split
  · rename_i hover
    refine ⟨rfl, h.start, rfl, ?_⟩
    rw [overRate, decide_eq_true hover, Bool.or_true]
  · rename_i hunder
    refine ⟨rfl, h.start, rfl, ?_⟩
    rw [overRate, decide_eq_false hunder, Bool.or_false]

theorem InWindow.opened (h : InWindow cfg start n m) (hstart : start ≠ 0)
    (ht : t < start + cfg.signalWindowMs) : m.opened cfg t = m := by
  unfold Meter.opened
  rw [h.start]
  refine if_neg ?_
  simp only [Option.all_some, decide_eq_true_eq]
  omega

theorem inWindow_opened (h : ∀ start, m.start = some start → start + cfg.signalWindowMs ≤ t) :
    InWindow cfg t 0 (m.opened cfg t) := by
  unfold Meter.opened
  rw [if_pos]
  · exact ⟨rfl, rfl, rfl⟩
  · rw [Option.all_eq_true]
    intro start hstart
    have hpast := h start hstart
    exact decide_eq_true (Or.inr (by omega))

theorem verdicts_windowsFrom {seen : List Int} (h : InWindow cfg start seen.length m) (hstart : start ≠ 0)
    (hts : ∀ t ∈ ts, t ≠ 0) :
    (List.range seen.length).map (verdictAt cfg.signalRate) ++ verdicts cfg m ts =
      (FixedWindow.windowsFrom cfg.signalWindowMs start seen ts).flatMap
        fun w => (List.range w.length).map (verdictAt cfg.signalRate) := by
  induction ts generalizing m start seen with
  | nil => simp [FixedWindow.windowsFrom, verdicts]
  | cons t ts ih =>
      have ht := hts t List.mem_cons_self
      have hrest := fun u hu => hts u (List.mem_cons_of_mem _ hu)
      rw [FixedWindow.windowsFrom, verdicts, attempt]
      split
      · rename_i hin
        rw [h.opened hstart hin]
        obtain ⟨hverdict, hnext⟩ := h.judge
        have hlength : (seen ++ [t]).length = seen.length + 1 := List.length_append
        have hgo := @ih (m.judge cfg).2 start (seen ++ [t]) (hlength ▸ hnext) hstart hrest
        rw [hlength, List.range_succ, List.map_append, List.append_assoc] at hgo
        rw [hverdict, ← hgo]
        rfl
      · rename_i hout
        obtain ⟨hverdict, hnext⟩ := (@inWindow_opened cfg m t fun u hu => by
          rw [h.start] at hu
          cases hu
          exact not_lt.mp hout).judge
        have hgo := @ih ((m.opened cfg t).judge cfg).2 t [t] hnext ht hrest
        rw [List.flatMap_cons, ← hgo, hverdict]
        rfl

/-- **The verdicts of the meter, by its windows.** -/
theorem verdicts_windows (hts : ∀ t ∈ ts, t ≠ 0) :
    verdicts cfg {} ts = (FixedWindow.windows cfg.signalWindowMs ts).flatMap
      fun w => (List.range w.length).map (verdictAt cfg.signalRate) := by
  cases ts with
  | nil => rfl
  | cons t ts =>
      obtain ⟨hverdict, hnext⟩ := (@inWindow_opened cfg {} t fun _ h => by cases h).judge
      have hgo := @verdicts_windowsFrom cfg _ t ts [t] hnext (hts t List.mem_cons_self)
        fun u hu => hts u (List.mem_cons_of_mem _ hu)
      rw [FixedWindow.windows, ← hgo, verdicts, attempt, hverdict]
      rfl

/-! ### What is dropped is counted -/

def dropped (vs : List Metered) : Nat := vs.countP (· ≠ .relay)

theorem dropped_append (vs us : List Metered) : dropped (vs ++ us) = dropped vs + dropped us :=
  List.countP_append

theorem limited_attempt (h : m.limited = counted k) :
    (m.attempt cfg t).2.limited = counted (k + dropped [(m.attempt cfg t).1]) := by
  have hopened : (m.opened cfg t).limited = counted k := by
    rw [← h]
    unfold opened
    split <;> rfl
  unfold attempt judge
  dsimp only
  split
  · change toInt32 (m.opened cfg t).limited + 1 = counted (k + 1)
    rw [hopened]
    rfl
  · exact hopened

/-- Counted is what is dropped, and nothing else. -/
theorem limited_attempt_eq_iff : (m.attempt cfg t).2.limited = m.limited ↔ (m.attempt cfg t).1 = .relay := by
  have hopened : (m.opened cfg t).limited = m.limited := by
    unfold opened
    split <;> rfl
  rw [← hopened]
  unfold attempt judge
  dsimp only
  split
  · refine iff_of_false (fun h => ?_) Metered.noConfusion
    dsimp only at h
    unfold toInt32 at h
    omega
  · exact iff_of_true rfl rfl

theorem limited_after (h : m.limited = counted k) :
    (after cfg m ts).limited = counted (k + dropped (verdicts cfg m ts)) := by
  induction ts generalizing m k with
  | nil => exact h
  | cons t ts ih =>
      have hsum : dropped (verdicts cfg m (t :: ts)) =
          dropped [(m.attempt cfg t).1] + dropped (verdicts cfg (m.attempt cfg t).2 ts) :=
        dropped_append [_] _
      rw [hsum, ← Nat.add_assoc]
      exact ih (limited_attempt h)

theorem dropped_windowVerdicts (hrate : 0 ≤ cfg.signalRate) :
    dropped (windowVerdicts cfg.signalRate n) = n - cfg.signalRate.toNat := by
  induction n with
  | zero => exact (Nat.zero_sub _).symm
  | succ n ih =>
      have hsnoc : dropped (windowVerdicts cfg.signalRate (n + 1)) =
          dropped (windowVerdicts cfg.signalRate n) + dropped [due cfg.signalRate n] := by
        unfold windowVerdicts
        rw [List.range_succ, List.map_append]
        exact dropped_append _ _
      rw [hsnoc, ih]
      by_cases h : (n : Int) < cfg.signalRate
      · have hone : dropped [due cfg.signalRate n] = 0 := by
          unfold due
          rw [if_pos h]
          rfl
        omega
      · have hone : dropped [due cfg.signalRate n] = 1 := by
          unfold due
          rw [if_neg h]
          rfl
        omega

theorem dropped_windows (hrate : 0 ≤ cfg.signalRate) (ws : List (List Int)) :
    dropped (ws.flatMap fun w => windowVerdicts cfg.signalRate w.length) =
      (ws.map fun w => w.length - cfg.signalRate.toNat).sum := by
  induction ws with
  | nil => rfl
  | cons w ws ih =>
      rw [List.flatMap_cons, List.map_cons, List.sum_cons, ← ih, ← dropped_windowVerdicts hrate]
      exact dropped_append _ _

/-! ### What is relayed -/

/-- The times of a list that the verdicts at their side relay. -/
def relayed (ts : List Int) (vs : List Metered) : List Int :=
  ((ts.zip vs).filter fun e => e.2 = .relay).map Prod.fst

theorem relayed_subset (ts : List Int) (vs : List Metered) : relayed ts vs ⊆ ts := by
  intro t ht
  obtain ⟨e, he, rfl⟩ := List.mem_map.mp ht
  exact (List.of_mem_zip (List.mem_filter.mp he).1).1

/-- No window is relayed more than the rate. -/
theorem length_relayed_le (hrate : 0 ≤ cfg.signalRate) (w : List Int) :
    (relayed w (windowVerdicts cfg.signalRate w.length)).length ≤ cfg.signalRate.toNat := by
  have hlength : (windowVerdicts cfg.signalRate w.length).length = w.length := by
    rw [windowVerdicts, List.length_map, List.length_range]
  have hcount : (relayed w (windowVerdicts cfg.signalRate w.length)).length =
      (windowVerdicts cfg.signalRate w.length).countP (· = .relay) := by
    have hsnd : (w.zip (windowVerdicts cfg.signalRate w.length)).map Prod.snd =
        windowVerdicts cfg.signalRate w.length := List.map_snd_zip hlength.le
    conv_rhs => rw [← hsnd, List.countP_map]
    rw [relayed, List.length_map, List.countP_eq_length_filter]
    rfl
  have hall := List.length_eq_countP_add_countP (· = Metered.relay)
    (l := windowVerdicts cfg.signalRate w.length)
  have hdropped := dropped_windowVerdicts (n := w.length) hrate
  have hrest : dropped (windowVerdicts cfg.signalRate w.length) =
      (windowVerdicts cfg.signalRate w.length).countP fun v => ¬decide (v = Metered.relay) = true := by
    refine List.countP_congr fun v _ => ?_
    simp
  omega

/-- What is relayed of the windows of attempts is relayed of each. -/
theorem relayed_windows (ws : List (List Int)) (f : List Int → List Metered)
    (hf : ∀ w, (f w).length = w.length) :
    relayed ws.flatten (ws.flatMap f) = ws.flatMap fun w => relayed w (f w) := by
  induction ws with
  | nil => rfl
  | cons w ws ih =>
      rw [List.flatten_cons, List.flatMap_cons, List.flatMap_cons, ← ih]
      unfold relayed
      rw [List.zip_append (hf w).symm, List.filter_append, List.map_append]

/-- **At most twice the rate in any interval as long as a window.** -/
theorem countP_relayed_le (hrate : 0 ≤ cfg.signalRate) (hwindow : 0 < cfg.signalWindowMs)
    (hts : ts.Pairwise (· ≤ ·)) (a : Int) :
    ((relayed ts ((FixedWindow.windows cfg.signalWindowMs ts).flatMap
      fun w => windowVerdicts cfg.signalRate w.length)).countP
        fun t => a ≤ t ∧ t < a + cfg.signalWindowMs) ≤ 2 * cfg.signalRate := by
  have hlaid := FixedWindow.laid_windows (fun t => by omega) hts (W := cfg.signalWindowMs)
  have hbound := @FixedWindow.Laid.countP_le_two_mul _ _ _ _ _ _
    (fun w => relayed w (windowVerdicts cfg.signalRate w.length)) _ hlaid
    (fun w => relayed_subset w _) (length_relayed_le hrate) a
  rw [← relayed_windows _ _ fun w => by rw [windowVerdicts, List.length_map, List.length_range],
    FixedWindow.flatten_windows] at hbound
  omega

end Meter

end AxonaBridge
