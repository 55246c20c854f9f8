import AxonaBridge.JsRounding
import AxonaBridge.KernelContext
import AxonaBridge.Runs

/-!
# The kernel log

`installKernelLog` of `kernel_log.js`: rows go to the sink up to a number a second, and the first call of a
later second announces how many have been dropped. The clock and what the sink does are inputs of each call.
-/

open JsText

namespace AxonaBridge

namespace KernelLog

inductive Level where
  | debug
  | info
  | warn
  | error
  deriving DecidableEq

/-- `KERNEL_LOG_LEVELS` -/
def kernelLogLevels : List Level := [.info, .warn, .error]

/-- What the sink is handed. -/
inductive Row where
  /-- `kernel-log-throttled` -/
  | throttled (dropped maxRowsPerSec : JsNum) (droppedTotal : Nat)
  | kernel (level : Level) (event : JsString) (fields : PlainVal)

structure State where
  emitted : Nat := 0
  dropped : Nat := 0
  byLevel : Level → Nat := fun _ => 0
  second : JsNum := .fin 0
  inSecond : Nat := 0

/-- A call of `emit`. -/
structure Call where
  level : Level
  msg : JsString
  /-- The context, unless `boundedContext` throws on it. -/
  ctx : Option Ctx
  /-- `now()` -/
  now : JsNum
  /-- The rows on which the sink throws. -/
  throws : Row → Bool

/-- The state, the rows handed to the sink, and the row on which a call throws. -/
structure Emission where
  state : State
  rows : List Row
  result : Except Row Unit

/-- `sink(...)` -/
def sink (throws : Row → Bool) (row : Row) : Except Row Unit := if throws row then .error row else .ok ()

/-- `try { sink(...) } catch { }` -/
def trySink (throws : Row → Bool) (row : Row) : Except Row Unit := tryCatch (sink throws row) fun _ => pure ()

/-- `Math.floor(now() / 1000)` -/
def secondOf : JsNum → JsNum
  | .fin q => (JsNum.toDouble (q / 1000)).floor
  | now => now

namespace State

variable (max : JsNum) (s : State)

/-- `sec !== state.second` -/
def starts (sec : JsNum) : Bool := sec ≠ s.second || sec = .nan

/-- The overflow that the first call of a new second finds. -/
def missed : JsNum := if max.lt (.fin s.inSecond) then (JsNum.fin s.inSecond).sub max else .fin 0

/-- The first call of a second announces the overflow of the one before. -/
def announce (sec : JsNum) (throws : Row → Bool) : Emission :=
  if s.starts sec then
    let s' := { s with second := sec, inSecond := 0 }
    if (JsNum.fin 0).lt (s.missed max) then
      { state := s', rows := [.throttled (s.missed max) max s.dropped]
        result := trySink throws (.throttled (s.missed max) max s.dropped) }
    else { state := s', rows := [], result := .ok () }
  else { state := s, rows := [], result := .ok () }

/-- The row itself, within the budget of the second. -/
def forward (c : Call) : Emission :=
  let s' := { s with inSecond := s.inSecond + 1 }
  if max.lt (.fin s'.inSecond) then { state := { s' with dropped := s.dropped + 1 }, rows := [], result := .ok () }
  else
    let s' := { s' with
      emitted := s.emitted + 1
      byLevel := Function.update s.byLevel c.level (s.byLevel c.level + 1) }
    let fields :=
      match c.ctx with
      | some ctx => boundedContext ctx
      | none => .obj [(js "unserializable", .bool true)]
    { state := s', rows := [.kernel c.level (js "kernel:" ++ c.msg) fields]
      result := trySink c.throws (.kernel c.level (js "kernel:" ++ c.msg) fields) }

/-- `emit` -/
def emit (c : Call) : Emission :=
  if c.level ∉ kernelLogLevels then { state := s, rows := [], result := .ok () }
  else
    let a := s.announce max (secondOf c.now) c.throws
    match a.result with
    | .error _ => a
    | .ok _ =>
        let f := a.state.forward max c
        { f with rows := a.rows ++ f.rows }

end State

/-! ### The accounts -/

/-- The number of dropped rows that a row announces. -/
def Row.announced : Row → ℚ
  | .throttled (.fin q) _ _ => q
  | _ => 0

def Row.isKernel : Row → Bool
  | .kernel _ _ _ => true
  | _ => false

/-- The state with what has happened to it. -/
structure Ledger where
  state : State := {}
  /-- The calls at the forwarded levels. -/
  calls : Nat := 0
  /-- The sum of the `dropped` values of the rows handed to the sink. -/
  announced : ℚ := 0
  /-- The calls of the current second that were dropped. -/
  overflow : Nat := 0

/-- The call is of a forwarded level and the first of a second. -/
def Ledger.turns (l : Ledger) (c : Call) : Bool :=
  c.level ∈ kernelLogLevels && l.state.starts (secondOf c.now)

def Ledger.step (max : JsNum) (l : Ledger) (c : Call) : Ledger :=
  let r := l.state.emit max c
  { state := r.state
    calls := l.calls + if c.level ∈ kernelLogLevels then 1 else 0
    announced := l.announced + (r.rows.map Row.announced).sum
    overflow := (if l.turns c then 0 else l.overflow) + (r.state.dropped - l.state.dropped) }

/-- The kernel log, from `installKernelLog` on. -/
def ledgers (max : JsNum) : System Ledger Call where
  init := {}
  enabled _ _ := True
  step := Ledger.step max

/-- Every call is counted, once and under its level. -/
def Ledger.Counted (l : Ledger) : Prop :=
  l.state.emitted + l.state.dropped = l.calls ∧ l.state.emitted = (kernelLogLevels.map l.state.byLevel).sum

/-- Every dropped row has been announced, up to those of the current second. -/
def Ledger.Accounted (l : Ledger) : Prop := (l.state.dropped : ℚ) = l.announced + l.overflow

/-- The seconds of the kernel rows of a run. -/
def rowSeconds (max : JsNum) (cs : List Call) : List JsNum :=
  (ledgers max).trace (fun l c =>
    if (l.state.emit max c).rows.any Row.isKernel then some (secondOf c.now) else none) (ledgers max).init cs

/-- The clock of the calls does not go back. -/
def Forward (cs : List Call) : Prop := cs.Pairwise fun c c' => c.now.le c'.now = true

/-- A new second that follows one with too many calls announces as many as were dropped. -/
def Announces (max : JsNum) (l : Ledger) (c : Call) : Prop :=
  ∀ q, max = .fin q → l.turns c = true → q < l.state.inSecond →
    JsNum.toDouble (l.state.inSecond - q) = .fin (l.state.inSecond - ⌊q⌋)

variable {max : JsNum} {s : State} {l : Ledger} {c : Call} {sec : JsNum} {throws : Row → Bool}

/-! ### What a call does -/

namespace State

theorem trySink_eq (throws : Row → Bool) (row : Row) : trySink throws row = .ok () := by
  unfold trySink sink
  cases throws row <;> rfl

theorem announce_result : (s.announce max sec throws).result = .ok () := by
  unfold announce
  dsimp only
  split
  · split
    · exact trySink_eq _ _
    · rfl
  · rfl

theorem announce_state : (s.announce max sec throws).state =
    if s.starts sec then { s with second := sec, inSecond := 0 } else s := by
  unfold announce
  dsimp only
  split
  · split <;> rfl
  · rfl

theorem announce_rows_of_not (h : s.starts sec = false) : (s.announce max sec throws).rows = [] := by
  unfold announce
  rw [if_neg (Bool.eq_false_iff.mp h)]

/-- The row that announces an overflow is not a kernel row. -/
theorem not_isKernel_announce : (s.announce max sec throws).rows.any Row.isKernel = false := by
  unfold announce
  dsimp only
  split
  · split <;> rfl
  · rfl

/-- What is done with the row of a call: it is dropped, or forwarded under its level. -/
structure Forwards (max : JsNum) (s : State) (dropped : Bool) (f : Emission) : Prop where
  second : f.state.second = s.second
  inSecond : f.state.inSecond = s.inSecond + 1
  beyond : max.lt (.fin f.state.inSecond) = dropped
  drops : f.state.dropped = s.dropped + dropped.toNat
  emits : f.state.emitted + dropped.toNat = s.emitted + 1
  levels : (kernelLogLevels.map f.state.byLevel).sum + dropped.toNat = (kernelLogLevels.map s.byLevel).sum + 1
  announced : (f.rows.map Row.announced).sum = 0
  isKernel : f.rows.any Row.isKernel = !dropped
  result : f.result = .ok ()

theorem sum_update (byLevel : Level → Nat) {level : Level} (h : level ∈ kernelLogLevels) :
    (kernelLogLevels.map (Function.update byLevel level (byLevel level + 1))).sum =
      (kernelLogLevels.map byLevel).sum + 1 := by
  cases level with
  | debug => exact absurd h (by decide)
  | info => simp [kernelLogLevels]; omega
  | warn => simp [kernelLogLevels]; omega
  | error => simp [kernelLogLevels]; omega

theorem forward_spec (max : JsNum) (s : State) (h : c.level ∈ kernelLogLevels) :
    ∃ dropped, Forwards max s dropped (s.forward max c) := by
  unfold forward
  dsimp only
  split
  · rename_i hover
    exact ⟨true, rfl, rfl, hover, rfl, rfl, rfl, rfl, rfl, rfl⟩
  · rename_i hunder
    rw [trySink_eq]
    refine ⟨false, rfl, rfl, Bool.eq_false_iff.mpr hunder, rfl, rfl, ?_, ?_, rfl, rfl⟩
    · exact sum_update s.byLevel h
    · exact add_zero 0

theorem emit_of_not_mem (h : c.level ∉ kernelLogLevels) :
    s.emit max c = { state := s, rows := [], result := .ok () } := by
  unfold emit
  rw [if_pos h]

theorem emit_of_mem (h : c.level ∈ kernelLogLevels) : s.emit max c =
    { ((s.announce max (secondOf c.now) c.throws).state.forward max c) with
      rows := (s.announce max (secondOf c.now) c.throws).rows ++
        ((s.announce max (secondOf c.now) c.throws).state.forward max c).rows } := by
  unfold emit
  rw [if_neg (not_not_intro h)]
  dsimp only
  rw [announce_result]

/-- **No call throws.** -/
theorem emit_result (max : JsNum) (s : State) (c : Call) : (s.emit max c).result = .ok () := by
  by_cases h : c.level ∈ kernelLogLevels
  · obtain ⟨dropped, hforwards⟩ := forward_spec max (s.announce max (secondOf c.now) c.throws).state h
    rw [emit_of_mem h]
    exact hforwards.result
  · rw [emit_of_not_mem h]

end State

/-! ### The overflow of a second -/

/-- How many of `n` calls in one second are beyond the budget. -/
def excess (max : JsNum) (n : Nat) : Nat :=
  match max with
  | .fin q => n - ⌊q⌋₊
  | _ => 0

theorem lt_iff_excess (hmax : (JsNum.fin 0).le max = true) (n : Nat) :
    max.lt (.fin n) = true ↔ 0 < excess max n := by
  cases max with
  | fin q =>
      have hq : 0 ≤ q := JsNum.le_fin_iff.mp hmax
      exact decide_eq_true_iff.trans ((Nat.floor_lt hq).symm.trans Nat.sub_pos_iff_lt.symm)
  | inf negative =>
      cases negative with
      | true => cases hmax
      | false => exact iff_of_false Bool.false_ne_true (lt_irrefl 0)
  | nan => cases hmax

theorem excess_succ (hmax : (JsNum.fin 0).le max = true) (n : Nat) :
    excess max (n + 1) = excess max n + if max.lt (.fin (n + 1 : Nat)) then 1 else 0 := by
  have hlt := lt_iff_excess hmax (n + 1)
  cases max with
  | fin q =>
      unfold excess at hlt ⊢
      dsimp only at hlt ⊢
      split
      · rename_i hover
        have hpos := hlt.mp hover
        omega
      · rename_i hnot
        have hzero := mt hlt.mpr hnot
        omega
  | inf negative =>
      cases negative with
      | true => cases hmax
      | false => rfl
  | nan => cases hmax

/-! ### One step of the ledger -/

/-- The state in which a call finds its second. -/
def State.found (s : State) (sec : JsNum) : State :=
  if s.starts sec then { s with second := sec, inSecond := 0 } else s

theorem State.second_found (s : State) (sec : JsNum) : (s.found sec).second = sec := by
  unfold found
  split
  · rfl
  · rename_i hnot
    unfold starts at hnot
    simp only [Bool.or_eq_true, decide_eq_true_eq, not_or, not_not] at hnot
    exact hnot.1.symm

theorem State.inSecond_found (s : State) (sec : JsNum) :
    (s.found sec).inSecond = if s.starts sec then 0 else s.inSecond := by
  unfold found
  split <;> rfl

@[simp] theorem State.dropped_found (s : State) (sec : JsNum) : (s.found sec).dropped = s.dropped := by
  unfold found
  split <;> rfl

@[simp] theorem State.emitted_found (s : State) (sec : JsNum) : (s.found sec).emitted = s.emitted := by
  unfold found
  split <;> rfl

@[simp] theorem State.byLevel_found (s : State) (sec : JsNum) : (s.found sec).byLevel = s.byLevel := by
  unfold found
  split <;> rfl

/-- The sum of what a call announces. -/
def announcement (max : JsNum) (l : Ledger) (c : Call) : ℚ :=
  ((l.state.announce max (secondOf c.now) c.throws).rows.map Row.announced).sum

theorem turns_eq (h : c.level ∈ kernelLogLevels) : l.turns c = l.state.starts (secondOf c.now) := by
  unfold Ledger.turns
  rw [decide_eq_true h, Bool.true_and]

theorem step_of_not_mem (h : c.level ∉ kernelLogLevels) : l.step max c = l := by
  unfold Ledger.step
  have hturns : l.turns c = false := by
    unfold Ledger.turns
    rw [decide_eq_false h, Bool.false_and]
  rw [State.emit_of_not_mem h, if_neg h, hturns]
  simp

/-- What a call at a forwarded level does to the accounts. -/
structure Steps (max : JsNum) (l : Ledger) (c : Call) (l' : Ledger) (dropped : Bool) : Prop where
  second : l'.state.second = secondOf c.now
  inSecond : l'.state.inSecond = (if l.turns c then 0 else l.state.inSecond) + 1
  beyond : max.lt (.fin l'.state.inSecond) = dropped
  calls : l'.calls = l.calls + 1
  drops : l'.state.dropped = l.state.dropped + dropped.toNat
  emits : l'.state.emitted + dropped.toNat = l.state.emitted + 1
  levels : (kernelLogLevels.map l'.state.byLevel).sum + dropped.toNat = (kernelLogLevels.map l.state.byLevel).sum + 1
  overflow : l'.overflow = (if l.turns c then 0 else l.overflow) + dropped.toNat
  announced : l'.announced = l.announced + announcement max l c
  isKernel : (l.state.emit max c).rows.any Row.isKernel = !dropped

theorem exists_steps (max : JsNum) (l : Ledger) (h : c.level ∈ kernelLogLevels) :
    ∃ dropped, Steps max l c (l.step max c) dropped := by
  have hfound : (l.state.announce max (secondOf c.now) c.throws).state = l.state.found (secondOf c.now) :=
    State.announce_state
  have hemit : l.state.emit max c =
      { ((l.state.found (secondOf c.now)).forward max c) with
        rows := (l.state.announce max (secondOf c.now) c.throws).rows ++
          ((l.state.found (secondOf c.now)).forward max c).rows } := by
    rw [State.emit_of_mem h, hfound]
  obtain ⟨dropped, hforwards⟩ := State.forward_spec max (l.state.found (secondOf c.now)) h
  have hdrops := hforwards.drops
  rw [State.dropped_found] at hdrops
  refine ⟨dropped, ?_⟩
  unfold Ledger.step
  rw [hemit]
  constructor
  · exact hforwards.second.trans (State.second_found _ _)
  · rw [turns_eq h, ← State.inSecond_found]
    exact hforwards.inSecond
  · exact hforwards.beyond
  · rw [if_pos h]
  · exact hdrops
  · rw [hforwards.emits, State.emitted_found]
  · rw [hforwards.levels, State.byLevel_found]
  · dsimp only
    rw [hdrops, Nat.add_sub_cancel_left]
  · dsimp only
    rw [List.map_append, List.sum_append, hforwards.announced, add_zero]
    rfl
  · rw [hemit, List.any_append, State.not_isKernel_announce, Bool.false_or]
    exact hforwards.isKernel

/-! ### The accounts of a run -/

theorem announcement_of_not (h : c.level ∈ kernelLogLevels) (hturns : l.turns c = false) :
    announcement max l c = 0 := by
  unfold announcement
  rw [State.announce_rows_of_not (turns_eq h ▸ hturns)]
  rfl

/-- The number that an overflow is announced by. -/
def announcedValue : JsNum → ℚ
  | .fin q => if 0 < q then q else 0
  | _ => 0

theorem announcement_of_turns (h : c.level ∈ kernelLogLevels) (hturns : l.turns c = true) :
    announcement max l c = announcedValue (l.state.missed max) := by
  rw [turns_eq h] at hturns
  unfold announcement State.announce
  rw [if_pos hturns]
  dsimp only
  generalize l.state.missed max = x
  split
  · rename_i hpos
    cases x with
    | fin q =>
        unfold announcedValue
        dsimp only
        rw [if_pos (of_decide_eq_true hpos)]
        exact add_zero q
    | _ => exact add_zero 0
  · rename_i hnot
    cases x with
    | fin q =>
        unfold announcedValue
        dsimp only
        rw [if_neg fun hq => hnot (decide_eq_true hq)]
        rfl
    | _ => rfl

theorem announcedValue_eq_iff {x : JsNum} {k : ℚ} (hk : 0 < k) : announcedValue x = k ↔ x = .fin k := by
  cases x with
  | fin q =>
      unfold announcedValue
      dsimp only
      rw [JsNum.fin.injEq]
      split
      · exact Iff.rfl
      · rename_i hq
        exact iff_of_false hk.ne fun heq => hq (heq ▸ hk)
  | inf negative => exact iff_of_false hk.ne JsNum.noConfusion
  | nan => exact iff_of_false hk.ne JsNum.noConfusion

/-- The first call of a new second announces what was dropped in the last one. -/
theorem announcedValue_missed_iff (hmax : (JsNum.fin 0).le max = true) (s : State) :
    announcedValue (s.missed max) = excess max s.inSecond ↔
      ∀ q, max = .fin q → q < s.inSecond →
        JsNum.toDouble (s.inSecond - q) = .fin (s.inSecond - ⌊q⌋) := by
  have hlt := lt_iff_excess hmax s.inSecond
  unfold State.missed
  split
  · rename_i hover
    have hpos := hlt.mp hover
    rw [announcedValue_eq_iff (Nat.cast_pos.mpr hpos)]
    cases max with
    | fin q =>
        have hq : 0 ≤ q := JsNum.le_fin_iff.mp hmax
        have hfloor : ((⌊q⌋₊ : ℕ) : ℚ) = ((⌊q⌋ : ℤ) : ℚ) := by
          rw [← Int.cast_natCast, Int.natCast_floor_eq_floor hq]
        have hcast : ((excess (.fin q) s.inSecond : ℕ) : ℚ) = s.inSecond - ⌊q⌋ := by
          have hle : ⌊q⌋₊ ≤ s.inSecond := (Nat.sub_pos_iff_lt.mp hpos).le
          unfold excess
          dsimp only
          rw [Nat.cast_sub hle, hfloor]
        rw [hcast]
        constructor
        · intro h q' hq' _
          cases hq'
          exact h
        · intro h
          exact h q rfl (of_decide_eq_true hover)
    | inf negative =>
        cases negative with
        | true => cases hmax
        | false => cases hover
    | nan => cases hmax
  · rename_i hunder
    have hzero : excess max s.inSecond = 0 := Nat.eq_zero_of_not_pos (mt hlt.mpr hunder)
    rw [hzero]
    refine iff_of_true rfl fun q hq hlt' => ?_
    subst hq
    exact absurd (decide_eq_true hlt') hunder

/-- The counts of a run. -/
structure Keeps (max : JsNum) (l : Ledger) : Prop where
  counted : l.Counted
  overflow : l.overflow = excess max l.state.inSecond

theorem keeps_init (hmax : (JsNum.fin 0).le max = true) : Keeps max {} := by
  refine ⟨⟨rfl, rfl⟩, ?_⟩
  cases max with
  | fin q => exact (Nat.zero_sub _).symm
  | _ => rfl

theorem excess_zero (max : JsNum) : excess max 0 = 0 := by
  cases max with
  | fin q => exact Nat.zero_sub _
  | _ => rfl

theorem keeps_step (hmax : (JsNum.fin 0).le max = true) (hl : Keeps max l) : Keeps max (l.step max c) := by
  by_cases h : c.level ∈ kernelLogLevels
  · obtain ⟨dropped, hsteps⟩ := exists_steps max l h
    obtain ⟨⟨htotal, hlevels⟩, hoverflow⟩ := hl
    have hdrops := hsteps.drops
    have hemits := hsteps.emits
    have hsum := hsteps.levels
    refine ⟨⟨?_, by omega⟩, ?_⟩
    · rw [hsteps.calls]
      omega
    · have hbeyond := hsteps.beyond
      rw [hsteps.inSecond] at hbeyond ⊢
      rw [hsteps.overflow, excess_succ hmax, hbeyond]
      cases l.turns c with
      | true =>
          rw [if_pos rfl, if_pos rfl, excess_zero]
          cases dropped <;> rfl
      | false =>
          rw [if_neg Bool.false_ne_true, if_neg Bool.false_ne_true, hoverflow]
          cases dropped <;> rfl
  · rw [step_of_not_mem h]
    exact hl

theorem accounted_init : ({} : Ledger).Accounted := (add_zero _).symm

theorem accounted_step_iff (hmax : (JsNum.fin 0).le max = true) (hl : Keeps max l) (haccounted : l.Accounted) :
    (l.step max c).Accounted ↔ Announces max l c := by
  by_cases h : c.level ∈ kernelLogLevels
  · obtain ⟨dropped, hsteps⟩ := exists_steps max l h
    unfold Ledger.Accounted Announces at *
    rw [hsteps.drops, hsteps.overflow, hsteps.announced]
    cases hturns : l.turns c with
    | false =>
        rw [announcement_of_not h hturns, if_neg Bool.false_ne_true]
        refine iff_of_true ?_ fun q _ hfalse => absurd hfalse Bool.false_ne_true
        push_cast
        linarith
    | true =>
        have hmissed := announcedValue_missed_iff hmax l.state
        rw [← hl.overflow] at hmissed
        have hvalue : ((l.state.dropped + dropped.toNat : ℕ) : ℚ) =
            l.announced + announcedValue (l.state.missed max) + ((0 + dropped.toNat : ℕ) : ℚ) ↔
              announcedValue (l.state.missed max) = l.overflow := by
          push_cast
          constructor
          · intro heq
            linarith
          · intro heq
            linarith
        rw [announcement_of_turns h hturns, if_pos rfl, hvalue, hmissed]
        exact forall_congr' fun q => forall_congr' fun _ => ⟨fun h _ => h, fun h => h rfl⟩
  · rw [step_of_not_mem h]
    refine iff_of_true haccounted fun q _ hturns => ?_
    unfold Ledger.turns at hturns
    rw [decide_eq_false h, Bool.false_and] at hturns
    cases hturns

/-! ### The budget of a second -/

theorem secondOf_ne_nan (q : ℚ) : secondOf (.fin q) ≠ .nan := JsNum.floor_ne_nan (JsNum.toDouble_ne_nan _)

/-- A later time is in no earlier second. -/
theorem secondOf_mono {x y : JsNum} (h : x.le y = true) : (secondOf x).le (secondOf y) = true := by
  cases x with
  | fin p =>
      cases y with
      | fin q =>
          have hdiv : p / 1000 ≤ q / 1000 := div_le_div_of_nonneg_right (JsNum.le_fin_iff.mp h) (by norm_num)
          exact JsNum.floor_mono (JsNum.toDouble_mono hdiv)
      | inf negative =>
          cases negative with
          | true => cases h
          | false => exact JsNum.le_inf (secondOf_ne_nan p)
      | nan => cases h
  | inf negative =>
      cases y with
      | fin q =>
          cases negative with
          | true => exact JsNum.inf_le (secondOf_ne_nan q)
          | false => cases h
      | inf negative' => exact h
      | nan => cases h
  | nan => cases h

/-- The number of kernel rows of a second. -/
def rowsIn (max : JsNum) (cs : List Call) (sec : JsNum) : Nat := (rowSeconds max cs).count sec

/-- What a run of calls has forwarded in each second. -/
structure Budget (max : JsNum) (cs : List Call) : Prop where
  within : ∀ sec, (JsNum.fin (rowsIn max cs sec)).le max = true
  current : rowsIn max cs ((ledgers max).after {} cs).state.second ≤ ((ledgers max).after {} cs).state.inSecond
  past : ∀ sec, rowsIn max cs sec ≠ 0 → ∃ c ∈ cs, ((ledgers max).after {} cs).state.second = secondOf c.now ∧
    (sec = secondOf c.now ∨ sec.le (secondOf c.now) = true)

theorem rowsIn_snoc (max : JsNum) (cs : List Call) (c : Call) (sec : JsNum) : rowsIn max (cs ++ [c]) sec =
    rowsIn max cs sec + if (((ledgers max).after {} cs).state.emit max c).rows.any Row.isKernel = true ∧
      secondOf c.now = sec then 1 else 0 := by
  unfold rowsIn rowSeconds
  rw [System.trace_snoc, List.count_append]
  congr 1
  cases hkernel : (((ledgers max).after {} cs).state.emit max c).rows.any Row.isKernel with
  | true =>
      change List.count sec (if (((ledgers max).after {} cs).state.emit max c).rows.any Row.isKernel = true then
        some (secondOf c.now) else none).toList = _
      rw [if_pos hkernel, Option.toList_some, List.count_singleton]
      simp
  | false =>
      change List.count sec (if (((ledgers max).after {} cs).state.emit max c).rows.any Row.isKernel = true then
        some (secondOf c.now) else none).toList = _
      rw [hkernel]
      simp

theorem le_of_not_lt (hmax : (JsNum.fin 0).le max = true) {n : Nat} (h : max.lt (.fin n) = false) :
    (JsNum.fin n).le max = true := by
  cases max with
  | fin q => exact decide_eq_true (not_lt.mp (of_decide_eq_false h))
  | inf negative => exact hmax
  | nan => cases hmax

theorem budget_nil (hmax : (JsNum.fin 0).le max = true) : Budget max [] where
  within _ := hmax
  current := Nat.zero_le _
  past _ h := absurd rfl h

/-- A second that a call finds to be new has no row yet. -/
theorem Budget.rowsIn_eq_zero {cs : List Call} (hcs : Budget max cs) (hclock : ∀ c' ∈ cs, c'.now.le c.now = true)
    (hturns : ((ledgers max).after {} cs).turns c = true) (h : c.level ∈ kernelLogLevels) :
    rowsIn max cs (secondOf c.now) = 0 := by
  by_contra hne
  obtain ⟨c', hc', hsecond, hbefore⟩ := hcs.past _ hne
  have hle := secondOf_mono (hclock c' hc')
  have hsame : secondOf c.now = secondOf c'.now := by
    rcases hbefore with heq | hback
    · exact heq
    · exact JsNum.eq_of_le_of_le hback hle
  rw [turns_eq h] at hturns
  unfold State.starts at hturns
  rw [hsecond, ← hsame] at hturns
  have hnan : secondOf c.now = .nan := by simpa using hturns
  rw [hnan] at hle
  cases hprev : secondOf c'.now <;> rw [hprev] at hle <;> cases hle

/-- What a call forwards, in its second, is within what the second has seen. -/
theorem Budget.rowsIn_le {cs : List Call} (hcs : Budget max cs) (hclock : ∀ c' ∈ cs, c'.now.le c.now = true)
    (h : c.level ∈ kernelLogLevels) : rowsIn max cs (secondOf c.now) ≤
      if ((ledgers max).after {} cs).turns c then 0 else ((ledgers max).after {} cs).state.inSecond := by
  cases hturns : ((ledgers max).after {} cs).turns c with
  | true =>
      rw [if_pos rfl]
      exact (hcs.rowsIn_eq_zero hclock hturns h).le
  | false =>
      rw [if_neg Bool.false_ne_true]
      rw [turns_eq h] at hturns
      unfold State.starts at hturns
      have hsecond : secondOf c.now = ((ledgers max).after {} cs).state.second := by
        rw [Bool.or_eq_false_iff, decide_eq_false_iff_not, not_not] at hturns
        exact hturns.1
      rw [hsecond]
      exact hcs.current

theorem Budget.snoc (hmax : (JsNum.fin 0).le max = true) {cs : List Call} (hcs : Budget max cs)
    (hclock : ∀ c' ∈ cs, c'.now.le c.now = true) : Budget max (cs ++ [c]) := by
  by_cases h : c.level ∈ kernelLogLevels
  · obtain ⟨dropped, hsteps⟩ := exists_steps max ((ledgers max).after {} cs) h
    have hafter : (ledgers max).after {} (cs ++ [c]) = ((ledgers max).after {} cs).step max c := by
      rw [System.after_append]
      rfl
    have hrows : ∀ sec, rowsIn max (cs ++ [c]) sec =
        rowsIn max cs sec + if dropped = false ∧ secondOf c.now = sec then 1 else 0 := by
      intro sec
      rw [rowsIn_snoc, hsteps.isKernel]
      cases dropped <;> simp
    have hseen : rowsIn max (cs ++ [c]) (secondOf c.now) ≤
        (((ledgers max).after {} cs).step max c).state.inSecond := by
      rw [hrows, hsteps.inSecond]
      apply Nat.add_le_add (hcs.rowsIn_le hclock h)
      split
      · exact le_rfl
      · exact Nat.zero_le _
    constructor
    · intro sec
      by_cases hnow : dropped = false ∧ secondOf c.now = sec
      · obtain ⟨hkept, rfl⟩ := hnow
        have hbudget := le_of_not_lt hmax (hsteps.beyond.trans hkept)
        exact JsNum.le_of_le_of_le (JsNum.le_fin_iff.mpr (Nat.cast_le.mpr hseen)) hbudget
      · rw [hrows, if_neg hnow]
        exact hcs.within sec
    · rw [hafter, hsteps.second]
      exact hseen
    · intro sec hsec
      rw [hafter, hsteps.second]
      refine ⟨c, List.mem_append_right _ List.mem_cons_self, rfl, ?_⟩
      by_cases hnow : secondOf c.now = sec
      · exact Or.inl hnow.symm
      · rw [hrows, if_neg fun hboth => hnow hboth.2] at hsec
        obtain ⟨c', hc', -, hbefore⟩ := hcs.past sec hsec
        have hle := secondOf_mono (hclock c' hc')
        rcases hbefore with rfl | hback
        · exact Or.inr hle
        · exact Or.inr (JsNum.le_of_le_of_le hback hle)
  · have hsame : ∀ sec, rowsIn max (cs ++ [c]) sec = rowsIn max cs sec := by
      intro sec
      rw [rowsIn_snoc, State.emit_of_not_mem h]
      simp
    have hafter : (ledgers max).after {} (cs ++ [c]) = (ledgers max).after {} cs := by
      rw [System.after_append]
      exact step_of_not_mem h
    constructor
    · intro sec
      rw [hsame]
      exact hcs.within sec
    · rw [hafter, hsame]
      exact hcs.current
    · intro sec hsec
      rw [hsame] at hsec
      obtain ⟨c', hc', hpast⟩ := hcs.past sec hsec
      rw [hafter]
      exact ⟨c', List.mem_append_left _ hc', hpast⟩

/-- While the clock does not go back, no second has more kernel rows than its budget. -/
theorem budget (hmax : (JsNum.fin 0).le max = true) {cs : List Call} (hclock : Forward cs) : Budget max cs := by
  induction cs using List.reverseRecOn with
  | nil => exact budget_nil hmax
  | append_singleton cs c ih =>
      obtain ⟨hcs, -, hlast⟩ := List.pairwise_append.mp hclock
      exact (ih hcs).snoc hmax fun c' hc' => hlast c' hc' c List.mem_cons_self

/-- **The accounts of the kernel log.** No call throws, every call is counted, and while the clock does not go
back no second has more kernel rows than its budget. Every dropped row is announced, up to those of the current
second, exactly when each new second announces as many as were dropped. -/
theorem accounts (max : JsNum) (hmax : (JsNum.fin 0).le max = true) (cs : List Call) :
    (ledgers max).Along (fun l c => (l.state.emit max c).result = .ok ()) (ledgers max).init cs ∧
      (ledgers max).Along (fun l c => ((ledgers max).step l c).Counted) (ledgers max).init cs ∧
      (Forward cs → ∀ sec, (JsNum.fin (rowsIn max cs sec)).le max = true) ∧
      ((ledgers max).Along (fun l c => ((ledgers max).step l c).Accounted) (ledgers max).init cs ↔
        (ledgers max).Along (Announces max) (ledgers max).init cs) := by
  have hvalid : (ledgers max).Along (ledgers max).enabled (ledgers max).init cs :=
    System.along_iff_split.mpr fun _ _ _ _ => trivial
  refine ⟨?_, ?_, fun hclock => (budget hmax hclock).within, ?_⟩
  · exact hvalid.mono fun l c _ => State.emit_result max l.state c
  · exact hvalid.of_invariant (fun l c hl _ => ⟨(keeps_step hmax hl).counted, keeps_step hmax hl⟩) (keeps_init hmax)
  · have hinit : Keeps max {} ∧ ({} : Ledger).Accounted := ⟨keeps_init hmax, accounted_init⟩
    apply System.along_congr_of_invariant (I := fun l => Keeps max l ∧ l.Accounted) _ _ hinit hvalid
    · exact fun l c hl _ => accounted_step_iff hmax hl.1 hl.2
    · exact fun l c hl _ hannounces => ⟨keeps_step hmax hl.1, (accounted_step_iff hmax hl.1 hl.2).mpr hannounces⟩

theorem inSecond_le_length (max : JsNum) (cs : List Call) :
    ((ledgers max).after {} cs).state.inSecond ≤ cs.length := by
  induction cs using List.reverseRecOn with
  | nil => exact le_rfl
  | append_singleton cs c ih =>
      rw [System.after_append, List.length_append]
      change (((ledgers max).after {} cs).step max c).state.inSecond ≤ cs.length + 1
      by_cases h : c.level ∈ kernelLogLevels
      · obtain ⟨dropped, hsteps⟩ := exists_steps max ((ledgers max).after {} cs) h
        rw [hsteps.inSecond]
        apply Nat.succ_le_succ
        split
        · exact Nat.zero_le _
        · exact ih
      · rw [step_of_not_mem h]
        omega

/-- An integral budget has every dropped row announced, for as many calls as a double counts. -/
theorem announces_along_of_natCast (k : Nat) {cs : List Call} (hcs : cs.length ≤ 2 ^ 53) :
    (ledgers (.fin k)).Along (Announces (.fin k)) (ledgers (.fin k)).init cs := by
  rw [System.along_iff_split]
  rintro cs₁ c cs₂ rfl q hq - hlt
  cases hq
  have hlength := inSecond_le_length (.fin k) cs₁
  rw [List.length_append] at hcs
  change JsNum.toDouble ((((ledgers (.fin k)).after {} cs₁).state.inSecond : ℚ) - (k : ℚ)) =
    .fin ((((ledgers (.fin k)).after {} cs₁).state.inSecond : ℚ) - (⌊(k : ℚ)⌋ : ℚ))
  have hle : k ≤ ((ledgers (.fin k)).after {} cs₁).state.inSecond := (Nat.cast_lt.mp hlt).le
  rw [Int.floor_natCast, Int.cast_natCast, ← Nat.cast_sub hle]
  exact JsNum.toDouble_natCast (by omega)

/-- A call in a second. -/
def callAt (ms : ℚ) : Call where
  level := .info
  msg := js "row"
  ctx := some .null
  now := .fin ms
  throws _ := true

/-- Three calls in one second and one in the next. -/
def burst : List Call := [callAt 5000, callAt 5000, callAt 5999, callAt 6000]

theorem accounted_burst :
    (ledgers (.fin 2)).Along (fun l c => ((ledgers (.fin 2)).step l c).Accounted) (ledgers (.fin 2)).init burst :=
  (accounts (.fin 2) (by decide) burst).2.2.2.mpr (announces_along_of_natCast 2 (by decide))

/-- With half a row a second, the first call of a second announces half of the row that was dropped. -/
theorem not_accounted_half :
    (JsNum.fin 0).le (.fin (1 / 2)) = true ∧
      ¬(ledgers (.fin (1 / 2))).Along (fun l c => ((ledgers (.fin (1 / 2))).step l c).Accounted)
        (ledgers (.fin (1 / 2))).init [callAt 1000, callAt 2000] := by
  refine ⟨by decide +kernel, fun h => ?_⟩
  have hlast := h.2.1
  revert hlast
  unfold Ledger.Accounted
  decide +kernel

end KernelLog

end AxonaBridge
