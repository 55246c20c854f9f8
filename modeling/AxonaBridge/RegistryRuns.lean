import AxonaBridge.GraduatedRegistry
import AxonaBridge.PartialShuffle
import AxonaBridge.Recency
import Mathlib.Data.Int.ConditionallyCompleteOrder

/-!
# What the registry remembers

The registry under any sequence of its calls is the bounded list of recent keys: a note of a well-formed
id touches it, a prune sweeps, and so does a sample that asks for anything.
-/

open JsText

namespace AxonaBridge

namespace GraduatedRegistry

/-- A call of the registry. -/
inductive Call where
  | note (hex : JsString) (now : Int)
  | prune (now : Int)
  | sample (count : Nat) (exclude : Option JsString) (now : Int) (draws : List Nat)

namespace Call

def now : Call → Int
  | note _ now => now
  | prune now => now
  | sample _ _ now _ => now

def effect : Call → Recency.Effect JsString
  | note hex _ => if isHex66 hex then .touch hex else .idle
  | prune _ => .sweep
  | sample count _ _ _ => if count = 0 then .idle else .sweep

end Call

/-- The registry after a call. -/
def apply (r : GraduatedRegistry) : Call → GraduatedRegistry
  | .note hex now => r.note hex now
  | .prune now => r.prune now
  | .sample count exclude now draws => (r.sample count exclude now draws).2

/-- The registry after a sequence of calls. -/
def run (lRegMs : Int) (mReg : Nat) (calls : List Call) : GraduatedRegistry :=
  calls.foldl apply { lRegMs, mReg }

/-- The registry as a list of recent keys. -/
def policy (lRegMs : Int) (mReg : Nat) : Recency.Policy Call JsString Int where
  effect := Call.effect
  time := Call.now
  old now noted := lRegMs ≤ now - noted
  cap := mReg

/-- What a sample that asks for anything draws from. -/
def pool (r : GraduatedRegistry) (exclude : Option JsString) (now : Int) : List JsString :=
  (r.prune now).map.keys.filter fun hex => some hex ≠ exclude

variable {r : GraduatedRegistry} {call : Call} {calls : List Call} {hex : JsString} {now t : Int}
  {count : Nat} {exclude : Option JsString} {draws : List Nat} {lRegMs : Int} {mReg : Nat}

/-! ### One call -/

@[simp] theorem note_lRegMs : (r.note hex now).lRegMs = r.lRegMs := by
  unfold note
  split <;> rfl

@[simp] theorem note_mReg : (r.note hex now).mReg = r.mReg := by
  unfold note
  split <;> rfl

/-- A malformed id is counted and nothing else. -/
theorem note_of_malformed (h : isHex66 hex = false) :
    r.note hex now = { r with rejected := r.rejected + 1 } := by
  rw [note, h]
  rfl

theorem entries_note (h : isHex66 hex = true) :
    (r.note hex now).map.entries = (r.map.entries.filter (·.1 ≠ hex) ++ [(hex, now)]).drop
      ((r.map.entries.filter (·.1 ≠ hex) ++ [(hex, now)]).length - r.mReg) := by
  have hnot : hex ∉ (r.map.delete hex).keys := by simp
  have hset : ((r.map.delete hex).set hex now).entries =
      r.map.entries.filter (·.1 ≠ hex) ++ [(hex, now)] := JsMap.entries_set_of_not_mem hnot now
  rw [note, if_pos h, ← hset]
  rfl

theorem shuffleStep_eq : shuffleStep draws = PartialShuffle.swap draws := by
  funext pool i
  unfold shuffleStep PartialShuffle.swap
  dsimp only
  generalize pool[i + draws.getD i 0 % (pool.length - i)]? = drawn
  cases pool[i]? <;> cases drawn <;> rfl

theorem sample_zero : r.sample 0 exclude now draws = ([], r) := rfl

theorem sample_of_ne_zero (h : count ≠ 0) :
    r.sample count exclude now draws =
      (PartialShuffle.pick (min count (r.pool exclude now).length) draws (r.pool exclude now),
        r.prune now) := by
  rw [sample, if_neg h, shuffleStep_eq]
  rfl

/-- A call keeps the registry's limits and does to its entries what it does to the list. -/
theorem apply_policy :
    (r.apply call).lRegMs = r.lRegMs ∧ (r.apply call).mReg = r.mReg ∧
      (r.apply call).map.entries = (policy r.lRegMs r.mReg).step r.map.entries call := by
  cases call with
  | note hex now =>
      refine ⟨note_lRegMs, note_mReg, ?_⟩
      cases h : isHex66 hex with
      | true =>
          have heffect : (policy r.lRegMs r.mReg).effect (.note hex now) = .touch hex := if_pos h
          rw [Recency.Policy.step_of_touch heffect]
          exact entries_note h
      | false =>
          have heffect : (policy r.lRegMs r.mReg).effect (.note hex now) = .idle :=
            if_neg (by simp [h])
          rw [Recency.Policy.step_of_idle heffect, apply, note_of_malformed h]
  | prune now => exact ⟨rfl, rfl, rfl⟩
  | sample count exclude now draws =>
      by_cases h : count = 0
      · subst h
        exact ⟨rfl, rfl, rfl⟩
      · have heffect : (policy r.lRegMs r.mReg).effect (.sample count exclude now draws) = .sweep :=
          if_neg h
        rw [Recency.Policy.step_of_sweep heffect, apply, sample_of_ne_zero h]
        exact ⟨rfl, rfl, rfl⟩

/-! ### Every sequence of calls -/

theorem run_policy (lRegMs : Int) (mReg : Nat) (calls : List Call) :
    (run lRegMs mReg calls).lRegMs = lRegMs ∧ (run lRegMs mReg calls).mReg = mReg ∧
      (run lRegMs mReg calls).map.entries = calls.foldl (policy lRegMs mReg).step [] := by
  induction calls using List.reverseRecOn with
  | nil => exact ⟨rfl, rfl, rfl⟩
  | append_singleton calls call ih =>
      obtain ⟨hl, hm, hentries⟩ := ih
      have happly : run lRegMs mReg (calls ++ [call]) = (run lRegMs mReg calls).apply call :=
        List.foldl_append
      obtain ⟨hl', hm', hentries'⟩ := @apply_policy (run lRegMs mReg calls) call
      rw [happly, hl', hm', hentries', hl, hm, hentries, List.foldl_append]
      exact ⟨rfl, rfl, rfl⟩

theorem matches_run (hclock : System.Forward Call.now calls) :
    (policy lRegMs mReg).Matches calls (run lRegMs mReg calls).map.entries := by
  rw [(run_policy lRegMs mReg calls).2.2]
  refine Recency.Policy.Matches.run (fun {now x y} hxy hold => ?_) hclock
  have hold : lRegMs ≤ now - y := of_decide_eq_true hold
  exact decide_eq_true (by omega)

/-- The ids drawn were noted last less than the lifetime ago, and none is the one excluded. -/
theorem of_mem_sample (hclock : System.Forward Call.now calls) (hnow : ∀ call ∈ calls, call.now ≤ now)
    (hmem : hex ∈ ((run lRegMs mReg calls).sample count exclude now draws).1) :
    exclude ≠ some hex ∧
      ∀ t since, (policy lRegMs mReg).LastTouch calls hex t since → now - t < lRegMs := by
  by_cases hcount : count = 0
  · rw [hcount, sample_zero] at hmem
    exact absurd hmem List.not_mem_nil
  rw [sample_of_ne_zero hcount] at hmem
  obtain ⟨hkey, hexclude⟩ := List.mem_filter.mp (PartialShuffle.pick_subset hmem)
  refine ⟨fun heq => (of_decide_eq_true hexclude) heq.symm, fun t since hlast => ?_⟩
  -- The pool is what the prune of this very call leaves.
  have hpruned : System.Forward Call.now (calls ++ [.prune now]) := by
    refine List.pairwise_append.mpr ⟨hclock, List.pairwise_singleton _ _, fun c hc p hp => ?_⟩
    rw [List.mem_singleton.mp hp]
    exact hnow c hc
  have hrun : run lRegMs mReg (calls ++ [.prune now]) = (run lRegMs mReg calls).prune now :=
    List.foldl_append
  obtain ⟨e, he, rfl⟩ := List.mem_map.mp hkey
  have hheld := ((matches_run hpruned).mem_iff e.1 e.2).mp (by rw [hrun]; exact he)
  rw [Recency.Policy.holds_concat_of_ne (fun k h => by cases h)] at hheld
  obtain ⟨⟨since', hlast', -⟩, hlive⟩ := hheld
  have hlive : decide (lRegMs ≤ now - e.2) = false := hlive rfl
  rw [(hlast.unique hlast').1]
  have := of_decide_eq_false hlive
  omega

/-- The registry is the bounded, expiring list of the last notes: what it holds, since when, and in which
order is said of the calls alone, and a sample draws from what has not expired. -/
theorem remembers_last_notes (hclock : System.Forward Call.now calls) :
    (run lRegMs mReg calls).map.size ≤ mReg ∧
      (∀ hex t, (run lRegMs mReg calls).map.get hex = some t ↔ (policy lRegMs mReg).Holds calls hex t) ∧
      (run lRegMs mReg calls).map.keys <:+ ((policy lRegMs mReg).touched calls).dedup ∧
      (∀ hex now, isHex66 hex = false → (run lRegMs mReg calls).note hex now =
        { run lRegMs mReg calls with rejected := (run lRegMs mReg calls).rejected + 1 }) ∧
      ∀ count exclude now draws, (∀ call ∈ calls, call.now ≤ now) →
        ∀ hex ∈ ((run lRegMs mReg calls).sample count exclude now draws).1,
          exclude ≠ some hex ∧
            ∀ t since, (policy lRegMs mReg).LastTouch calls hex t since → now - t < lRegMs := by
  have h : (policy lRegMs mReg).Matches calls (run lRegMs mReg calls).map.entries :=
    matches_run hclock
  refine ⟨h.le_cap, fun hex t => ?_, h.suffix, fun hex now => note_of_malformed, ?_⟩
  · rw [← JsMap.mem_entries_iff, h.mem_iff]
  · intro count exclude now draws hnow hex hmem
    exact of_mem_sample hclock hnow hmem

/-- Two ids, the first noted again after the second, and a sweep that finds the second old. -/
theorem remembers_renoted :
    (run 1000 2 [.note (.replicate 66 97) 0, .note (.replicate 66 98) 5,
        .note (.replicate 66 97) 400, .prune 1005]).map.keys <:+
      ((policy 1000 2).touched [.note (.replicate 66 97) 0, .note (.replicate 66 98) 5,
        .note (.replicate 66 97) 400, .prune 1005]).dedup ∧
    (run 1000 2 [.note (.replicate 66 97) 0, .note (.replicate 66 98) 5,
        .note (.replicate 66 97) 400, .prune 1005]).map.keys = [.replicate 66 97] :=
  ⟨(remembers_last_notes (by simp [System.Forward, Call.now])).2.2.1, by decide +kernel⟩

end GraduatedRegistry

end AxonaBridge
