import AxonaBridge.Cooldown
import AxonaBridge.Runs
import AxonaBridge.SocketBootstrap

/-!
# The cooldowns forget nothing that matters

`RecentlyRetired` under any sequence of its calls answers as if it never dropped an entry.
-/

open JsText

namespace AxonaBridge.SocketBootstrap.RecentlyRetired

inductive Scope where
  | identity
  | conn
  deriving DecidableEq

/-- A call: `markIdentity` and `markConn`, `hasIdentity` and `hasConn`. -/
inductive Call where
  | mark (scope : Scope) (key : JsString) (now : Int)
  | has (scope : Scope) (key : JsString) (now : Int)

def Call.now : Call → Int
  | mark _ _ now => now
  | has _ _ now => now

/-- The entries of a scope. -/
def map (r : RecentlyRetired) : Scope → JsMap JsString Int
  | .identity => r.ids
  | .conn => r.conns

def mark (r : RecentlyRetired) (scope : Scope) (key : JsString) (now : Int) : RecentlyRetired :=
  match scope with
  | .identity => r.markIdentity key now
  | .conn => r.markConn key now

def has (r : RecentlyRetired) (scope : Scope) (key : JsString) (now : Int) : Bool × RecentlyRetired :=
  match scope with
  | .identity => r.hasIdentity key now
  | .conn => r.hasConn key now

def apply (r : RecentlyRetired) : Call → RecentlyRetired
  | .mark scope key now => r.mark scope key now
  | .has scope key now => (r.has scope key now).2

def run (cooldownMs : Int) (calls : List Call) : RecentlyRetired := calls.foldl apply { cooldownMs }

/-- The last marks of a scope after a call; an empty key marks nothing. -/
def Call.record (scope : Scope) (last : JsString → Option Int) : Call → JsString → Option Int
  | mark scope' key now =>
      if scope' = scope ∧ key ≠ [] then Function.update last key (some now) else last
  | has _ _ _ => last

/-- When a key was last marked in a scope. -/
def lastMark (scope : Scope) (calls : List Call) : JsString → Option Int :=
  calls.foldl (Call.record scope) fun _ => none

variable {r : RecentlyRetired} {scope : Scope} {calls : List Call} {call : Call} {key : JsString}
  {now t cooldownMs : Int} {last : JsString → Option Int}

/-- The scope remembers what is not over at `now`. -/
def Remembers (r : RecentlyRetired) (now : Int) (scope : Scope) (last : JsString → Option Int) : Prop :=
  Cooldown.Remembers (fun t => r.cooldownMs ≤ now - t) (r.map scope) last

theorem cooldownMs_apply : (r.apply call).cooldownMs = r.cooldownMs := by
  cases call with
  | mark scope key now => cases scope <;> rfl
  | has scope key now => cases scope <;> rfl

theorem Remembers.later (h : r.Remembers t scope last) (htn : t ≤ now) : r.Remembers now scope last :=
  Cooldown.Remembers.later h fun _ hover => by omega

theorem boundScope_remembers {map : JsMap JsString Int}
    (h : Cooldown.Remembers (fun t => r.cooldownMs ≤ now - t) map last) :
    Cooldown.Remembers (fun t => r.cooldownMs ≤ now - t) (r.boundScope map now) last := by
  unfold boundScope
  split
  · refine h.filter fun e hfalse => ?_
    have := of_decide_eq_false hfalse
    omega
  · exact h

theorem live_remembers {map : JsMap JsString Int}
    (h : Cooldown.Remembers (fun t => r.cooldownMs ≤ now - t) map last) :
    Cooldown.Remembers (fun t => r.cooldownMs ≤ now - t) (r.live map key now).2 last := by
  unfold live
  split
  · exact h
  · rename_i noted hnoted
    split
    · exact h
    · refine h.delete fun t ht => ?_
      rw [hnoted] at ht
      cases ht
      omega

theorem map_mark {scope' : Scope} : (r.mark scope' key now).map scope =
    r.boundScope (if scope' = scope ∧ key ≠ [] then (r.map scope).set key now else r.map scope) now := by
  by_cases hkey : key = []
  · cases scope <;> cases scope' <;> simp [mark, map, markIdentity, markConn, bound, boundScope, hkey]
  · cases scope <;> cases scope' <;> simp [mark, map, markIdentity, markConn, bound, boundScope, hkey]

theorem map_has {scope' : Scope} : (r.has scope' key now).2.map scope =
    if scope' = scope then (r.live (r.map scope) key now).2 else r.map scope := by
  cases scope <;> cases scope' <;> rfl

/-- What a scope remembers it remembers after a call, next to what the call marks. -/
theorem Remembers.apply (h : r.Remembers call.now scope last) :
    (r.apply call).Remembers call.now scope (call.record scope last) := by
  rw [Remembers, cooldownMs_apply]
  cases call with
  | mark scope' key now =>
      rw [RecentlyRetired.apply, map_mark]
      refine boundScope_remembers ?_
      rw [Call.record]
      split
      · exact h.set key now
      · exact h
  | has scope' key now =>
      rw [RecentlyRetired.apply, map_has]
      split
      · exact live_remembers h
      · exact h

theorem remembers_run (hclock : System.Forward Call.now calls) (hnow : ∀ call ∈ calls, call.now ≤ now) :
    (run cooldownMs calls).cooldownMs = cooldownMs ∧
      (run cooldownMs calls).Remembers now scope (lastMark scope calls) := by
  induction calls using List.reverseRecOn generalizing now with
  | nil => exact ⟨rfl, by cases scope <;> exact Cooldown.Remembers.empty⟩
  | append_singleton calls call ih =>
      have hrun : run cooldownMs (calls ++ [call]) = (run cooldownMs calls).apply call :=
        List.foldl_append
      have hlast : lastMark scope (calls ++ [call]) = call.record scope (lastMark scope calls) :=
        List.foldl_append
      obtain ⟨hcooldown, hremembers⟩ :=
        ih hclock.left fun c hc => hclock.le hc (List.mem_singleton_self call)
      rw [hrun, hlast]
      refine ⟨cooldownMs_apply.trans hcooldown, hremembers.apply.later ?_⟩
      exact hnow call (List.mem_append_right _ (List.mem_singleton_self call))

theorem has_fst {r : RecentlyRetired} : (r.has scope key now).1 = true ↔
    ∃ t, (r.map scope).get key = some t ∧ ¬r.cooldownMs ≤ now - t := by
  have hlive : ∀ map : JsMap JsString Int, (r.live map key now).1 = true ↔
      ∃ t, map.get key = some t ∧ ¬r.cooldownMs ≤ now - t := fun map => by
    unfold live
    split
    · rename_i hnone
      simp [hnone]
    · rename_i t ht
      split
      · simp only [ht, Option.some.injEq, exists_eq_left', true_iff]
        omega
      · simp only [ht, Option.some.injEq, exists_eq_left', Bool.false_eq_true, false_iff]
        omega
  cases scope with
  | identity => exact hlive r.ids
  | conn => exact hlive r.conns

/-- A key is in cooldown exactly when its last mark in that scope is less than the cooldown ago. -/
theorem has_iff_lastMark (hclock : System.Forward Call.now calls)
    (hnow : ∀ call ∈ calls, call.now ≤ now) :
    (((run cooldownMs calls).hasIdentity key now).1 = true ↔
      ∃ t, lastMark .identity calls key = some t ∧ now - t < cooldownMs) ∧
    (((run cooldownMs calls).hasConn key now).1 = true ↔
      ∃ t, lastMark .conn calls key = some t ∧ now - t < cooldownMs) := by
  have hscope : ∀ scope, ((run cooldownMs calls).has scope key now).1 = true ↔
      ∃ t, lastMark scope calls key = some t ∧ now - t < cooldownMs := fun scope => by
    obtain ⟨hcooldown, hremembers⟩ := @remembers_run scope calls now cooldownMs hclock hnow
    have hlive := hremembers.live_iff key
    rw [hcooldown] at hlive
    rw [has_fst, hcooldown, hlive]
    simp only [Int.not_le]
  exact ⟨hscope .identity, hscope .conn⟩

/-- An identity marked at `0` and `100`, and its own connection at `40`. -/
theorem has_iff_lastMark_remarked :
    (((run 50 [.mark .identity [97] 0, .mark .conn [99] 40, .mark .identity [97] 100]).hasIdentity
        [97] 149).1 = true ↔
      ∃ t, lastMark .identity [.mark .identity [97] 0, .mark .conn [99] 40, .mark .identity [97] 100]
        [97] = some t ∧ 149 - t < 50) ∧
    ((run 50 [.mark .identity [97] 0, .mark .conn [99] 40, .mark .identity [97] 100]).hasIdentity
        [97] 149).1 = true :=
  ⟨(has_iff_lastMark (by simp [System.Forward, Call.now]) (by simp [Call.now])).1, by decide +kernel⟩

end AxonaBridge.SocketBootstrap.RecentlyRetired
