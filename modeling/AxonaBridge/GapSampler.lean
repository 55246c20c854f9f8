import Mathlib.Tactic.Common

/-!
# A sampler of gaps

A timer meant to tick every `period` measures by how much each tick is late, and remembers when it
was last late by `least` or more. Between two ticks the gap is seen by how late the next one is
already. Whatever order the ticks and the judgments come in, a gap of `period + least` in which
nothing ticks is seen by every judgment from its end on.
-/

namespace AxonaBridge

structure GapSampler where
  lastAt : Int
  gapEndAt : Int

namespace GapSampler

variable {period least : Int} {g : GapSampler} {s e : Int}

/-- By how much a tick at `now` is late. -/
def lateBy (period : Int) (g : GapSampler) (now : Int) : Int := now - g.lastAt - period

def tick (period least : Int) (g : GapSampler) (now : Int) : GapSampler where
  lastAt := now
  gapEndAt := if least ≤ g.lateBy period now then now else g.gapEndAt

/-- A judgment at `now` of the time from `since` on sees a gap. -/
def Sees (period least : Int) (g : GapSampler) (since now : Int) : Prop :=
  since ≤ g.gapEndAt ∨ least ≤ g.lateBy period now

/-- The sampler has noted the end of the gap, or has not ticked since the gap began. -/
def Covers (g : GapSampler) (s e : Int) : Prop := g.lastAt ≤ s ∨ e ≤ g.gapEndAt

theorem covers_tick (hlong : period + least ≤ e - s) (h : g.Covers s e) {now : Int}
    (hnow : now ≤ s ∨ e ≤ now) : (g.tick period least now).Covers s e := by
  rcases hnow with hbefore | hafter
  · exact Or.inl hbefore
  · refine Or.inr ?_
    unfold tick
    dsimp only
    split
    · exact hafter
    · rename_i hlate
      rcases h with hlast | hend
      · unfold lateBy at hlate
        omega
      · exact hend

theorem Covers.sees (hlong : period + least ≤ e - s) (h : g.Covers s e) {since now : Int}
    (hsince : since ≤ e) (hnow : e ≤ now) : g.Sees period least since now := by
  rcases h with hlast | hend
  · refine Or.inr ?_
    unfold lateBy
    omega
  · exact Or.inl (Int.le_trans hsince hend)

end GapSampler

end AxonaBridge
