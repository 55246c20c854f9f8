import AxonaBridge.JsText

/-!
# Whom to graduate

`selectGraduate` of `graduation_select.js`: the most over-represented region first, the best meshed
peer of it, and never a region's last representative.
-/

open JsText

namespace AxonaBridge

namespace GraduationSelect

structure Candidate where
  id : JsString
  region : Option JsString
  since : Int
  meshBound : Option Nat
  kernelOk : Bool
  inCooldown : Bool

structure Options where
  now : Int
  safeFloor : Int
  minUptimeMs : Int
  maxNurseryMs : Int

inductive Basis where
  | vitality
  | uptime
  | ceiling
  deriving DecidableEq

def Basis.text : Basis → JsString
  | .vitality => js "vitality"
  | .uptime => js "uptime"
  | .ceiling => js "ceiling"

structure Pick where
  id : JsString
  region : Option JsString
  meshBound : Option Nat
  basis : Option Basis

/-- How many candidates are bound in a region. -/
def regionCount (candidates : List Candidate) (region : Option JsString) : Nat :=
  if region.isNone then 0 else candidates.countP fun c => c.region = region

variable (o : Options)

def basisOf (c : Candidate) : Option Basis :=
  if c.meshBound.any fun m => o.safeFloor ≤ m then some .vitality
  else if o.maxNurseryMs ≤ o.now - c.since then some .ceiling
  else if c.meshBound.isNone ∧ o.minUptimeMs ≤ o.now - c.since then some .uptime
  else none

def eligible (candidates : List Candidate) : List Candidate :=
  candidates.filter fun c =>
    c.kernelOk && c.region.isSome && !c.inCooldown && (basisOf o c).isSome

/-- An unknown mesh size sorts below every known one. -/
def mbKey (c : Candidate) : Int :=
  match c.meshBound with
  | none => -1
  | some m => m

/-- The comparator of the sort: how far `a` stands behind `b`. -/
def compare (candidates : List Candidate) (a b : Candidate) : Int :=
  let rd := (regionCount candidates b.region : Int) - regionCount candidates a.region
  if rd ≠ 0 then rd
  else
    let vd := mbKey b - mbKey a
    if vd ≠ 0 then vd else a.since - b.since

def sorted (candidates : List Candidate) : List Candidate :=
  (eligible o candidates).insertionSort fun a b => compare candidates a b ≤ 0

def selectGraduate (candidates : List Candidate) : Option Pick :=
  ((sorted o candidates).find? fun c => 1 < regionCount candidates c.region).map fun c =>
    { id := c.id, region := c.region, meshBound := c.meshBound, basis := basisOf o c }

/-- The pick is an eligible candidate in company of its region. -/
theorem of_selectGraduate {candidates : List Candidate} {p : Pick}
    (h : selectGraduate o candidates = some p) :
    ∃ c ∈ eligible o candidates, 1 < regionCount candidates c.region ∧
      p = { id := c.id, region := c.region, meshBound := c.meshBound, basis := basisOf o c } := by
  obtain ⟨c, hc, rfl⟩ := Option.map_eq_some_iff.mp h
  have hmem := List.mem_of_find?_eq_some hc
  rw [sorted, List.mem_insertionSort] at hmem
  have hcompany := List.find?_some hc
  exact ⟨c, hmem, of_decide_eq_true hcompany, rfl⟩

/-- The pick is one of the candidates. -/
theorem mem_of_selectGraduate {candidates : List Candidate} {p : Pick}
    (h : selectGraduate o candidates = some p) : ∃ c ∈ candidates, c.id = p.id := by
  obtain ⟨c, hc, -, rfl⟩ := of_selectGraduate o h
  exact ⟨c, List.mem_of_mem_filter hc, rfl⟩

end GraduationSelect

end AxonaBridge
