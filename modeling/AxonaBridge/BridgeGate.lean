import AxonaBridge.BridgeBand
import AxonaBridge.FirstInOrder

/-!
# The gate and the regions

The selector ranks by how crowded a region is and leaves no region empty, and it counts the candidates
it is given. The gate takes the held ones out before it counts. What is picked is what would be picked
with the held ones counted, exactly when leaving them out keeps the lead of the connection that comes
first, and its company.
-/

open JsText

namespace AxonaBridge

namespace GraduationSelect

variable {o : Options} {candidates : List Candidate} {a b c : Candidate}

/-- `a` is sorted no later than `b`. -/
def NoLater (candidates : List Candidate) (a b : Candidate) : Prop := compare candidates a b ≤ 0

instance : DecidableRel (NoLater candidates) :=
  fun a b => inferInstanceAs (Decidable (compare candidates a b ≤ 0))

/-- The more crowded region first, then the better meshed, then the older. -/
theorem noLater_iff :
    NoLater candidates a b ↔ regionCount candidates b.region < regionCount candidates a.region ∨
      (regionCount candidates b.region = regionCount candidates a.region ∧
        (mbKey b < mbKey a ∨ (mbKey b = mbKey a ∧ a.since ≤ b.since))) := by
  unfold NoLater compare
  dsimp only
  split_ifs <;> omega

instance : Std.Total (NoLater candidates) where
  total a b := by
    rw [noLater_iff, noLater_iff]
    omega

instance : IsTrans Candidate (NoLater candidates) where
  trans a b c hab hbc := by
    rw [noLater_iff] at hab hbc ⊢
    omega

theorem regionCount_some (region : JsString) :
    regionCount candidates (some region) = candidates.countP fun c => c.region = some region := rfl

def pickOf (o : Options) (c : Candidate) : Pick where
  id := c.id
  region := c.region
  meshBound := c.meshBound
  basis := basisOf o c

/-- The pick is the first of the eligible candidates, where its region has a second member. -/
theorem selectGraduate_eq_some_iff {p : Pick} :
    selectGraduate o candidates = some p ↔
      ∃ c, (eligible o candidates).FirstBy (NoLater candidates) c ∧
        1 < regionCount candidates c.region ∧ p = pickOf o c := by
  have hcrowd : ∀ a b, NoLater candidates a b →
      decide (1 < regionCount candidates b.region) = true →
        decide (1 < regionCount candidates a.region) = true := by
    intro a b hab hb
    rw [decide_eq_true_eq] at hb ⊢
    rw [noLater_iff] at hab
    omega
  have hsearch : ∀ c, (sorted o candidates).find? (fun c => 1 < regionCount candidates c.region) = some c ↔
      (eligible o candidates).FirstBy (NoLater candidates) c ∧
        decide (1 < regionCount candidates c.region) = true := fun c =>
    @List.find?_insertionSort Candidate (NoLater candidates) (eligible o candidates) c _ _ _
      (fun c => decide (1 < regionCount candidates c.region)) hcrowd
  unfold selectGraduate
  rw [Option.map_eq_some_iff]
  constructor
  · rintro ⟨c, hc, rfl⟩
    obtain ⟨hfirst, hcompany⟩ := (hsearch c).mp hc
    exact ⟨c, hfirst, of_decide_eq_true hcompany, rfl⟩
  · rintro ⟨c, hfirst, hcompany, rfl⟩
    exact ⟨c, (hsearch c).mpr ⟨hfirst, decide_eq_true hcompany⟩, rfl⟩

end GraduationSelect

namespace Server

open GraduationSelect

variable {cfg : Config} {io : Io} {s : Server} {c : Candidate}

/-- The descriptor of a connection, with the held ones marked ineligible. -/
def marked (cfg : Config) (io : Io) (s : Server) (e : ConnId × Conn) : Candidate :=
  { s.describe cfg io e with kernelOk := (s.describe cfg io e).kernelOk && !s.heldBack cfg io e }

/-- All admitted connections, the held ones ineligible. -/
def wholePopulation (cfg : Config) (io : Io) (s : Server) : List Candidate :=
  s.graduationCandidates.map (s.marked cfg io)

/-- The admitted connections the gate leaves. -/
def unheld (cfg : Config) (io : Io) (s : Server) : List Candidate :=
  (s.gated cfg io).map (s.describe cfg io)

/-- The pick with the held ones ineligible and counted. -/
def reference (cfg : Config) (io : Io) (s : Server) : Option Pick :=
  selectGraduate (graduationOptions cfg io) (s.wholePopulation cfg io)

/-- A connection whose gate is open and that a basis of graduation takes. -/
def Eligible (cfg : Config) (io : Io) (s : Server) (c : Candidate) : Prop :=
  c ∈ eligible (graduationOptions cfg io) (s.unheld cfg io)

theorem marked_of_not_held {e : ConnId × Conn} (h : s.heldBack cfg io e = false) :
    s.marked cfg io e = s.describe cfg io e := by
  unfold marked
  rw [h]
  simp

/-- The same connections are eligible, whether the held ones are taken out or marked. -/
theorem eligible_wholePopulation (o : Options) (hgate : cfg.graduationGateOn = true) :
    eligible o (s.wholePopulation cfg io) = eligible o (s.unheld cfg io) := by
  unfold wholePopulation unheld gated
  rw [if_pos hgate]
  induction s.graduationCandidates with
  | nil => rfl
  | cons e es ih =>
      cases hheld : s.heldBack cfg io e with
      | false =>
          rw [List.filter_cons_of_pos (by rw [hheld]; rfl), List.map_cons, List.map_cons,
            marked_of_not_held hheld]
          unfold eligible at ih ⊢
          rw [List.filter_cons, List.filter_cons, ih]
      | true =>
          have hout : (s.marked cfg io e).kernelOk = false := by
            unfold marked
            rw [hheld]
            exact Bool.and_false _
          rw [List.filter_cons_of_neg (by rw [hheld]; exact Bool.false_ne_true), List.map_cons, ← ih]
          unfold eligible
          rw [List.filter_cons_of_neg]
          rw [hout]
          exact Bool.false_ne_true

/-- A region holds what the gate leaves of it and what it holds back. -/
theorem regionCount_wholePopulation (hgate : cfg.graduationGateOn = true) {region : JsString} :
    regionCount (s.wholePopulation cfg io) (some region) =
      regionCount (s.unheld cfg io) (some region) +
        (s.graduationCandidates.filter (s.heldBack cfg io)).countP
          fun e => s.connRegion e.1 = some region := by
  unfold wholePopulation unheld gated
  rw [if_pos hgate, regionCount_some, regionCount_some, List.countP_map, List.countP_map,
    List.countP_eq_countP_filter_add _ _ (s.heldBack cfg io), Nat.add_comm]
  congr 2

/-- What `maybeGraduate` closes is what is picked with the held ones counted; and where an eligible
connection is bound in the region of a held one, it closes some connection. -/
def GateKeepsOccupancy (cfg : Config) (io : Io) (s : Server) : Prop :=
  GraduationDue cfg io s →
    (∀ id, (∃ code reason threw, Added s (s.maybeGraduate cfg io) (.close id code reason threw)) ↔
      ∃ pick, s.reference cfg io = some pick ∧ pick.id = id) ∧
    ((∃ c, s.Eligible cfg io c ∧ ∃ held ∈ s.graduationCandidates, s.heldBack cfg io held = true ∧
        s.connRegion held.1 = c.region) →
      ∃ id code reason threw, Added s (s.maybeGraduate cfg io) (.close id code reason threw))

/-- The eligible connection that comes first with the held ones counted, if it has company then, comes
first without them too, and keeps some of its company. -/
def LeadOutlastsGate (cfg : Config) (io : Io) (s : Server) : Prop :=
  GraduationDue cfg io s → ∀ c,
    (eligible (graduationOptions cfg io) (s.unheld cfg io)).FirstBy (NoLater (s.wholePopulation cfg io)) c →
      1 < regionCount (s.wholePopulation cfg io) c.region →
        (eligible (graduationOptions cfg io) (s.unheld cfg io)).FirstBy (NoLater (s.unheld cfg io)) c ∧
          1 < regionCount (s.unheld cfg io) c.region

theorem selection_eq (cfg : Config) (io : Io) (s : Server) :
    s.selection cfg io = selectGraduate (graduationOptions cfg io) (s.unheld cfg io) := rfl

/-- An eligible connection is bound in a region, and counts in it. -/
theorem Eligible.region_pos (h : s.Eligible cfg io c) :
    ∃ region, c.region = some region ∧ 1 ≤ regionCount (s.unheld cfg io) (some region) := by
  obtain ⟨hmem, hbound⟩ := List.mem_filter.mp h
  have hregion : c.region.isSome = true := by
    simp only [Bool.and_eq_true] at hbound
    exact hbound.1.1.2
  obtain ⟨region, hregion⟩ := Option.isSome_iff_exists.mp hregion
  refine ⟨region, hregion, ?_⟩
  rw [regionCount_some]
  exact List.one_le_countP_iff.mpr ⟨c, hmem, decide_eq_true hregion⟩

/-- With the held ones counted somebody is picked where an eligible connection has company. -/
theorem exists_reference (hgate : cfg.graduationGateOn = true) (h : s.Eligible cfg io c)
    (hcompany : 1 < regionCount (s.wholePopulation cfg io) c.region) :
    ∃ a, (eligible (graduationOptions cfg io) (s.unheld cfg io)).FirstBy
        (NoLater (s.wholePopulation cfg io)) a ∧
      1 < regionCount (s.wholePopulation cfg io) a.region ∧
        s.reference cfg io = some (pickOf (graduationOptions cfg io) a) := by
  obtain ⟨a, hfirst⟩ :=
    @List.exists_firstBy Candidate (NoLater (s.wholePopulation cfg io))
      (eligible (graduationOptions cfg io) (s.unheld cfg io)) _ _ _ (List.ne_nil_of_mem h)
  have hbefore := noLater_iff.mp (hfirst.rel c h)
  have hlead : 1 < regionCount (s.wholePopulation cfg io) a.region := by omega
  refine ⟨a, hfirst, hlead, selectGraduate_eq_some_iff.mpr ⟨a, ?_, hlead, rfl⟩⟩
  rw [eligible_wholePopulation _ hgate]
  exact hfirst

theorem nodup_unheld : ((s.unheld cfg io).map Candidate.id).Nodup := by
  have hids : (s.unheld cfg io).map Candidate.id = (s.gated cfg io).map Prod.fst := by
    unfold unheld
    rw [List.map_map]
    rfl
  rw [hids]
  exact s.connections.nodup.sublist (gated_sublist.map _)

/-- Where the same connection is picked, with the held ones counted and without, the lead outlasts the gate. -/
theorem leadOutlastsGate_of_picks {pick pick' : Pick} (hgate : cfg.graduationGateOn = true)
    (href : s.reference cfg io = some pick) (hselection : s.selection cfg io = some pick')
    (hid : pick'.id = pick.id) : s.LeadOutlastsGate cfg io := by
  obtain ⟨a, hfirst, -, rfl⟩ := selectGraduate_eq_some_iff.mp href
  obtain ⟨b, hfirst', hcompany', rfl⟩ := selectGraduate_eq_some_iff.mp hselection
  rw [eligible_wholePopulation _ hgate] at hfirst
  have heq : b = a := List.inj_on_of_nodup_map nodup_unheld (List.mem_of_mem_filter hfirst'.mem)
    (List.mem_of_mem_filter hfirst.mem) hid
  intro _ c hc _
  obtain rfl : c = b := (hc.unique hfirst).trans heq.symm
  exact ⟨hfirst', hcompany'⟩

/-- **The gate and the regions**: past its switch, its interval and its band `maybeGraduate` picks as if
the held ones were counted, exactly where the lead outlasts the gate. -/
theorem gateKeepsOccupancy_iff (cfg : Config) (io : Io) (s : Server) (hgate : cfg.graduationGateOn = true) :
    s.GateKeepsOccupancy cfg io ↔ s.LeadOutlastsGate cfg io := by
  constructor
  · intro h hdue c hfirst hcompany
    have hpick : s.reference cfg io = some (pickOf (graduationOptions cfg io) c) := by
      refine selectGraduate_eq_some_iff.mpr ⟨c, ?_, hcompany, rfl⟩
      rw [eligible_wholePopulation _ hgate]
      exact hfirst
    obtain ⟨-, pick, hselection, hid⟩ :=
      added_maybeGraduate_iff.mp (((h hdue).1 c.id).mpr ⟨_, hpick, rfl⟩)
    exact leadOutlastsGate_of_picks hgate hpick hselection hid hdue c hfirst hcompany
  · intro h hdue
    have hpicks : s.selection cfg io = s.reference cfg io := by
      refine Option.ext fun pick => ⟨fun hpick => ?_, fun hpick => ?_⟩
      · rw [selection_eq] at hpick
        obtain ⟨c, hfirst, hcompany, rfl⟩ := selectGraduate_eq_some_iff.mp hpick
        obtain ⟨region, hregion, -⟩ := Eligible.region_pos hfirst.mem
        have hcrowd := @regionCount_wholePopulation cfg io s hgate region
        rw [hregion] at hcompany
        obtain ⟨a, ha, hlead, href⟩ := exists_reference hgate hfirst.mem (by rw [hregion]; omega)
        rw [href, hfirst.unique (h hdue a ha hlead).1]
      · obtain ⟨c, hfirst, hcompany, rfl⟩ := selectGraduate_eq_some_iff.mp hpick
        rw [eligible_wholePopulation _ hgate] at hfirst
        obtain ⟨hfirst', hcompany'⟩ := h hdue c hfirst hcompany
        exact selectGraduate_eq_some_iff.mpr ⟨c, hfirst', hcompany', rfl⟩
    have hcloses : ∀ id, (∃ code reason threw,
        Added s (s.maybeGraduate cfg io) (.close id code reason threw)) ↔
          ∃ pick, s.reference cfg io = some pick ∧ pick.id = id := by
      intro id
      rw [added_maybeGraduate_iff, hpicks]
      exact and_iff_right hdue
    refine ⟨hcloses, ?_⟩
    rintro ⟨c, hc, held, hmem, hheld, hsame⟩
    obtain ⟨region, hregion, hone⟩ := hc.region_pos
    have hcrowd := @regionCount_wholePopulation cfg io s hgate region
    have hother : 1 ≤ (s.graduationCandidates.filter (s.heldBack cfg io)).countP
        fun e => s.connRegion e.1 = some region :=
      List.one_le_countP_iff.mpr ⟨held, List.mem_filter.mpr ⟨hmem, hheld⟩,
        decide_eq_true (hsame.trans hregion)⟩
    obtain ⟨a, -, -, href⟩ := exists_reference hgate hc (by rw [hregion]; omega)
    obtain ⟨code, reason, threw, hadded⟩ := (hcloses a.id).mpr ⟨_, href, rfl⟩
    exact ⟨a.id, code, reason, threw, hadded⟩

end Server

namespace Bridge

open Server

/-- A bridge with room for one and the gate on. -/
def guarded : Config := { tight with graduationGateOn := true }

/-- The second of two connections of a region comes a hundred seconds after the first, and is introduced
to it. -/
def heldBesideUnheld : List (Io × Event) :=
  [({}, .connect (js "c1")), ({}, .message (js "c1") currentHello),
    ({}, .message (js "c1") (axonaMessage (notification (js "hello") .null))),
    ({}, .verified 0 (.ok (js "7"))),
    ({ now := 100000 }, .connect (js "c2")), ({ now := 100000 }, .message (js "c2") currentHello),
    ({ now := 100000 }, .message (js "c2") (axonaMessage (notification (js "hello") .null))),
    ({ now := 100000 }, .verified 0 (.ok (js "8")))]

def afterHeld : Server := ((system guarded false).after (init guarded false) heldBesideUnheld).server

/-- A third of their region comes with the second. -/
def heldBesideTwo : List (Io × Event) := heldBesideUnheld ++
  [({ now := 100000 }, .connect (js "c3")), ({ now := 100000 }, .message (js "c3") currentHello),
    ({ now := 100000 }, .message (js "c3") (axonaMessage (notification (js "hello") .null))),
    ({ now := 100000 }, .verified 0 (.ok (js "9")))]

def afterHeldBesideTwo : Server := ((system guarded false).after (init guarded false) heldBesideTwo).server

/-- The second is graduated although the gate holds the first, as the third stays. -/
theorem gateKeepsOccupancy_heldBesideTwo :
    ((afterHeldBesideTwo.graduationCandidates.filter
        (afterHeldBesideTwo.heldBack guarded { now := 140000 })).map Prod.fst = [js "c1"]) ∧
      afterHeldBesideTwo.GateKeepsOccupancy guarded { now := 140000 } := by
  have hpick : (afterHeldBesideTwo.reference guarded { now := 140000 }).map GraduationSelect.Pick.id =
      some (js "c2") := by decide +kernel
  have hpick' : (afterHeldBesideTwo.selection guarded { now := 140000 }).map GraduationSelect.Pick.id =
      some (js "c2") := by decide +kernel
  obtain ⟨pick, href, hid⟩ := Option.map_eq_some_iff.mp hpick
  obtain ⟨pick', hselection, hid'⟩ := Option.map_eq_some_iff.mp hpick'
  exact ⟨by decide +kernel, (Server.gateKeepsOccupancy_iff guarded { now := 140000 } afterHeldBesideTwo rfl).mpr
    (leadOutlastsGate_of_picks rfl href hselection (hid'.trans hid.symm))⟩

theorem valid_heldBesideUnheld : (system guarded false).Valid (init guarded false) heldBesideUnheld :=
  valid_of_openRun (by decide +kernel)

/-- The one connection the gate leaves shares its region with the held one, and is not graduated. -/
theorem not_gateKeepsOccupancy_heldBesideUnheld :
    (system guarded false).Valid (init guarded false) heldBesideUnheld ∧
      ¬afterHeld.GateKeepsOccupancy guarded { now := 140000 } := by
  refine ⟨valid_heldBesideUnheld, fun h => ?_⟩
  have hdue : GraduationDue guarded { now := 140000 } afterHeld :=
    ⟨rfl, by decide +kernel, by decide +kernel⟩
  have hpick : (afterHeld.reference guarded { now := 140000 }).map GraduationSelect.Pick.id =
      some (js "c2") := by decide +kernel
  have hnone : (afterHeld.selection guarded { now := 140000 }).map GraduationSelect.Pick.id = none := by
    decide +kernel
  have hcloses := ((h hdue).1 (js "c2")).mpr (Option.map_eq_some_iff.mp hpick)
  obtain ⟨-, pick, hselection, -⟩ := added_maybeGraduate_iff.mp hcloses
  rw [hselection] at hnone
  cases hnone

end Bridge

end AxonaBridge
