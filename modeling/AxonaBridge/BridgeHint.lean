import AxonaBridge.BridgeDiscipline
import AxonaBridge.StepHint

/-!
# Two runs and the region hint

Two bridges hear the same, but for the regions the client-hellos claim. They admit the same connections,
bind the same identities and close the same connections, at the same steps, as far as no graduation is
concerned. Where the gate is off, or the introductions reach outside the cohorts alike, they graduate the
same connections as well.
-/

open JsText

namespace AxonaBridge

namespace Bridge

variable {cfg : Config} {reportBound : Bool}

/-- Two bridges side by side, each with its own claims in the client-hellos. -/
def twins (cfg : Config) (reportBound : Bool) : System (Bridge × Bridge) (Io × Event × Event) where
  init := (init cfg reportBound, init cfg reportBound)
  enabled b e := b.1.Enabled cfg (e.1, e.2.1) ∧ b.2.Enabled cfg (e.1, e.2.2) ∧ e.2.1.SameButClaim e.2.2
  step b e := (b.1.step cfg (e.1, e.2.1), b.2.step cfg (e.1, e.2.2))

/-- What one side of the two goes through. -/
def left (e : Io × Event × Event) : Io × Event := (e.1, e.2.1)

/-- What the other side goes through. -/
def right (e : Io × Event × Event) : Io × Event := (e.1, e.2.2)

/-- A run of the two is a run of each, event by event the same but for the claims. -/
theorem valid_twins_iff {b : Bridge × Bridge} {es : List (Io × Event × Event)} :
    (twins cfg reportBound).Valid b es ↔
      (system cfg reportBound).Valid b.1 (es.map left) ∧
        (system cfg reportBound).Valid b.2 (es.map right) ∧ ∀ e ∈ es, e.2.1.SameButClaim e.2.2 := by
  induction es generalizing b with
  | nil => exact ⟨fun _ => ⟨trivial, trivial, fun _ hmem => (by cases hmem)⟩, fun _ => trivial⟩
  | cons e es ih =>
      rw [List.map_cons, List.map_cons, List.forall_mem_cons]
      constructor
      · rintro ⟨⟨hleft, hright, hpair⟩, hes⟩
        obtain ⟨hlefts, hrights, hpairs⟩ := ih.mp hes
        exact ⟨⟨hleft, hlefts⟩, ⟨hright, hrights⟩, hpair, hpairs⟩
      · rintro ⟨⟨hleft, hlefts⟩, ⟨hright, hrights⟩, hpair, hpairs⟩
        exact ⟨⟨hleft, hright, hpair⟩, ih.mpr ⟨hlefts, hrights, hpairs⟩⟩

theorem after_twins (b : Bridge × Bridge) (es : List (Io × Event × Event)) :
    (twins cfg reportBound).after b es = ((system cfg reportBound).after b.1 (es.map left),
      (system cfg reportBound).after b.2 (es.map right)) := by
  induction es generalizing b with
  | nil => rfl
  | cons e es ih => exact ih _

/-- The introductions of the two sides reach an anchor older than the cohort alike. -/
def ReachAlike (cfg : Config) (b : Bridge × Bridge) (e : Io × Event × Event) : Prop :=
  Server.ReachAlikeAt cfg e.1 b.1.server b.2.server e.2.1 e.2.2

/-- The two have admitted and bound the same, and said the same, but for the hint; with `full` off the
graduations are left aside. -/
structure SameDecisions (full : Bool) (b : Bridge × Bridge) : Prop where
  admitted : ∀ id, b.2.server.IsAdmitted id ↔ b.1.server.IsAdmitted id
  bound : ∀ id nodeId, b.2.Bound id nodeId ↔ b.1.Bound id nodeId
  said : b.2.server.out.filterMap (Out.compared full) = b.1.server.out.filterMap (Out.compared full)

theorem sameDecisions_of_agrees {full : Bool} {b : Bridge × Bridge}
    (h : Server.Agrees cfg full b.1.server b.2.server) : SameDecisions full b := by
  have hout := congrArg Server.out h.eq
  refine ⟨fun id => ?_, fun id nodeId => ?_, hout⟩
  · rw [Server.isAdmitted_iff, Server.isAdmitted_iff]
    unfold Server.admission
    rcases h.get_cases id with ⟨hs, ht⟩ | ⟨conn, conn', hs, ht, hconn⟩
    · rw [hs, ht]
    · have hadm := hconn.read Conn.admitted fun _ => rfl
      rw [hs, ht, Option.map_some, Option.map_some, hadm]
  · unfold Bound
    rw [h.node]

/-- One step keeps the agreement. -/
theorem agrees_step {full : Bool} {b : Bridge × Bridge} {e : Io × Event × Event}
    (h : Server.Agrees cfg full b.1.server b.2.server) (he : (twins cfg reportBound).enabled b e)
    (hreach : Server.keepsIntro cfg full = true → ReachAlike cfg b e) :
    Server.Agrees cfg full (b.1.step cfg (e.1, e.2.1)).server (b.2.step cfg (e.1, e.2.2)).server :=
  h.step he.2.2 hreach

/-- Along the run each step leaves the two with the same decisions. -/
theorem along_sameDecisions {full : Bool} {b : Bridge × Bridge} {es : List (Io × Event × Event)}
    (h : Server.Agrees cfg full b.1.server b.2.server) (hes : (twins cfg reportBound).Valid b es)
    (hreach : Server.keepsIntro cfg full = true → (twins cfg reportBound).Along (ReachAlike cfg) b es) :
    (twins cfg reportBound).Along
      (fun b e => SameDecisions full ((twins cfg reportBound).step b e)) b es := by
  have hboth : (twins cfg reportBound).Along (fun b e => (twins cfg reportBound).enabled b e ∧
      (Server.keepsIntro cfg full = true → ReachAlike cfg b e)) b es := by
    refine System.along_and.mpr ⟨hes, ?_⟩
    by_cases hkept : Server.keepsIntro cfg full = true
    · exact (hreach hkept).mono fun _ _ hr _ => hr
    · exact hes.mono fun _ _ _ hk => absurd hk hkept
  refine System.Along.of_invariant
    (I := fun b => Server.Agrees cfg full b.1.server b.2.server) (fun b e h hC => ?_) h hboth
  have hstep := agrees_step h hC.1 hC.2
  exact ⟨sameDecisions_of_agrees (b := (twins cfg reportBound).step b e) hstep, hstep⟩

/-- **A claimed region decides introductions only.** Of two runs that differ in the claims of their
client-hellos each step leaves both bridges with the same connections admitted, the same identities bound
and the same said, but for the lists, the graduations and what counts them; and with the gate off, or
where the introductions reach an anchor older than the cohort alike, the graduations are the same too. -/
theorem claim_decides_introductions (cfg : Config) (reportBound : Bool)
    {es : List (Io × Event × Event)}
    (hes : (twins cfg reportBound).Valid (twins cfg reportBound).init es) :
    (twins cfg reportBound).Along
        (fun b e => SameDecisions false ((twins cfg reportBound).step b e))
        (twins cfg reportBound).init es ∧
      ((cfg.graduationGateOn = false ∨
          (twins cfg reportBound).Along (ReachAlike cfg) (twins cfg reportBound).init es) →
        (twins cfg reportBound).Along
          (fun b e => SameDecisions true ((twins cfg reportBound).step b e))
          (twins cfg reportBound).init es) := by
  have hstart : ∀ full, Server.Agrees cfg full (twins cfg reportBound).init.1.server
      (twins cfg reportBound).init.2.server := fun _ => rfl
  refine ⟨along_sameDecisions (hstart false) hes fun hkept => ?_,
    fun hcond => along_sameDecisions (hstart true) hes fun hkept => ?_⟩
  · cases hkept
  · rcases hcond with hgate | hreach
    · rw [Server.keepsIntro, hgate] at hkept
      cases hkept
    · exact hreach

/-- A client-hello and the same with a claim. -/
theorem sameButClaim_claiming {fields : List (JsString × JsVal)} (claim : JsVal)
    (htype : JsVal.asString ((JsVal.obj fields).revive.field (js "type")) = some (js "client-hello")) :
    Server.SameButClaim (JsVal.obj fields).revive
      (JsVal.obj ((js "nodeId", claim) :: fields)).revive where
  null := ⟨fun h => (by cases h), fun h => (by cases h)⟩
  field name hname := by
    have hother : (name == js "nodeId") = false := beq_false_of_ne hname
    change List.lookup name ((js "nodeId", claim.revive) :: JsVal.reviveFields fields) =
      List.lookup name (JsVal.reviveFields fields)
    rw [List.lookup_cons, hother]
  hello := htype

/-- A bridge that introduces each newcomer to one anchor. -/
def oneAnchor (gate : Bool) : Config :=
  { tight with graduationGateOn := gate, anchorK := 1, anchorMinPool := 1 }

/-- The fields of a client-hello of a client that honours graduation. -/
def helloFields : List (JsString × JsVal) :=
  [(js "type", .str (js "client-hello")), (js "version", .str (js "4.35.0")),
    (js "wireVersion", .str (js "4.0"))]

/-- A connection opens, is greeted and proves an identity. -/
def arrives (now : Int) (id : ConnId) (nodeId : JsString) (fields' : List (JsString × JsVal)) :
    List (Io × Event × Event) :=
  [({ now }, .connect id, .connect id),
    ({ now }, .message id (.text (.ok (.obj helloFields))), .message id (.text (.ok (.obj fields')))),
    ({ now }, .message id (axonaMessage (notification (js "hello") .null)),
      .message id (axonaMessage (notification (js "hello") .null))),
    ({ now }, .verified 0 (.ok nodeId), .verified 0 (.ok nodeId))]

/-- The third connection claims the region of the second on one side only. The first is older than its
cohort, and of another region. -/
def claimedApart : List (Io × Event × Event) :=
  arrives 0 (js "c1") (js "01" ++ List.replicate 64 48) helloFields ++
    arrives 70000 (js "c2") (js "7") helloFields ++
      arrives 100000 (js "c3") (js "8") ((js "nodeId", .str (List.replicate 66 48)) :: helloFields)

theorem sameButClaim_arrives {now : Int} {id : ConnId} {nodeId : JsString}
    {fields' : List (JsString × JsVal)}
    (h : Server.Inbound.SameButClaim (.text (.ok (.obj helloFields))) (.text (.ok (.obj fields')))) :
    ∀ e ∈ arrives now id nodeId fields', e.2.1.SameButClaim e.2.2 := by
  intro e hmem
  simp only [arrives, List.mem_cons, List.not_mem_nil, or_false] at hmem
  rcases hmem with rfl | rfl | rfl | rfl
  · exact .same _
  · exact .message id h
  · exact .same _
  · exact .same _

theorem valid_claimedApart (gate : Bool) :
    (twins (oneAnchor gate) false).Valid (twins (oneAnchor gate) false).init claimedApart := by
  have hclaim := @sameButClaim_claiming helloFields (.str (List.replicate 66 48)) rfl
  refine valid_twins_iff.mpr ⟨valid_of_openRun (by decide +kernel), valid_of_openRun (by decide +kernel), ?_⟩
  unfold claimedApart
  rw [List.forall_mem_append, List.forall_mem_append]
  exact ⟨⟨sameButClaim_arrives (.same _), sameButClaim_arrives (.same _)⟩,
    sameButClaim_arrives (.hello hclaim)⟩

theorem claim_decides_introductions_claimedApart :
    (twins (oneAnchor true) false).Along
        (fun b e => SameDecisions false ((twins (oneAnchor true) false).step b e))
        (twins (oneAnchor true) false).init claimedApart ∧
      (twins (oneAnchor false) false).Along
        (fun b e => SameDecisions true ((twins (oneAnchor false) false).step b e))
        (twins (oneAnchor false) false).init claimedApart :=
  ⟨(claim_decides_introductions (oneAnchor true) false (valid_claimedApart true)).1,
    (claim_decides_introductions (oneAnchor false) false (valid_claimedApart false)).2 (Or.inl rfl)⟩

/-- With the gate on the third connection lets the second graduate, unless it claims its region. -/
theorem graduates_unclaimed_only :
    (twins (oneAnchor true) false).Valid (twins (oneAnchor true) false).init
        (claimedApart.concat ({ now := 140000 }, .maybeGraduate, .maybeGraduate)) ∧
      Graduates (oneAnchor true) ((twins (oneAnchor true) false).after
          (twins (oneAnchor true) false).init claimedApart).1
        ({ now := 140000 }, .maybeGraduate) (js "c2") ∧
      ¬Graduates (oneAnchor true) ((twins (oneAnchor true) false).after
          (twins (oneAnchor true) false).init claimedApart).2
        ({ now := 140000 }, .maybeGraduate) (js "c2") := by
  refine ⟨?_, ?_, fun h => ?_⟩
  · rw [List.concat_eq_append, System.Valid, System.along_append]
    exact ⟨valid_claimedApart true, ⟨trivial, trivial, .same _⟩, trivial⟩
  · rw [after_twins]
    refine ⟨rfl, Server.added_maybeGraduate_iff.mpr ⟨⟨rfl, by decide +kernel, by decide +kernel⟩, ?_⟩⟩
    exact Option.map_eq_some_iff.mp (by decide +kernel)
  · rw [after_twins] at h
    obtain ⟨-, pick, hpick, -⟩ := Server.added_maybeGraduate_iff.mp h.2
    have hnone : (Server.selection (oneAnchor true) { now := 140000 }
        ((system (oneAnchor true) false).after (init (oneAnchor true) false)
          (claimedApart.map right)).server).isNone = true := by decide +kernel
    rw [Option.isNone_iff_eq_none] at hnone
    cases hnone.symm.trans hpick

end Bridge

end AxonaBridge
