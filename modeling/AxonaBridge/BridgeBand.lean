import AxonaBridge.BridgeLifetime
import AxonaBridge.ServerCloses

/-!
# Whom graduation leaves behind

`maybeGraduate` counts the admitted connections of the table, and a connection stays there between
the call of close and its close event. What it leaves behind is right of every run in which no such
connection is in the table when it picks.
-/

open JsText

namespace AxonaBridge

namespace GraduationSelect

/-- A candidate in company of its region has a companion. -/
theorem exists_companion {candidates : List Candidate} (hnodup : (candidates.map Candidate.id).Nodup)
    {c : Candidate} (h : 1 < regionCount candidates c.region) :
    ∃ other ∈ candidates, other.id ≠ c.id ∧ other.region = c.region ∧ c.region ≠ none := by
  have hregion : c.region ≠ none := fun hnone => by
    rw [regionCount, hnone] at h
    exact absurd h (by simp)
  by_contra hnot
  have hall : ∀ id ∈ (candidates.filter fun d => d.region = c.region).map Candidate.id, id ∈ [c.id] := by
    intro id hid
    obtain ⟨d, hd, rfl⟩ := List.mem_map.mp hid
    obtain ⟨hmem, hsame⟩ := List.mem_filter.mp hd
    by_contra hne
    exact hnot ⟨d, hmem, fun heq => hne (List.mem_singleton.mpr heq), of_decide_eq_true hsame, hregion⟩
  have hone : ((candidates.filter fun d => d.region = c.region).map Candidate.id).length ≤ 1 :=
    (List.subperm_of_subset (hnodup.sublist (List.filter_sublist.map _)) hall).length_le
  have hcount : regionCount candidates c.region =
      (candidates.filter fun d => d.region = c.region).length := by
    rw [regionCount, if_neg (by simpa using hregion), List.countP_eq_length_filter]
  rw [List.length_map] at hone
  omega

end GraduationSelect

namespace Server

variable {cfg : Config} {io : Io} {s : Server}

/-- The pick shares its region with another admitted connection. -/
theorem exists_companion_of_selection {pick : GraduationSelect.Pick}
    (h : s.selection cfg io = some pick) :
    ∃ other, s.IsAdmitted other ∧ other ≠ pick.id ∧ s.connRegion other = s.connRegion pick.id ∧
      s.connRegion pick.id ≠ none := by
  obtain ⟨c, hc, hcompany, rfl⟩ := GraduationSelect.of_selectGraduate _ h
  have hids : ((s.gated cfg io).map (s.describe cfg io)).map GraduationSelect.Candidate.id =
      (s.gated cfg io).map Prod.fst := by
    rw [List.map_map]
    rfl
  have hnodup : (((s.gated cfg io).map (s.describe cfg io)).map GraduationSelect.Candidate.id).Nodup := by
    rw [hids]
    exact s.connections.nodup.sublist (gated_sublist.map _)
  obtain ⟨other, hother, hne, hsame, hregion⟩ := GraduationSelect.exists_companion hnodup hcompany
  obtain ⟨e, he, rfl⟩ := List.mem_map.mp hother
  obtain ⟨d, hd, rfl⟩ := List.mem_map.mp (List.mem_of_mem_filter hc)
  refine ⟨e.1, ?_, hne, hsame, hregion⟩
  exact mem_admittedIds.mp (List.mem_map_of_mem (gated_sublist_candidates.subset he))

end Server

namespace Bridge

variable {cfg : Config} {b : Bridge} {e : Io × Event}

/-- When `maybeGraduate` closes a connection, more connections than the band has room for are live, and
another live one is bound in its region. -/
def GraduatesSpare (cfg : Config) (b : Bridge) (e : Io × Event) : Prop :=
  e.2 = .maybeGraduate → ∀ id code reason threw,
    Server.Added b.server (b.step cfg e).server (.close id code reason threw) →
      cfg.maxPeers + cfg.graduationSlack < b.server.liveIds.length ∧
        ∃ other ∈ b.server.liveIds, other ≠ id ∧ b.server.connRegion other = b.server.connRegion id ∧
          b.server.connRegion id ≠ none

/-- When `maybeGraduate` gets to pick, close has been called on no admitted connection. -/
def CountsLive (cfg : Config) (b : Bridge) (e : Io × Event) : Prop :=
  e.2 = .maybeGraduate → Server.GraduationDue cfg e.1 b.server →
    ∀ id, b.server.IsAdmitted id → ¬b.server.CloseCalled id

theorem graduatesSpare_of_countsLive (h : CountsLive cfg b e) : GraduatesSpare cfg b e := by
  intro hevent id code reason threw hadded
  have hstep : (b.step cfg e).server = b.server.maybeGraduate cfg e.1 := server_step_of_event hevent
  rw [hstep] at hadded
  obtain ⟨hdue, pick, hpick, rfl⟩ := Server.added_maybeGraduate_iff.mp ⟨code, reason, threw, hadded⟩
  have hlive : ∀ connId, b.server.IsAdmitted connId → connId ∈ b.server.liveIds := fun connId hadm =>
    Server.mem_liveIds.mpr ⟨hadm, h hevent hdue connId hadm⟩
  obtain ⟨other, hadm, hne, hsame, hregion⟩ := Server.exists_companion_of_selection hpick
  refine ⟨?_, other, hlive other hadm, hne, hsame, hregion⟩
  have hall : b.server.liveIds = b.server.admittedIds :=
    List.filter_eq_self.mpr fun connId hmem => decide_eq_true
      (h hevent hdue connId (Server.mem_admittedIds.mp hmem))
  rw [hall, Server.admittedIds, List.length_map]
  exact hdue.band

/-- **Graduation counts who is still there**, along every run in which close has been called on no
admitted connection whenever `maybeGraduate` gets to pick. -/
theorem graduatesSpare_along (cfg : Config) (reportBound : Bool) (es : List (Io × Event))
    (h : (system cfg reportBound).Along (CountsLive cfg) (init cfg reportBound) es) :
    (system cfg reportBound).Along (GraduatesSpare cfg) (init cfg reportBound) es :=
  h.mono fun _ _ => graduatesSpare_of_countsLive

/-- A bridge with room for one. -/
def tight : Config := { Server.plain with maxPeers := 1, graduationSlack := 0 }

/-- The client-hello of a client that honours graduation. -/
def currentHello : Server.Inbound :=
  .text (.ok (Server.clientHello (.str (js "4.35.0")) (.str (js "4.0"))))

/-- Two connections are admitted and prove identities 7 and 8, of one region. -/
def twoBound : List (Io × Event) :=
  [({}, .connect (js "c1")), ({}, .message (js "c1") currentHello),
    ({}, .message (js "c1") (axonaMessage (notification (js "hello") .null))),
    ({}, .verified 0 (.ok (js "7"))),
    ({}, .connect (js "c2")), ({}, .message (js "c2") currentHello),
    ({}, .message (js "c2") (axonaMessage (notification (js "hello") .null))),
    ({}, .verified 0 (.ok (js "8")))]

/-- The first of the two graduates. -/
def oneGraduates : List (Io × Event) := twoBound.concat ({ now := 40000 }, .maybeGraduate)

theorem graduatesSpare_oneGraduates :
    (system tight false).Along (GraduatesSpare tight) (init tight false) oneGraduates := by
  refine graduatesSpare_along tight false oneGraduates ⟨?_, ?_, ?_, ?_, ?_, ?_, ?_, ?_, ?_, trivial⟩
  case refine_9 =>
    intro _ _ id _ hclosed
    have hquiet : ((system tight false).after (init tight false) twoBound).server.out.any
        (fun o => o.cutOff.isSome) = false := by decide +kernel
    exact Bool.false_ne_true (hquiet.symm.trans hclosed.any_cutOff)
  all_goals
    intro hevent
    cases hevent

/-- The close of the first is still under way when the second graduates. -/
def bothGraduate : List (Io × Event) := oneGraduates.concat ({ now := 44000 }, .maybeGraduate)

theorem valid_bothGraduate : (system tight false).Valid (init tight false) bothGraduate :=
  valid_of_openRun (by decide +kernel)

/-- The second of two connections of a region is graduated when it is the only live one. -/
theorem not_graduatesSpare_bothGraduate :
    (system tight false).Valid (init tight false) bothGraduate ∧
      ¬(system tight false).Along (GraduatesSpare tight) (init tight false) bothGraduate := by
  refine ⟨valid_bothGraduate, fun h => ?_⟩
  obtain ⟨-, -, -, -, -, -, -, -, -, hlast, -⟩ := h
  have hpick : (Server.selection tight { now := 44000 }
      ((system tight false).after (init tight false) oneGraduates).server).map
        GraduationSelect.Pick.id = some (js "c2") := by decide +kernel
  obtain ⟨pick, hpick, hid⟩ := Option.map_eq_some_iff.mp hpick
  have hdue : Server.GraduationDue tight { now := 44000 }
      ((system tight false).after (init tight false) oneGraduates).server :=
    ⟨rfl, by decide +kernel, by decide +kernel⟩
  obtain ⟨code, reason, threw, hadded⟩ := Server.added_maybeGraduate_iff.mpr ⟨hdue, pick, hpick, hid⟩
  obtain ⟨hband, -⟩ := hlast rfl (js "c2") code reason threw hadded
  have hlive : ((system tight false).after (init tight false) oneGraduates).server.liveIds.length = 1 := by
    decide +kernel
  change tight.maxPeers + tight.graduationSlack <
    (((system tight false).after (init tight false) oneGraduates).server.liveIds.length : Int) at hband
  rw [hlive] at hband
  exact absurd hband (by decide)

end Bridge

end AxonaBridge
