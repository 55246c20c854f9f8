import AxonaBridge.BridgeRelease

/-!
# Whom the directory is told of

The source of the directory feed names who is bound to an admitted connection, and every identity in the
map of cooldowns. The map is pruned by a graduation that finds more than a thousand in it, and by nothing
else: an identity released longer ago than the cooldown stays until then, or until it is released again.
-/

open JsText

namespace AxonaBridge

namespace Server

variable {cfg : Config} {io : Io} {s : Server} {nh : JsString} {t : Int}

/-- What `setDirectorySource` is given: who is bound to an admitted connection, then who graduated. -/
def directorySource (s : Server) : List JsString :=
  (s.graduationCandidates.filterMap fun e => s.connNodeHex e.1) ++ s.graduatedRecently.keys

/-- The identity is bound to an admitted connection. -/
def BoundAdmitted (s : Server) (nh : JsString) : Prop :=
  ∃ id, s.IsAdmitted id ∧ s.connNodeHex id = some nh

theorem mem_boundAdmitted :
    nh ∈ (s.graduationCandidates.filterMap fun e => s.connNodeHex e.1) ↔ s.BoundAdmitted nh := by
  rw [List.mem_filterMap]
  constructor
  · rintro ⟨e, he, hbound⟩
    exact ⟨e.1, mem_admittedIds.mp (List.mem_map_of_mem he), hbound⟩
  · rintro ⟨id, hadm, hbound⟩
    obtain ⟨e, he, rfl⟩ := List.mem_map.mp (mem_admittedIds.mpr hadm)
    exact ⟨e, he, hbound⟩

theorem mem_directorySource :
    nh ∈ s.directorySource ↔ s.BoundAdmitted nh ∨ ∃ t, s.graduatedRecently.get nh = some t := by
  rw [directorySource, List.mem_append, mem_boundAdmitted, JsMap.mem_keys_iff]

/-! ### One event -/

theorem get_noteGraduated (r : Record) (now : Int) (nh' : Option JsString) :
    (r.noteGraduated now nh').graduatedRecently.get nh =
      if nh' = some nh then some now else r.graduatedRecently.get nh := by
  cases nh' with
  | none => rfl
  | some nh' =>
      rw [Record.noteGraduated, JsMap.get_set]
      exact if_congr (by rw [Option.some.injEq, eq_comm]) rfl rfl

/-- What a graduation leaves of an entry of the map. -/
theorem get_afterGraduation {pick : GraduationSelect.Pick} :
    (afterGraduation cfg io s pick).graduatedRecently.get nh = some t ↔
      (s.record.noteGraduated io.now (s.connNodeHex pick.id)).graduatedRecently.get nh = some t ∧
        ¬(1000 < (s.record.noteGraduated io.now (s.connNodeHex pick.id)).graduatedRecently.size ∧
          cfg.graduationCooldownMs < io.now - t) := by
  unfold afterGraduation
  dsimp only
  split
  · rename_i hsize
    rw [JsMap.get_filter, Option.filter_eq_some_iff, decide_eq_true_iff]
    simp only [hsize, true_and, not_lt]
  · rename_i hsize
    simp only [hsize, false_and, not_false_eq_true, and_true]

end Server

namespace Bridge

variable {cfg : Config} {b : Bridge} {e : Io × Event} {nh : JsString} {t now : Int} {id : ConnId}

/-- A step releases an identity: `maybeGraduate` or rule 4 closes the connection it is bound to. -/
def ReleasesPeer (cfg : Config) (nh : JsString) (b : Bridge) (e : Io × Event) : Prop :=
  ∃ id, (Graduates cfg b e id ∨ Frees cfg b e id) ∧ b.server.connNodeHex id = some nh

/-- A graduation with more than a thousand identities in the map, the graduate's among them. -/
def Prunes (cfg : Config) (b : Bridge) (e : Io × Event) : Prop :=
  ∃ id, Graduates cfg b e id ∧
    1000 < (b.server.record.noteGraduated e.1.now (b.server.connNodeHex id)).graduatedRecently.size

/-- A graduation prunes what was released at `t`. -/
def PrunesFrom (cfg : Config) (t : Int) (b : Bridge) (e : Io × Event) : Prop :=
  Prunes cfg b e ∧ cfg.graduationCooldownMs < e.1.now - t

theorem graduates_iff : Graduates cfg b e id ↔ e.2 = .maybeGraduate ∧ Server.GraduationDue cfg e.1 b.server ∧
    ∃ pick, b.server.selection cfg e.1 = some pick ∧ pick.id = id := by
  constructor
  · exact fun h => ⟨h.1, h.selection⟩
  · rintro ⟨hevent, hselects⟩
    obtain ⟨code, reason, threw, hadded⟩ := Server.added_maybeGraduate_iff.mpr hselects
    exact ⟨hevent, code, reason, threw, by rw [server_step_of_event hevent]; exact hadded⟩

theorem frees_iff : Frees cfg b e id ↔ ∃ json, e.2 = .message id (.text (.ok json)) ∧
    Server.Releases cfg e.1 b.server id json := by
  refine exists_congr fun json => and_congr_right fun hevent => ?_
  rw [server_step_of_event hevent]
  constructor
  · rintro ⟨htype, code, reason, threw, hadded⟩
    exact Server.releases_of_added htype hadded
  · intro hreleases
    obtain ⟨htype, hclosed⟩ := Server.releases_iff_closed.mp hreleases
    exact ⟨htype, graduated, hclosed⟩

/-- A step releases one connection at most. -/
theorem released_unique {id' : ConnId} (h : Graduates cfg b e id ∨ Frees cfg b e id)
    (h' : Graduates cfg b e id' ∨ Frees cfg b e id') : id = id' := by
  rcases h with h | ⟨json, hevent, -⟩
  · rcases h' with h' | ⟨json', hevent', -⟩
    · obtain ⟨-, pick, hpick, rfl⟩ := h.selection
      obtain ⟨-, pick', hpick', rfl⟩ := h'.selection
      cases hpick.symm.trans hpick'
      rfl
    · cases h.1.symm.trans hevent'
  · rcases h' with h' | ⟨json', hevent', -⟩
    · cases hevent.symm.trans h'.1
    · cases hevent.symm.trans hevent'
      rfl

/-- The map has an entry from a step that releases the identity and does not prune it at once. -/
theorem get_step_of_released (h : Graduates cfg b e id ∨ Frees cfg b e id) :
    (b.step cfg e).server.graduatedRecently.get nh = some t ↔
      (b.server.record.noteGraduated e.1.now (b.server.connNodeHex id)).graduatedRecently.get nh = some t ∧
        ¬PrunesFrom cfg t b e := by
  rcases h with hgraduates | hfrees
  · obtain ⟨hdue, pick, hpick, rfl⟩ := hgraduates.selection
    have hrecord : (b.step cfg e).server.record = Server.afterGraduation cfg e.1 b.server pick := by
      rw [server_step_of_event hgraduates.1, Server.record_maybeGraduate_of_selection hdue hpick]
    have hprunes : Prunes cfg b e ↔ 1000 <
        (b.server.record.noteGraduated e.1.now (b.server.connNodeHex pick.id)).graduatedRecently.size := by
      constructor
      · rintro ⟨id, hid, hsize⟩
        obtain ⟨-, pick', hpick', rfl⟩ := hid.selection
        cases hpick.symm.trans hpick'
        exact hsize
      · exact fun hsize => ⟨pick.id, hgraduates, hsize⟩
    change (b.step cfg e).server.record.graduatedRecently.get nh = some t ↔ _
    rw [hrecord, Server.get_afterGraduation, PrunesFrom, hprunes]
  · obtain ⟨json, hevent, hreleases⟩ := frees_iff.mp hfrees
    have hrecord : (b.step cfg e).server.record =
        b.server.record.noteGraduated e.1.now (b.server.connNodeHex id) := by
      rw [server_step_of_event hevent]
      exact Server.record_onMessage_of_releases hreleases
    have hprunes : ¬PrunesFrom cfg t b e := by
      rintro ⟨⟨_, hgraduates, -⟩, -⟩
      cases hevent.symm.trans hgraduates.1
    change (b.step cfg e).server.record.graduatedRecently.get nh = some t ↔ _
    rw [hrecord]
    exact (and_iff_left hprunes).symm

theorem graduatedRecently_step_of_not_released (h : ¬∃ id, Graduates cfg b e id ∨ Frees cfg b e id) :
    (b.step cfg e).server.graduatedRecently = b.server.graduatedRecently := by
  have hremembers := Server.remembers_step cfg e.1 b.server e.2
  change (b.server.step cfg e.1 e.2).record.graduatedRecently = b.server.record.graduatedRecently
  generalize hr : (b.server.step cfg e.1 e.2).record = r at hremembers ⊢
  generalize he : e.2 = ev at hremembers
  cases hremembers with
  | @released id json hreleases => exact absurd ⟨id, Or.inr (frees_iff.mpr ⟨json, he, hreleases⟩)⟩ h
  | @graduated pick hdue hpick =>
      exact absurd ⟨pick.id, Or.inl (graduates_iff.mpr ⟨he, hdue, pick, hpick, rfl⟩)⟩ h
  | _ => rfl

/-- An entry of the map is entered by a release, and goes by the next one or a graduation that prunes. -/
theorem get_graduatedRecently_step :
    (b.step cfg e).server.graduatedRecently.get nh = some t ↔
      ((ReleasesPeer cfg nh b e ∧ e.1.now = t ∧ ¬PrunesFrom cfg t b e) ∨
        (b.server.graduatedRecently.get nh = some t ∧
          ¬(ReleasesPeer cfg nh b e ∨ PrunesFrom cfg t b e))) := by
  by_cases hreleased : ∃ id, Graduates cfg b e id ∨ Frees cfg b e id
  · obtain ⟨id, hid⟩ := hreleased
    have hpeer : ReleasesPeer cfg nh b e ↔ b.server.connNodeHex id = some nh := by
      constructor
      · rintro ⟨id', hid', hbound⟩
        rw [released_unique hid hid']
        exact hbound
      · exact fun hbound => ⟨id, hid, hbound⟩
    rw [get_step_of_released hid, Server.get_noteGraduated, hpeer]
    by_cases hbound : b.server.connNodeHex id = some nh
    · simp only [hbound, if_true, Option.some.injEq, true_and, true_or, not_true, and_false, or_false]
    · simp only [hbound, if_false, false_and, false_or]
      rfl
  · have hpeer : ¬ReleasesPeer cfg nh b e := by
      rintro ⟨id, hid, -⟩
      exact hreleased ⟨id, hid⟩
    have hprunes : ¬PrunesFrom cfg t b e := by
      rintro ⟨⟨id, hid, -⟩, -⟩
      exact hreleased ⟨id, Or.inl hid⟩
    rw [graduatedRecently_step_of_not_released hreleased]
    simp only [hpeer, hprunes, false_and, false_or, or_self, not_false_eq_true, and_true]

/-! ### Runs -/

section Run

variable {reportBound : Bool} {es : List (Io × Event)}

/-- The map has of an identity the time of its last release, if no graduation has pruned it since. -/
theorem get_graduatedRecently_iff :
    ((system cfg reportBound).after (init cfg reportBound) es).server.graduatedRecently.get nh = some t ↔
      (system cfg reportBound).Standing
        (fun b e => ReleasesPeer cfg nh b e ∧ e.1.now = t ∧ ¬PrunesFrom cfg t b e)
        (fun b e => ReleasesPeer cfg nh b e ∨ PrunesFrom cfg t b e) (init cfg reportBound) es := by
  have hnone : ¬(init cfg reportBound).server.graduatedRecently.get nh = some t := fun h => by cases h
  exact System.holds_iff_standing (S := system cfg reportBound)
    (I := fun b => b.server.graduatedRecently.get nh = some t) hnone fun _ _ => get_graduatedRecently_step

/-- Where no graduation prunes, the map grows with every identity ever released. -/
theorem mem_keys_iff_released
    (h : (system cfg reportBound).Along (fun b e => ¬Prunes cfg b e) (init cfg reportBound) es) :
    nh ∈ ((system cfg reportBound).after (init cfg reportBound) es).server.graduatedRecently.keys ↔
      (system cfg reportBound).Sometime (ReleasesPeer cfg nh) (init cfg reportBound) es := by
  induction es using List.reverseRecOn with
  | nil => exact iff_of_false (fun hmem => by cases hmem) System.not_sometime_nil
  | append_singleton es e ih =>
      obtain ⟨hes, hnot, -⟩ := System.along_append.mp h
      have hprunes : ∀ t, ¬PrunesFrom cfg t ((system cfg reportBound).after (init cfg reportBound) es) e :=
        fun _ hprunes => hnot hprunes.1
      rw [System.sometime_snoc, ← ih hes, System.after_append, JsMap.mem_keys_iff, JsMap.mem_keys_iff]
      constructor
      · rintro ⟨t, ht⟩
        rcases get_graduatedRecently_step.mp ht with ⟨hreleased, -⟩ | ⟨hget, -⟩
        · exact Or.inr hreleased
        · exact Or.inl ⟨t, hget⟩
      · by_cases hreleased : ReleasesPeer cfg nh ((system cfg reportBound).after (init cfg reportBound) es) e
        · exact fun _ => ⟨e.1.now, get_graduatedRecently_step.mpr (Or.inl ⟨hreleased, rfl, hprunes _⟩)⟩
        · rintro (⟨t, hget⟩ | hnow)
          · exact ⟨t, get_graduatedRecently_step.mpr (Or.inr ⟨hget, not_or.mpr ⟨hreleased, hprunes t⟩⟩)⟩
          · exact absurd hnow hreleased

/-- The identity was released at most the cooldown before `now`. -/
def ReleasedRecently (cfg : Config) (reportBound : Bool) (es : List (Io × Event)) (now : Int)
    (nh : JsString) : Prop :=
  (system cfg reportBound).Sometime
    (fun b e => ReleasesPeer cfg nh b e ∧ now - e.1.now ≤ cfg.graduationCooldownMs) (init cfg reportBound) es

/-- Who the source names at `now`, after a run, is bound to an admitted connection or was released
recently; so no more are in the map than are admitted or were. -/
structure OffersRecent (cfg : Config) (reportBound : Bool) (es : List (Io × Event)) (now : Int) : Prop where
  offered : ∀ nh ∈ ((system cfg reportBound).after (init cfg reportBound) es).server.directorySource,
    ((system cfg reportBound).after (init cfg reportBound) es).server.BoundAdmitted nh ∨
      ReleasedRecently cfg reportBound es now nh
  bounded : ∀ recent : List JsString, (∀ nh, ReleasedRecently cfg reportBound es now nh → nh ∈ recent) →
    ((system cfg reportBound).after (init cfg reportBound) es).server.graduatedRecently.size ≤
      ((system cfg reportBound).after (init cfg reportBound) es).server.admittedIds.length + recent.length

/-- Every release of a run is at most the cooldown before `now`, or of an identity that is bound to an
admitted connection by then, or followed by another release of the identity or by a graduation that
prunes it. -/
def ReleasesFade (cfg : Config) (reportBound : Bool) (es : List (Io × Event)) (now : Int) : Prop :=
  ∀ es₁ e es₂ nh, es = es₁ ++ e :: es₂ →
    ReleasesPeer cfg nh ((system cfg reportBound).after (init cfg reportBound) es₁) e →
      now - e.1.now ≤ cfg.graduationCooldownMs ∨
      ((system cfg reportBound).after (init cfg reportBound) es).server.BoundAdmitted nh ∨
      (system cfg reportBound).Sometime (ReleasesPeer cfg nh)
        (((system cfg reportBound).after (init cfg reportBound) es₁).step cfg e) es₂ ∨
      (system cfg reportBound).Sometime (PrunesFrom cfg e.1.now)
        ((system cfg reportBound).after (init cfg reportBound) es₁) (e :: es₂)

theorem offered_of_releasesFade (h : ReleasesFade cfg reportBound es now)
    (hnh : nh ∈ ((system cfg reportBound).after (init cfg reportBound) es).server.directorySource) :
    ((system cfg reportBound).after (init cfg reportBound) es).server.BoundAdmitted nh ∨
      ReleasedRecently cfg reportBound es now nh := by
  rcases Server.mem_directorySource.mp hnh with hbound | ⟨t, hget⟩
  · exact Or.inl hbound
  · obtain ⟨es₁, e, es₂, rfl, ⟨hreleases, rfl, hkept⟩, hlast⟩ := get_graduatedRecently_iff.mp hget
    rcases h es₁ e es₂ nh rfl hreleases with hrecent | hbound | hagain | hpruned
    · exact Or.inr ⟨es₁, e, es₂, rfl, hreleases, hrecent⟩
    · exact Or.inl hbound
    · exact absurd (hagain.mono fun _ _ => Or.inl) hlast
    · rcases System.sometime_cons.mp hpruned with hnow | hlater
      · exact absurd hnow hkept
      · exact absurd (hlater.mono fun _ _ => Or.inr) hlast

/-- The keys of the map are among those bound and those released recently. -/
theorem bounded_of_offered
    (h : ∀ nh ∈ ((system cfg reportBound).after (init cfg reportBound) es).server.directorySource,
      ((system cfg reportBound).after (init cfg reportBound) es).server.BoundAdmitted nh ∨
        ReleasedRecently cfg reportBound es now nh)
    {recent : List JsString} (hrecent : ∀ nh, ReleasedRecently cfg reportBound es now nh → nh ∈ recent) :
    ((system cfg reportBound).after (init cfg reportBound) es).server.graduatedRecently.size ≤
      ((system cfg reportBound).after (init cfg reportBound) es).server.admittedIds.length +
        recent.length := by
  generalize ((system cfg reportBound).after (init cfg reportBound) es).server = s at h ⊢
  have hsub : s.graduatedRecently.keys ⊆
      (s.graduationCandidates.filterMap fun e => s.connNodeHex e.1) ++ recent := by
    intro nh hnh
    rcases h nh (List.mem_append_right _ hnh) with hbound | hreleased
    · exact List.mem_append_left _ (Server.mem_boundAdmitted.mpr hbound)
    · exact List.mem_append_right _ (hrecent nh hreleased)
  calc s.graduatedRecently.size
      = s.graduatedRecently.keys.length := (List.length_map _).symm
    _ ≤ ((s.graduationCandidates.filterMap fun e => s.connNodeHex e.1) ++ recent).length :=
        (List.subperm_of_subset s.graduatedRecently.nodup hsub).length_le
    _ = (s.graduationCandidates.filterMap fun e => s.connNodeHex e.1).length + recent.length :=
        List.length_append
    _ ≤ s.graduationCandidates.length + recent.length :=
        Nat.add_le_add_right (List.length_filterMap_le _ _) _
    _ = s.admittedIds.length + recent.length := by rw [Server.admittedIds, List.length_map]

theorem releasesFade_of_offered (hclock : System.Forward time es)
    (h : ∀ nh ∈ ((system cfg reportBound).after (init cfg reportBound) es).server.directorySource,
      ((system cfg reportBound).after (init cfg reportBound) es).server.BoundAdmitted nh ∨
        ReleasedRecently cfg reportBound es now nh) : ReleasesFade cfg reportBound es now := by
  intro es₁ e es₂ nh hsplit hreleases
  by_contra hnot
  simp only [not_or] at hnot
  obtain ⟨hold, hunbound, hlast, hkept⟩ := hnot
  rw [System.sometime_cons, not_or] at hkept
  have hget : ((system cfg reportBound).after (init cfg reportBound) es).server.graduatedRecently.get nh =
      some e.1.now := by
    refine get_graduatedRecently_iff.mpr ⟨es₁, e, es₂, hsplit, ⟨hreleases, rfl, hkept.1⟩, ?_⟩
    rintro ⟨fs₁, f, fs₂, heq, hagain | hpruned⟩
    · exact hlast ⟨fs₁, f, fs₂, heq, hagain⟩
    · exact hkept.2 ⟨fs₁, f, fs₂, heq, hpruned⟩
  rcases h nh (Server.mem_directorySource.mpr (Or.inr ⟨_, hget⟩)) with hbound | hrecent
  · exact hunbound hbound
  · -- the recent release is this one or an earlier one
    rw [ReleasedRecently, hsplit, System.sometime_append, System.sometime_cons] at hrecent
    rcases hrecent with ⟨fs₁, f, fs₂, rfl, -, hago⟩ | ⟨-, hago⟩ | hlater
    · rw [hsplit, List.append_assoc, List.cons_append] at hclock
      have hle : time f ≤ time e := (List.pairwise_cons.mp hclock.right).1 e
        (List.mem_append_right _ List.mem_cons_self)
      exact hold (by unfold time at hle; omega)
    · exact hold hago
    · exact hlast (hlater.mono fun _ _ hreleased => hreleased.1)

/-- **Whom the directory is told of.** At any time after a run whose clock never goes back, the source
names only who is bound to an admitted connection or was released at most the cooldown ago, and so the
map is bounded by their number, exactly when every release that is older has been followed by another of
the identity, by its admission under a bound connection, or by a graduation that prunes it. -/
theorem offersRecent_iff (hclock : System.Forward time es) :
    OffersRecent cfg reportBound es now ↔ ReleasesFade cfg reportBound es now := by
  constructor
  · exact fun h => releasesFade_of_offered hclock h.offered
  · intro h
    have hoffered : ∀ nh ∈
        ((system cfg reportBound).after (init cfg reportBound) es).server.directorySource,
          ((system cfg reportBound).after (init cfg reportBound) es).server.BoundAdmitted nh ∨
            ReleasedRecently cfg reportBound es now nh := fun nh => offered_of_releasesFade h
    exact ⟨hoffered, fun recent => bounded_of_offered hoffered⟩

end Run

/-- A graduate's socket closes, and nothing more happens. -/
def graduateLeaves : List (Io × Event) :=
  oneGraduates.concat ({ now := 40001 }, .closed (js "c1") graduated [])

theorem forward_graduateLeaves : System.Forward time graduateLeaves := by
  unfold System.Forward
  decide +kernel

/-- Ten seconds later the graduate is named, and it was released recently. -/
theorem offersRecent_graduateLeaves :
    OffersRecent tight false graduateLeaves 50000 ∧
      ((system tight false).after (init tight false) graduateLeaves).server.graduatedRecently.size = 1 := by
  have hrecent : ∀ e ∈ graduateLeaves, 50000 - e.1.now ≤ tight.graduationCooldownMs := by decide +kernel
  refine ⟨(offersRecent_iff forward_graduateLeaves).mpr fun es₁ e es₂ nh hsplit _ => ?_, by decide +kernel⟩
  exact Or.inl (hrecent e (hsplit ▸ List.mem_append_right _ List.mem_cons_self))

/-- An hour later it is still named. -/
theorem not_offersRecent_graduateLeaves :
    ¬∀ (cfg : Config) (reportBound : Bool) (es : List (Io × Event)) (now : Int),
      (system cfg reportBound).Valid (init cfg reportBound) es → System.Forward time es →
        (∀ e ∈ es, time e ≤ now) → OffersRecent cfg reportBound es now := by
  intro h
  have hoffers := h tight false graduateLeaves 3600000 (valid_of_openRun (by decide +kernel))
    forward_graduateLeaves (by decide +kernel)
  obtain ⟨nh, hnh, hunbound⟩ : ∃ nh ∈ ((system tight false).after (init tight false)
      graduateLeaves).server.directorySource, nh ∉ (((system tight false).after (init tight false)
        graduateLeaves).server.graduationCandidates.filterMap fun e =>
          ((system tight false).after (init tight false) graduateLeaves).server.connNodeHex e.1) := by
    decide +kernel
  have hold : ∀ e ∈ graduateLeaves, ¬3600000 - e.1.now ≤ tight.graduationCooldownMs := by decide +kernel
  rcases hoffers.offered nh hnh with hbound | ⟨es₁, e, es₂, hsplit, -, hago⟩
  · exact hunbound (Server.mem_boundAdmitted.mpr hbound)
  · exact hold e (hsplit ▸ List.mem_append_right _ List.mem_cons_self) hago

end Bridge

end AxonaBridge
