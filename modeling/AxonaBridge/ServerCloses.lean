import AxonaBridge.ServerScope

/-!
# Whom an event cuts off

A close that was called is a row of `out`, and its connection stays in the table until the close
event, for as long as the other side likes. `Cuts C` says of two states that whatever was appended to
`out` in between closes or terminates no connection outside `C`.
-/

open JsText

namespace AxonaBridge

/-- A close of a connection. -/
def Out.isCloseOf (connId : ConnId) : Out → Bool
  | .close closed .. => closed = connId
  | _ => false

namespace Server

variable {cfg : Config} {io : Io} {s s' s'' : Server} {C D : ConnId → Prop}

/-- Close has been called on the connection. -/
def CloseCalled (s : Server) (connId : ConnId) : Prop := ∃ o ∈ s.out, o.isCloseOf connId = true

instance (connId : ConnId) : Decidable (s.CloseCalled connId) :=
  inferInstanceAs (Decidable (∃ o ∈ s.out, o.isCloseOf connId = true))

theorem CloseCalled.any_cutOff {connId : ConnId} (h : s.CloseCalled connId) :
    s.out.any (fun o => o.cutOff.isSome) = true := by
  obtain ⟨o, ho, hclose⟩ := h
  refine List.any_eq_true.mpr ⟨o, ho, ?_⟩
  cases o with
  | close closed code reason threw => rfl
  | _ => cases hclose

/-- The admitted connections of the table that close has not been called on. -/
def liveIds (s : Server) : List ConnId := s.admittedIds.filter fun connId => ¬s.CloseCalled connId

theorem mem_liveIds {connId : ConnId} :
    connId ∈ s.liveIds ↔ s.IsAdmitted connId ∧ ¬s.CloseCalled connId := by
  simp [liveIds, mem_admittedIds]

theorem added_wsClose (connId : ConnId) (code : Nat) (reason : JsString) :
    Added s (s.wsClose io connId code reason)
      (.close connId code reason (closeThrows io connId reason)) :=
  ⟨_, rfl, List.mem_singleton_self _⟩

/-- `s'` has appended to the output of `s`, and cut off none but connections of `C`. -/
def Cuts (C : ConnId → Prop) (s s' : Server) : Prop :=
  ∃ added, s'.out = s.out ++ added ∧ ∀ o ∈ added, ∀ connId, o.cutOff = some connId → C connId

namespace Cuts

theorem of_out_eq (h : s'.out = s.out) : Cuts C s s' := ⟨[], by simp [h], by simp⟩

theorem refl : Cuts C s s := of_out_eq rfl

theorem trans (h : Cuts C s s') (h' : Cuts C s' s'') : Cuts C s s'' := by
  obtain ⟨a, ha, hC⟩ := h
  obtain ⟨b, hb, hD⟩ := h'
  refine ⟨a ++ b, by rw [hb, ha, List.append_assoc], fun o hmem => ?_⟩
  rcases List.mem_append.mp hmem with hmem | hmem
  · exact hC o hmem
  · exact hD o hmem

theorem of_append (o : Out) (h : ∀ connId, o.cutOff = some connId → C connId)
    (hout : s'.out = s.out ++ [o]) : Cuts C s s' :=
  ⟨[o], hout, fun o' hmem connId ho => h connId (by rw [← List.mem_singleton.mp hmem]; exact ho)⟩

/-- What was appended cuts off connections of `C` alone. -/
theorem added (h : Cuts C s s') {o : Out} (ho : Added s s' o) {connId : ConnId}
    (hcut : o.cutOff = some connId) : C connId := by
  obtain ⟨a, ha, hC⟩ := h
  obtain ⟨b, hb, hmem⟩ := ho
  exact hC o (List.append_cancel_left (ha.symm.trans hb) ▸ hmem) connId hcut

end Cuts

theorem cuts_log (row : LogRow) : Cuts C s (s.log cfg row) := by
  unfold log
  split
  · exact Cuts.refl
  · exact Cuts.of_append (.log row) (fun _ h => by cases h) rfl

theorem cuts_logInfo (event : JsString) (fields : List (JsString × LogVal)) :
    Cuts C s (s.logInfo cfg event fields) := cuts_log _

theorem cuts_logErr (event : JsString) (fields : List (JsString × LogVal)) :
    Cuts C s (s.logErr cfg event fields) := cuts_log _

theorem cuts_logDebug (event : JsString) (fields : List (JsString × LogVal)) :
    Cuts C s (s.logDebug cfg event fields) := cuts_log _

theorem cuts_wsSend (connId : ConnId) (frame : Frame) : Cuts C s (s.wsSend io connId frame).2 := by
  unfold wsSend
  split
  · exact Cuts.refl
  · exact Cuts.of_append (.frame connId frame) (fun _ h => by cases h) rfl

theorem cuts_wsClose {connId : ConnId} (h : C connId) (code : Nat) (reason : JsString) :
    Cuts C s (s.wsClose io connId code reason) :=
  Cuts.of_append (.close connId code reason (closeThrows io connId reason))
    (fun _ hcut => Option.some.inj hcut ▸ h) rfl

theorem cuts_noteGraduated (nh : Option JsString) : Cuts C s (s.noteGraduated io nh) := by
  cases nh <;> exact Cuts.of_out_eq rfl

/-! ### Graduation -/

theorem cuts_noteCohortOnly (pick : GraduationSelect.Pick) (c : Conn) :
    Cuts C s (s.noteCohortOnly cfg io pick c) := by
  unfold noteCohortOnly
  split
  · exact Cuts.trans (Cuts.of_out_eq rfl) (cuts_logInfo _ _)
  · exact Cuts.refl

theorem cuts_graduate {pick : GraduationSelect.Pick} (h : C pick.id) (c : Conn) (admitted : Nat) :
    Cuts C s (s.graduate cfg io pick c admitted) := by
  unfold graduate
  dsimp only
  refine Cuts.trans ?_ (Cuts.of_out_eq rfl)
  refine Cuts.trans ?_ (cuts_noteCohortOnly _ _)
  refine Cuts.trans ?_ (cuts_logInfo _ _)
  refine Cuts.trans ?_ (Cuts.of_out_eq (s := noteGraduated _ _ _) rfl)
  exact Cuts.trans (cuts_wsClose h _ _) (cuts_noteGraduated _)

theorem added_graduate (pick : GraduationSelect.Pick) (c : Conn) (admitted : Nat) :
    ∃ reason threw, Added s (s.graduate cfg io pick c admitted) (.close pick.id graduated reason threw) := by
  have hclose := @added_wsClose io s pick.id graduated
    (js "graduated — you are meshed; freeing the bridge slot")
  refine ⟨_, _, hclose.then (P := fun _ _ => True) ?_⟩
  unfold graduate
  dsimp only
  refine Emits.trans ?_ (Emits.of_out_eq rfl)
  refine Emits.trans ?_ (emits_noteCohortOnly _ _)
  refine Emits.trans ?_ (emits_logInfo _ _)
  exact Emits.trans (emits_noteGraduated _) (Emits.of_out_eq rfl)

/-- `maybeGraduate` gets past its switch, its interval and its band. -/
structure GraduationDue (cfg : Config) (io : Io) (s : Server) : Prop where
  on : cfg.nurseryOn = true
  interval : cfg.graduationIntervalMs ≤ io.now - s.lastGraduationAt
  band : cfg.maxPeers + cfg.graduationSlack < s.graduationCandidates.length

/-- The admitted connections that the gate leaves to be picked from. -/
def gated (cfg : Config) (io : Io) (s : Server) : List (ConnId × Conn) :=
  if cfg.graduationGateOn then s.graduationCandidates.filter fun e => !s.heldBack cfg io e
  else s.graduationCandidates

theorem gated_sublist_candidates : (s.gated cfg io).Sublist s.graduationCandidates := by
  unfold gated
  split
  · exact List.filter_sublist
  · exact List.Sublist.refl _

theorem gated_sublist : (s.gated cfg io).Sublist s.connections.entries :=
  gated_sublist_candidates.trans List.filter_sublist

/-- The selection `maybeGraduate` makes. -/
def selection (cfg : Config) (io : Io) (s : Server) : Option GraduationSelect.Pick :=
  GraduationSelect.selectGraduate (graduationOptions cfg io) ((s.gated cfg io).map (s.describe cfg io))

/-- The selection picks a connection of the table, admitted and not held back. -/
theorem get_of_selection {pick : GraduationSelect.Pick} (h : s.selection cfg io = some pick) :
    ∃ c, (pick.id, c) ∈ s.gated cfg io ∧ s.connections.get pick.id = some c ∧ c.admitted = true := by
  obtain ⟨d, hd, hid⟩ := GraduationSelect.mem_of_selectGraduate _ h
  obtain ⟨e, he, rfl⟩ := List.mem_map.mp hd
  have hcandidate : e ∈ s.graduationCandidates := gated_sublist_candidates.subset he
  obtain ⟨hmem, hadm⟩ := List.mem_filter.mp hcandidate
  have heq : (pick.id, e.2) = e := by rw [← hid]; rfl
  exact ⟨e.2, heq ▸ he, JsMap.mem_entries_iff.mp (heq ▸ hmem), hadm⟩

theorem graduateFrom_of_none (h : s.selection cfg io = none) (held admitted : Nat) :
    s.graduateFrom cfg io (s.gated cfg io) held admitted =
      { s with gateHeldTotal := s.gateHeldTotal + held } := by
  have hnone : GraduationSelect.selectGraduate (graduationOptions cfg io) ((s.gated cfg io).map
      ({ s with gateHeldTotal := s.gateHeldTotal + held }.describe cfg io)) = none := h
  unfold graduateFrom
  dsimp only
  rw [hnone]

theorem graduateFrom_of_some {pick : GraduationSelect.Pick} {c : Conn}
    (h : s.selection cfg io = some pick) (hget : s.connections.get pick.id = some c) (held admitted : Nat) :
    s.graduateFrom cfg io (s.gated cfg io) held admitted =
      { s with gateHeldTotal := s.gateHeldTotal + held }.graduate cfg io pick c admitted := by
  have hpick : GraduationSelect.selectGraduate (graduationOptions cfg io) ((s.gated cfg io).map
      ({ s with gateHeldTotal := s.gateHeldTotal + held }.describe cfg io)) = some pick := h
  unfold graduateFrom
  dsimp only
  rw [hpick]
  dsimp only
  rw [hget]

/-- What a run of `maybeGraduate` comes to. -/
theorem maybeGraduate_cases (cfg : Config) (io : Io) (s : Server) :
    (∃ pick c held, GraduationDue cfg io s ∧ s.selection cfg io = some pick ∧
        s.connections.get pick.id = some c ∧
        s.maybeGraduate cfg io = { s with gateHeldTotal := held }.graduate cfg io pick c
          s.graduationCandidates.length) ∨
      ((GraduationDue cfg io s → s.selection cfg io = none) ∧
        ∃ held, s.maybeGraduate cfg io = { s with gateHeldTotal := held }) := by
  obtain ⟨held, heq⟩ : ∃ held, s.maybeGraduate cfg io =
      if !cfg.nurseryOn then s
      else if io.now - s.lastGraduationAt < cfg.graduationIntervalMs then s
      else if (s.graduationCandidates.length : Int) ≤ cfg.maxPeers + cfg.graduationSlack then s
      else s.graduateFrom cfg io (s.gated cfg io) held s.graduationCandidates.length := ⟨_, rfl⟩
  rw [heq]
  split_ifs with hon hinterval hband
  · refine Or.inr ⟨fun h => ?_, _, rfl⟩
    rw [h.on] at hon
    cases hon
  · exact Or.inr ⟨fun h => absurd h.interval (by omega), _, rfl⟩
  · exact Or.inr ⟨fun h => absurd h.band (by omega), _, rfl⟩
  · have hdue : GraduationDue cfg io s := ⟨by simpa using hon, by omega, by omega⟩
    cases hpick : s.selection cfg io with
    | none => exact Or.inr ⟨fun _ => rfl, _, graduateFrom_of_none hpick _ _⟩
    | some pick =>
        obtain ⟨c, -, hget, -⟩ := get_of_selection hpick
        exact Or.inl ⟨pick, c, _, hdue, rfl, hget, graduateFrom_of_some hpick hget _ _⟩

/-- `maybeGraduate` closes the connection it picks, and no other. -/
theorem added_maybeGraduate_iff {connId : ConnId} :
    (∃ code reason threw, Added s (s.maybeGraduate cfg io) (.close connId code reason threw)) ↔
      GraduationDue cfg io s ∧ ∃ pick, s.selection cfg io = some pick ∧ pick.id = connId := by
  rcases maybeGraduate_cases cfg io s with
    ⟨pick, c, held, hdue, hpick, hget, heq⟩ | ⟨hnone, held, heq⟩
  · rw [heq]
    constructor
    · rintro ⟨code, reason, threw, hadded⟩
      have hcuts : ∀ t : Server, t.out = s.out →
          Cuts (fun connId => connId = pick.id) s
            (t.graduate cfg io pick c s.graduationCandidates.length) := fun t ht =>
        (Cuts.of_out_eq ht).trans (cuts_graduate (C := fun connId => connId = pick.id) rfl c _)
      have hpicked := (hcuts { s with gateHeldTotal := held } rfl).added hadded rfl
      exact ⟨hdue, pick, hpick, hpicked.symm⟩
    · rintro ⟨-, pick', hpick', rfl⟩
      obtain rfl := Option.some.inj (hpick.symm.trans hpick')
      obtain ⟨reason, threw, added, hout, hmem⟩ :=
        @added_graduate cfg io { s with gateHeldTotal := held } pick c s.graduationCandidates.length
      exact ⟨graduated, reason, threw, added, hout, hmem⟩
  · rw [heq]
    constructor
    · rintro ⟨code, reason, threw, added, hout, hmem⟩
      have hnil : added = [] := List.append_right_eq_self.mp hout.symm
      rw [hnil] at hmem
      cases hmem
    · rintro ⟨hdue, pick, hpick, -⟩
      rw [hnone hdue] at hpick
      cases hpick

end Server

end AxonaBridge
