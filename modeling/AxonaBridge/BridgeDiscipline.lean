import AxonaBridge.BridgeBand
import AxonaBridge.ServerRecord

/-!
# The discipline of graduation

What holds of every close `maybeGraduate` makes in a run whose clock never goes back: how long after
its last one, how long after the identity was last released, and of which connections. The map of
cooldowns forgets only what is past its cooldown.
-/

open JsText

namespace AxonaBridge

namespace Record

/-- A release at `t` is past its cooldown at `now`, or the map remembers a release as recent. -/
def Cooling (r : Record) (cooldownMs : Int) (nh : JsString) (t now : Int) : Prop :=
  cooldownMs < now - t ∨ ∃ at', r.graduatedRecently.get nh = some at' ∧ t ≤ at'

theorem Cooling.later {r : Record} {cooldownMs : Int} {nh : JsString} {t now now' : Int}
    (hle : now ≤ now') (h : r.Cooling cooldownMs nh t now) : r.Cooling cooldownMs nh t now' := by
  rcases h with hpast | hget
  · exact Or.inl (by omega)
  · exact Or.inr hget

/-- A further release is remembered as the more recent one. -/
theorem Cooling.noteGraduated {r : Record} {cooldownMs : Int} {nh : JsString} {t now : Int}
    (ht : t ≤ now) (h : r.Cooling cooldownMs nh t now) (nh' : Option JsString) :
    (r.noteGraduated now nh').Cooling cooldownMs nh t now := by
  rcases h with hpast | ⟨at', hget, hle⟩
  · exact Or.inl hpast
  · cases nh' with
    | none => exact Or.inr ⟨at', hget, hle⟩
    | some nh' =>
        refine Or.inr ?_
        dsimp only [Record.noteGraduated]
        rw [JsMap.get_set]
        split
        · exact ⟨now, rfl, ht⟩
        · exact ⟨at', hget, hle⟩

/-- Releasing an identity is remembered. -/
theorem cooling_noteGraduated (r : Record) (cooldownMs : Int) (nh : JsString) (now : Int) :
    (r.noteGraduated now (some nh)).Cooling cooldownMs nh now now :=
  Or.inr ⟨now, JsMap.get_set_self _ _ _, le_refl _⟩

end Record

/-- The connection was introduced to an older one, or told of a graduate. -/
def Mark.reached (m : Mark) : Bool := m.intro.any fun i => i.anchorsOlderThanCohort || i.graduatedListed

namespace Record

theorem reached_modify {r : Record} {id connId : ConnId} {f : Mark → Mark} {m' : Mark}
    (hm' : (r.modify id f).marks connId = some m') (h : m'.reached = true)
    (hf : ∀ m, (f m).intro = m.intro) : ∃ m, r.marks connId = some m ∧ m.reached = true := by
  obtain ⟨m, hm, ⟨-, rfl⟩ | rfl⟩ := exists_of_marks_modify hm'
  · refine ⟨m, hm, ?_⟩
    unfold Mark.reached at h ⊢
    rw [← hf m]
    exact h
  · exact ⟨m', hm, h⟩

/-- What was reached was reached before or by the introduction. -/
theorem reached_introduce {r : Record} {cohortMs since : Int} {id connId : ConnId} {peers : List ConnId}
    {listed : Bool} {m' : Mark} (hm' : (r.introduce cohortMs id since peers listed).marks connId = some m')
    (h : m'.reached = true) : (∃ m, r.marks connId = some m ∧ m.reached = true) ∨
      (connId = id ∧ (listed = true ∨ r.reachesOlder cohortMs since peers = true)) := by
  obtain ⟨m, hm, ⟨hid, rfl⟩ | rfl⟩ := exists_of_marks_modify hm'
  · unfold Mark.reached at h
    dsimp only [Intro.record] at h
    rw [Option.any_some, Bool.or_eq_true, Bool.or_eq_true, Bool.or_eq_true] at h
    have hold : ((m.intro.getD {}).anchorsOlderThanCohort = true ∨
        (m.intro.getD {}).graduatedListed = true) → m.reached = true := by
      unfold Mark.reached
      cases m.intro with
      | none => simp
      | some i => simp
    rcases h with (hanchors | holder) | (hsample | hlisted)
    · exact Or.inl ⟨m, hm, hold (Or.inl hanchors)⟩
    · exact Or.inr ⟨hid, Or.inr holder⟩
    · exact Or.inl ⟨m, hm, hold (Or.inr hsample)⟩
    · exact Or.inr ⟨hid, Or.inl hlisted⟩
  · exact Or.inl ⟨m', hm, h⟩

theorem reachesOlder_modify {r : Record} {cohortMs since : Int} {id : ConnId} {peers : List ConnId}
    {f : Mark → Mark} (hid : id ∉ peers) :
    (r.modify id f).reachesOlder cohortMs since peers = r.reachesOlder cohortMs since peers := by
  have hpeer : ∀ peer ∈ peers, (r.modify id f).marks peer = r.marks peer := by
    intro peer hmem
    refine if_neg fun heq => hid ?_
    rw [← heq]
    exact hmem
  rw [Bool.eq_iff_iff, reachesOlder, reachesOlder, List.any_eq_true, List.any_eq_true]
  constructor
  · rintro ⟨peer, hmem, h⟩
    exact ⟨peer, hmem, by rw [← hpeer peer hmem]; exact h⟩
  · rintro ⟨peer, hmem, h⟩
    exact ⟨peer, hmem, by rw [hpeer peer hmem]; exact h⟩

end Record

namespace Server

variable {cfg : Config} {io : Io} {s : Server}

/-- The map of cooldowns is pruned of nothing that still cools. -/
theorem cooling_afterGraduation {nh : JsString} {t : Int} {pick : GraduationSelect.Pick}
    (h : (s.record.noteGraduated io.now (s.connNodeHex pick.id)).Cooling cfg.graduationCooldownMs nh t
      io.now) : (afterGraduation cfg io s pick).Cooling cfg.graduationCooldownMs nh t io.now := by
  rcases h with hpast | ⟨at', hget, hle⟩
  · exact Or.inl hpast
  · unfold afterGraduation Record.Cooling
    dsimp only
    split
    · by_cases hold : cfg.graduationCooldownMs < io.now - at'
      · exact Or.inl (by omega)
      · refine Or.inr ⟨at', ?_, hle⟩
        rw [JsMap.get_filter, hget, Option.filter_some, if_pos]
        exact decide_eq_true (by omega)
    · exact Or.inr ⟨at', hget, hle⟩

theorem cooling_step {e : Event} {nh : JsString} {t : Int} (ht : t ≤ io.now)
    (h : s.record.Cooling cfg.graduationCooldownMs nh t io.now) :
    (s.step cfg io e).record.Cooling cfg.graduationCooldownMs nh t io.now := by
  have hremembers := remembers_step cfg io s e
  generalize (s.step cfg io e).record = r at hremembers ⊢
  cases hremembers with
  | released hreleases => exact h.noteGraduated ht _
  | graduated hdue hpick => exact cooling_afterGraduation (h.noteGraduated ht _)
  | _ => exact h

theorem lastGraduationAt_step {e : Event} {t : Int} (ht : t ≤ io.now)
    (h : t ≤ s.record.lastGraduationAt) : t ≤ (s.step cfg io e).record.lastGraduationAt := by
  have hremembers := remembers_step cfg io s e
  generalize (s.step cfg io e).record = r at hremembers ⊢
  cases hremembers with
  | graduated hdue hpick => exact ht
  | released hreleases =>
      unfold Record.noteGraduated
      split <;> exact h
  | _ => exact h

/-! ### Introductions -/

/-- An event introduces a connection outside its cohort: to an admitted one that came earlier by more
than a cohort, or with a sample of the graduated. -/
def ReachesOutside (cfg : Config) (io : Io) (s : Server) (e : Event) (id : ConnId) : Prop :=
  ∃ conn peers, Lists cfg io s e id conn peers ∧ (s.sampleFor cfg io id ≠ [] ∨
    ∃ peer ∈ peers, ∃ c, s.connections.get peer = some c ∧ c.admitted = true ∧
      cfg.cohortMs < conn.since - c.since)

theorem reachesOlder_record_iff {cohortMs since : Int} {peers : List ConnId} :
    s.record.reachesOlder cohortMs since peers = true ↔
      ∃ peer ∈ peers, ∃ c, s.connections.get peer = some c ∧ c.admitted = true ∧
        cohortMs < since - c.since := by
  rw [reachesOlder_record, List.any_eq_true]
  simp only [Option.any_eq_true, Bool.and_eq_true, decide_eq_true_eq]

/-- What a connection has reached it had reached, or reaches by the event. -/
theorem reached_step {e : Event} {id : ConnId} {m' : Mark}
    (hrid : ∀ conn json, e = .message id (.text (.ok json)) → Introduces cfg s id conn json →
      id ≠ cfg.node.reservedId)
    (hm' : (s.step cfg io e).record.marks id = some m') (h : m'.reached = true) :
    (∃ m, s.record.marks id = some m ∧ m.reached = true) ∨ ReachesOutside cfg io s e id := by
  have hremembers := remembers_step cfg io s e
  generalize (s.step cfg io e).record = r at hremembers hm'
  cases hremembers with
  | connect connId =>
      dsimp only [Record.enter] at hm'
      split at hm'
      · cases hm'
        cases h
      · exact Or.inl ⟨m', hm', h⟩
  | closed connId code reason =>
      dsimp only [Record.enter] at hm'
      split at hm'
      · cases hm'
      · exact Or.inl ⟨m', hm', h⟩
  | grace => exact Or.inl (Record.reached_modify hm' h fun _ => rfl)
  | refused => exact Or.inl (Record.reached_modify hm' h fun _ => rfl)
  | credential => exact Or.inl (Record.reached_modify hm' h fun _ => rfl)
  | @introduced connId conn json hintroduces =>
      rcases Record.reached_introduce hm' h with ⟨m, hm, hreached⟩ | ⟨rfl, hnow⟩
      · exact Or.inl (Record.reached_modify hm hreached fun _ => rfl)
      · have hself := @not_mem_introductions_self cfg io (greet io s id conn json.revive) id
          (hrid conn json rfl hintroduces) (Conn.ofHello conn json.revive)
        rw [Record.reachesOlder_modify hself] at hnow
        refine Or.inr ⟨conn, _, .introduction hintroduces, hnow.imp ?_ reachesOlder_record_iff.mp⟩
        exact fun hlisted => of_decide_eq_true hlisted
  | @relisted connId conn json hlist =>
      rcases Record.reached_introduce hm' h with hold | ⟨rfl, hnow⟩
      · exact Or.inl hold
      · refine Or.inr ⟨conn, _, .relisted hlist, hnow.imp ?_ reachesOlder_record_iff.mp⟩
        exact fun hlisted => of_decide_eq_true hlisted
  | released hreleases =>
      rw [Record.marks_noteGraduated] at hm'
      exact Or.inl ⟨m', hm', h⟩
  | graduated hdue hpick =>
      have hmarks : ∀ pick, (afterGraduation cfg io s pick).marks = s.record.marks := fun pick =>
        Record.marks_noteGraduated _ _ _
      rw [hmarks] at hm'
      exact Or.inl ⟨m', hm', h⟩
  | _ => exact Or.inl ⟨m', hm', h⟩

/-! ### Releases -/

theorem cuts_tryLog {C : ConnId → Prop} (level : LogLevel) (event : JsString)
    (fields : List (JsString × JsVal)) : Cuts C s (s.tryLog cfg level event fields).1 := by
  unfold tryLog
  split
  · exact Cuts.refl
  · split
    · exact cuts_log _
    · exact Cuts.refl

theorem cuts_sendPong {C : ConnId → Prop} (id : ConnId) (msg : JsVal) :
    Cuts C s (s.sendPong cfg io id msg) := by
  unfold sendPong
  dsimp only
  split
  · exact cuts_logErr _ _
  · split
    · refine Cuts.trans ?_ (cuts_logDebug _ _)
      exact Cuts.trans (cuts_wsSend _ _) (Cuts.of_out_eq rfl)
    · exact cuts_logErr _ _

/-- A ping has a connection closed by rule 4 alone. -/
theorem releases_of_added {id connId : ConnId} {json : JsVal} {code : Nat} {reason : JsString}
    {threw : Bool} (htype : JsVal.asString (json.revive.field (js "type")) = some (js "ping"))
    (h : Added s (s.onMessage cfg io id (.text (.ok json))).1 (.close connId code reason threw)) :
    Releases cfg io s id json := by
  by_contra hnot
  have hcuts : Cuts (fun _ => False) s (s.onMessage cfg io id (.text (.ok json))).1 := by
    unfold onMessage
    split
    · exact Cuts.refl
    · rename_i conn hget
      dsimp only
      have htouch : ∀ t : Server, Cuts (fun _ => False)
          (s.modifyConn id fun _ => { conn with lastSeenAt := io.now }) t →
            Cuts (fun _ => False) s t := fun t ht => (Cuts.of_out_eq rfl).trans ht
      rcases @read_some json.revive (js "type") with ⟨-, hread⟩ | hread
      · rw [hread]
        exact Cuts.of_out_eq rfl
      · rw [hread]
        dsimp only
        split
        · rename_i hadm
          have hget' := @get_heard io s id conn hget
          refine htouch _ ?_
          unfold onFrame
          dsimp only
          rw [htype, if_neg (by decide), if_pos rfl]
          dsimp only
          obtain ⟨t, hout, -, -, hcase⟩ := @onPing_cases cfg io _ id _ hget' json.revive
          rcases hcase with ⟨m, hm, hdue, -⟩ | ⟨-, heq⟩
          · exact absurd ⟨conn, m, ⟨hget, hadm, htype⟩, hm, hdue⟩ hnot
          · rw [heq]
            exact (Cuts.of_out_eq hout).trans (cuts_sendPong id _)
        · split
          · exact htouch _ (cuts_tryLog _ _ _)
          · rename_i hhello
            rw [not_not, htype] at hhello
            cases hhello
  exact hcuts.added h rfl

theorem record_onMessage_of_releases {id : ConnId} {json : JsVal} (h : Releases cfg io s id json) :
    (s.step cfg io (.message id (.text (.ok json)))).record =
      s.record.noteGraduated io.now (s.connNodeHex id) := by
  have hremembers := remembers_step cfg io s (.message id (.text (.ok json)))
  obtain ⟨conn, m, hreceives, hm, hdue⟩ := h
  generalize (s.step cfg io (.message id (.text (.ok json)))).record = r at hremembers ⊢
  have hpending : ∀ {conn' : Conn}, s.connections.get id = some conn' → conn'.admitted = true := by
    intro conn' hget
    cases hget.symm.trans hreceives.get
    exact hreceives.admitted
  have hunadmitted : ¬Admits cfg s id (.text (.ok json)) := fun hadmits => by
    have hadmission := hadmits.1
    rw [admission, hreceives.get, Option.map_some, hreceives.admitted] at hadmission
    cases hadmission
  cases hremembers with
  | same hleaves => exact absurd ⟨conn, m, hreceives, hm, hdue⟩ (hleaves json rfl)
  | refused hget hadm => exact absurd (hpending hget) (by rw [hadm]; exact Bool.false_ne_true)
  | credential hadmits => exact absurd hadmits hunadmitted
  | introduced hintroduces => exact absurd hintroduces.admits hunadmitted
  | relisted hlist =>
      have htypes := hlist.type.symm.trans hreceives.type
      exact absurd htypes (by decide)
  | released => rfl

theorem record_maybeGraduate_of_selection {pick : GraduationSelect.Pick} (hdue : GraduationDue cfg io s)
    (hpick : s.selection cfg io = some pick) :
    (s.step cfg io .maybeGraduate).record = afterGraduation cfg io s pick := by
  have hremembers := remembers_step cfg io s .maybeGraduate
  generalize (s.step cfg io .maybeGraduate).record = r at hremembers ⊢
  cases hremembers with
  | same hleaves =>
      have hnone := hleaves hdue
      rw [hpick] at hnone
      cases hnone
  | graduated hdue' hpick' =>
      cases hpick.symm.trans hpick'
      rfl

end Server

namespace Bridge

variable {cfg : Config} {b : Bridge} {e : Io × Event}

/-- `maybeGraduate` closes a connection. -/
def Graduates (cfg : Config) (b : Bridge) (e : Io × Event) (id : ConnId) : Prop :=
  e.2 = .maybeGraduate ∧ ∃ code reason threw,
    Server.Added b.server (b.step cfg e).server (.close id code reason threw)

/-- A ping has the connection it arrives on closed. -/
def Frees (cfg : Config) (b : Bridge) (e : Io × Event) (id : ConnId) : Prop :=
  ∃ json, e.2 = .message id (.text (.ok json)) ∧
    JsVal.asString (json.revive.field (js "type")) = some (js "ping") ∧
      ∃ code reason threw, Server.Added b.server (b.step cfg e).server (.close id code reason threw)

/-- The identity of a connection. -/
def Bound (b : Bridge) (id : ConnId) (nodeId : NodeId) : Prop :=
  b.server.node.transport.nodeIdByConnId.get id = some nodeId

theorem Bound.hex {id : ConnId} {nodeId : NodeId} (h : b.Bound id nodeId) :
    b.server.connNodeHex id = some (idToHex nodeId) := by
  unfold Server.connNodeHex
  rw [h]
  rfl

/-- The pick behind a close of `maybeGraduate`. -/
theorem Graduates.selection {id : ConnId} (h : Graduates cfg b e id) :
    Server.GraduationDue cfg e.1 b.server ∧
      ∃ pick, b.server.selection cfg e.1 = some pick ∧ pick.id = id := by
  obtain ⟨hevent, code, reason, threw, hadded⟩ := h
  have hstep : (b.step cfg e).server = b.server.maybeGraduate cfg e.1 := server_step_of_event hevent
  rw [hstep] at hadded
  exact Server.added_maybeGraduate_iff.mp ⟨code, reason, threw, hadded⟩

theorem Graduates.lastGraduationAt {id : ConnId} (h : Graduates cfg b e id) :
    (b.step cfg e).server.record.lastGraduationAt = e.1.now := by
  obtain ⟨hdue, pick, hpick, -⟩ := h.selection
  rw [server_step_of_event h.1, Server.record_maybeGraduate_of_selection hdue hpick]
  rfl

/-- Either release starts a cooldown of the identity. -/
theorem cooling_of_released {id : ConnId} {nodeId : NodeId} (hbound : b.Bound id nodeId)
    (h : Graduates cfg b e id ∨ Frees cfg b e id) :
    (b.step cfg e).server.record.Cooling cfg.graduationCooldownMs (idToHex nodeId) e.1.now e.1.now := by
  rcases h with hgraduates | ⟨json, hevent, htype, code, reason, threw, hadded⟩
  · obtain ⟨hdue, pick, hpick, hid⟩ := hgraduates.selection
    rw [server_step_of_event hgraduates.1, Server.record_maybeGraduate_of_selection hdue hpick]
    refine Server.cooling_afterGraduation ?_
    rw [hid, hbound.hex]
    exact Record.cooling_noteGraduated _ _ _ _
  · rw [server_step_of_event hevent] at hadded ⊢
    rw [Server.record_onMessage_of_releases (Server.releases_of_added htype hadded), hbound.hex]
    exact Record.cooling_noteGraduated _ _ _ _

section Run

variable {reportBound : Bool} {es es₁ fs₁ fs₂ : List (Io × Event)}

variable (cfg reportBound) in
/-- What a release leaves in the map lasts to any later time of the run. -/
theorem cooling_after {nh : JsString} {t now : Int}
    (h : b.server.record.Cooling cfg.graduationCooldownMs nh t t) (hes : System.Forward time es)
    (hfrom : ∀ e ∈ es, t ≤ time e) (hto : ∀ e ∈ es, time e ≤ now) (htt : t ≤ now) :
    ((system cfg reportBound).after b es).server.record.Cooling cfg.graduationCooldownMs nh t now := by
  have hall : (system cfg reportBound).Along (fun _ _ => True) b es :=
    System.along_iff_split.mpr fun _ _ _ _ => trivial
  refine (hall.invariant_at (fun now b => t ≤ now ∧
    b.server.record.Cooling cfg.graduationCooldownMs nh t now) ?_ ?_ ⟨le_refl t, h⟩ hes hfrom hto htt).2
  · exact fun now now' b hle hI => ⟨hI.1.trans hle, hI.2.later hle⟩
  · exact fun b e _ hI => ⟨hI.1, Server.cooling_step hI.1 hI.2⟩

variable (cfg reportBound) in
/-- The time of the last graduation does not go back. -/
theorem lastGraduationAt_after {t now : Int} (h : t ≤ b.server.record.lastGraduationAt)
    (hes : System.Forward time es) (hfrom : ∀ e ∈ es, t ≤ time e) (hto : ∀ e ∈ es, time e ≤ now)
    (htt : t ≤ now) : t ≤ ((system cfg reportBound).after b es).server.record.lastGraduationAt := by
  have hall : (system cfg reportBound).Along (fun _ _ => True) b es :=
    System.along_iff_split.mpr fun _ _ _ _ => trivial
  refine (hall.invariant_at (fun now b => t ≤ now ∧ t ≤ b.server.record.lastGraduationAt) ?_ ?_
    ⟨le_refl t, h⟩ hes hfrom hto htt).2
  · exact fun now now' b hle hI => ⟨hI.1.trans hle, hI.2⟩
  · exact fun b e _ hI => ⟨hI.1, Server.lastGraduationAt_step hI.1 hI.2⟩

/-- A connection that has reached outside its cohort was introduced outside it. -/
theorem reachesOutside_of_reached
    (hes : (system cfg reportBound).Valid (init cfg reportBound) es) :
    ∀ id m, ((system cfg reportBound).after (init cfg reportBound) es).server.record.marks id = some m →
      m.reached = true → ∃ fs₁ e fs₂, es = fs₁ ++ e :: fs₂ ∧ Server.ReachesOutside cfg e.1
        ((system cfg reportBound).after (init cfg reportBound) fs₁).server e.2 id := by
  refine System.Valid.history (P := fun es => ∀ id m,
    ((system cfg reportBound).after (init cfg reportBound) es).server.record.marks id = some m →
      m.reached = true → ∃ fs₁ e fs₂, es = fs₁ ++ e :: fs₂ ∧ Server.ReachesOutside cfg e.1
        ((system cfg reportBound).after (init cfg reportBound) fs₁).server e.2 id) ?_ ?_ hes
  · intro id m hm
    cases hm
  · intro es e hes he hold id m' hm' hreached
    have htracked : ((system cfg reportBound).after (init cfg reportBound) es).Tracked :=
      tracked_of_valid hes
    rw [System.after_append] at hm'
    have hrid : ∀ conn json, e.2 = .message id (.text (.ok json)) → Server.Introduces cfg
        ((system cfg reportBound).after (init cfg reportBound) es).server id conn json →
          id ≠ cfg.node.reservedId := by
      intro conn json _ hintroduces
      obtain ⟨i, -, heq⟩ := htracked.minted id (Or.inr (by rw [hintroduces.admits.1]; rfl))
      rw [heq]
      exact mintConnId_ne_reservedId i cfg.node.epoch
    rcases Server.reached_step hrid hm' hreached with ⟨m, hm, hbefore⟩ | hnow
    · obtain ⟨fs₁, f, fs₂, rfl, hreach⟩ := hold id m hm hbefore
      exact ⟨fs₁, f, fs₂ ++ [e], by rw [List.append_assoc, List.cons_append], hreach⟩
    · exact ⟨es, e, [], rfl, hnow⟩

/-- The evidence a connection is graduated on. -/
structure Ready (cfg : Config) (io : Io) (b : Bridge) (id : ConnId) (conn : Conn) (nodeId : NodeId) :
    Prop where
  get : b.server.connections.get id = some conn
  admitted : conn.admitted = true
  bound : b.Bound id nodeId
  kernel : gteVersion conn.effectiveVersion cfg.graduationMinKernel = true
  basis : (∃ m : Nat, Server.freshMeshBound cfg io conn = some m ∧ cfg.graduationSafeFloor ≤ m) ∨
    (Server.freshMeshBound cfg io conn = none ∧ cfg.graduationMinUptimeMs ≤ io.now - conn.since) ∨
    cfg.graduationMaxNurseryMs ≤ io.now - conn.since

theorem basis_of_isSome {o : GraduationSelect.Options} {c : GraduationSelect.Candidate}
    (h : (GraduationSelect.basisOf o c).isSome = true) :
    (∃ m : Nat, c.meshBound = some m ∧ o.safeFloor ≤ m) ∨
      (c.meshBound = none ∧ o.minUptimeMs ≤ o.now - c.since) ∨ o.maxNurseryMs ≤ o.now - c.since := by
  unfold GraduationSelect.basisOf at h
  cases hmesh : c.meshBound with
  | none =>
      rw [hmesh] at h
      split_ifs at h with hvitality hceiling huptime
      · cases hvitality
      · exact Or.inr (Or.inr hceiling)
      · exact Or.inr (Or.inl ⟨rfl, huptime.2⟩)
      · cases h
  | some m =>
      rw [hmesh] at h
      split_ifs at h with hvitality hceiling huptime
      · exact Or.inl ⟨m, rfl, of_decide_eq_true hvitality⟩
      · exact Or.inr (Or.inr hceiling)
      · exact absurd huptime.1 Bool.false_ne_true
      · cases h

/-- What is graduated is ready for it, neither in its cooldown nor held back. -/
theorem Graduates.ready {io : Io} {id : ConnId} (h : Graduates cfg b (io, .maybeGraduate) id) :
    ∃ conn nodeId, Ready cfg io b id conn nodeId ∧
      (b.server.describe cfg io (id, conn)).inCooldown = false ∧
      (cfg.graduationGateOn = true → b.server.heldBack cfg io (id, conn) = false) := by
  obtain ⟨-, pick, hpick, rfl⟩ := h.selection
  obtain ⟨c, hc, -, rfl⟩ := GraduationSelect.of_selectGraduate _ hpick
  obtain ⟨hmem, htest⟩ := List.mem_filter.mp hc
  obtain ⟨⟨id, conn⟩, he, rfl⟩ := List.mem_map.mp hmem
  rw [Bool.and_eq_true, Bool.and_eq_true, Bool.and_eq_true] at htest
  obtain ⟨⟨⟨hkernel, hregion⟩, hcool⟩, hbasis⟩ := htest
  rw [Bool.not_eq_true'] at hcool
  have hcandidate : (id, conn) ∈ b.server.graduationCandidates ∧
      (cfg.graduationGateOn = true → b.server.heldBack cfg io (id, conn) = false) := by
    unfold Server.gated at he
    split at he
    · obtain ⟨he, hheld⟩ := List.mem_filter.mp he
      exact ⟨he, fun _ => by simpa using hheld⟩
    · rename_i hgate
      exact ⟨he, fun h => absurd h hgate⟩
  obtain ⟨hentry, hadm⟩ := List.mem_filter.mp hcandidate.1
  obtain ⟨nodeId, hbound⟩ : ∃ nodeId, b.Bound id nodeId := by
    refine Option.isSome_iff_exists.mp ?_
    change (b.server.connRegion id).isSome = true at hregion
    unfold Server.connRegion Server.connNodeHex at hregion
    rw [Option.isSome_map, Option.isSome_map] at hregion
    exact hregion
  exact ⟨conn, nodeId, ⟨JsMap.mem_entries_iff.mp hentry, hadm, hbound, hkernel, basis_of_isSome hbasis⟩,
    hcool, hcandidate.2⟩

/-- Whatever the map remembers of an identity that is not in its cooldown is past it. -/
theorem cooled_of_not_inCooldown {io : Io} {id : ConnId} {conn : Conn} {nodeId : NodeId} {at' : Int}
    (hbound : b.Bound id nodeId) (hcool : (b.server.describe cfg io (id, conn)).inCooldown = false)
    (hget : b.server.record.graduatedRecently.get (idToHex nodeId) = some at') :
    cfg.graduationCooldownMs ≤ io.now - at' := by
  have hgot : b.server.graduatedRecently.get (idToHex nodeId) = some at' := hget
  unfold Server.describe at hcool
  dsimp only at hcool
  rw [hbound.hex, Option.bind_some, hgot, Option.any_some] at hcool
  exact not_lt.mp (of_decide_eq_false hcool)

/-- What the gate does not hold back was introduced outside its cohort or is past the ceiling. -/
theorem introduced_of_not_heldBack {io : Io} {id : ConnId} {conn : Conn}
    (h : b.server.heldBack cfg io (id, conn) = false) :
    conn.mark.reached = true ∨ (cfg.node.sb.isSome = true ∧ id ∈ b.server.node.doorChannelBound) ∨
      cfg.graduationMaxNurseryMs ≤ io.now - conn.since := by
  unfold Server.heldBack Server.introducedOutsideCohort at h
  rw [Bool.and_eq_false_iff, Bool.not_eq_false', Bool.or_eq_true, decide_eq_false_iff_not, not_lt] at h
  rcases h with (hreached | hdoor) | hceiling
  · exact Or.inl hreached
  · rw [Bool.and_eq_true, decide_eq_true_eq] at hdoor
    exact Or.inr (Or.inl hdoor)
  · exact Or.inr (Or.inr hceiling)

/-- **The discipline of graduation.** In a run whose clock never goes back, `maybeGraduate` closes a
connection no sooner than an interval after its last close, and no sooner than a cooldown after its
identity was last released; only one that is admitted, bound and ready; and, with the gate on, only one
whose introduction reached outside its cohort, whose channel to the bridge is bound, or that is past
the nursery ceiling. -/
theorem graduation_discipline (cfg : Config) (reportBound : Bool)
    (hes : (system cfg reportBound).Valid (init cfg reportBound) es) (hclock : System.Forward time es)
    {io : Io} {es₂ : List (Io × Event)} (hsplit : es = es₁ ++ (io, .maybeGraduate) :: es₂) {id : ConnId}
    (h : Graduates cfg ((system cfg reportBound).after (init cfg reportBound) es₁)
      (io, .maybeGraduate) id) :
    (∀ fs₁ e fs₂ id', es₁ = fs₁ ++ e :: fs₂ →
      Graduates cfg ((system cfg reportBound).after (init cfg reportBound) fs₁) e id' →
        cfg.graduationIntervalMs ≤ io.now - e.1.now) ∧
    ∃ conn nodeId,
      Ready cfg io ((system cfg reportBound).after (init cfg reportBound) es₁) id conn nodeId ∧
      (∀ fs₁ e fs₂ id', es₁ = fs₁ ++ e :: fs₂ →
        ((system cfg reportBound).after (init cfg reportBound) fs₁).Bound id' nodeId →
          Graduates cfg ((system cfg reportBound).after (init cfg reportBound) fs₁) e id' ∨
            Frees cfg ((system cfg reportBound).after (init cfg reportBound) fs₁) e id' →
              cfg.graduationCooldownMs ≤ io.now - e.1.now) ∧
      (cfg.graduationGateOn = true →
        (∃ fs₁ e fs₂, es₁ = fs₁ ++ e :: fs₂ ∧ Server.ReachesOutside cfg e.1
          ((system cfg reportBound).after (init cfg reportBound) fs₁).server e.2 id) ∨
        (cfg.node.sb.isSome = true ∧
          id ∈ ((system cfg reportBound).after (init cfg reportBound) es₁).server.node.doorChannelBound) ∨
        cfg.graduationMaxNurseryMs ≤ io.now - conn.since) := by
  -- between an earlier event and this one the clock goes from the one's time to the other's
  have hbetween : ∀ fs₁ e fs₂, es₁ = fs₁ ++ e :: fs₂ → System.Forward time fs₂ ∧
      (∀ f ∈ fs₂, e.1.now ≤ time f) ∧ (∀ f ∈ fs₂, time f ≤ io.now) ∧ e.1.now ≤ io.now := by
    intro fs₁ e fs₂ heq
    subst heq
    rw [hsplit] at hclock
    have hthis : (io, Event.maybeGraduate) ∈ (io, Event.maybeGraduate) :: es₂ := List.mem_cons_self
    obtain ⟨hfirst, hrest⟩ := List.pairwise_cons.mp hclock.left.right
    refine ⟨hrest, hfirst, fun f hf => ?_, ?_⟩
    · exact hclock.le (List.mem_append_right _ (List.mem_cons_of_mem _ hf)) hthis
    · exact hclock.le (List.mem_append_right _ List.mem_cons_self) hthis
  obtain ⟨hdue, pick, hpick, hpicked⟩ := h.selection
  obtain ⟨conn, nodeId, hready, hcool, hheld⟩ := h.ready
  have hafter : ∀ fs₁ e fs₂, es₁ = fs₁ ++ e :: fs₂ →
      (system cfg reportBound).after (init cfg reportBound) es₁ = (system cfg reportBound).after
        (((system cfg reportBound).after (init cfg reportBound) fs₁).step cfg e) fs₂ := by
    intro fs₁ e fs₂ heq
    rw [heq, System.after_append]
    rfl
  refine ⟨fun fs₁ e fs₂ id' heq hgraduates => ?_, conn, nodeId, hready,
    fun fs₁ e fs₂ id' heq hbound hreleased => ?_, fun hgate => ?_⟩
  · obtain ⟨hforward, hfrom, hto, hle⟩ := hbetween fs₁ e fs₂ heq
    have hlast := lastGraduationAt_after cfg reportBound hgraduates.lastGraduationAt.ge hforward hfrom
      hto hle
    rw [← hafter fs₁ e fs₂ heq] at hlast
    calc cfg.graduationIntervalMs
        ≤ io.now - ((system cfg reportBound).after (init cfg reportBound) es₁).server.lastGraduationAt :=
          hdue.interval
      _ ≤ io.now - e.1.now := Int.sub_le_sub_left hlast _
  · obtain ⟨hforward, hfrom, hto, hle⟩ := hbetween fs₁ e fs₂ heq
    have hcooling := cooling_after cfg reportBound (cooling_of_released hbound hreleased) hforward hfrom
      hto hle
    rw [← hafter fs₁ e fs₂ heq] at hcooling
    rcases hcooling with hpast | ⟨at', hget, hat⟩
    · exact le_of_lt hpast
    · calc cfg.graduationCooldownMs
          ≤ io.now - at' := cooled_of_not_inCooldown hready.bound hcool hget
        _ ≤ io.now - e.1.now := Int.sub_le_sub_left hat _
  · rcases introduced_of_not_heldBack (hheld hgate) with hreached | hrest
    · have hvalid : (system cfg reportBound).Valid (init cfg reportBound) es₁ :=
        (System.along_append.mp (hsplit ▸ hes)).1
      refine Or.inl (reachesOutside_of_reached hvalid id conn.mark ?_ hreached)
      rw [Server.marks_record, hready.get]
      rfl
    · exact Or.inr hrest

end Run

theorem graduates_first : Graduates tight ((system tight false).after (init tight false) twoBound)
    ({ now := 40000 }, .maybeGraduate) (js "c1") := by
  refine ⟨rfl, Server.added_maybeGraduate_iff.mpr ⟨⟨rfl, by decide +kernel, by decide +kernel⟩, ?_⟩⟩
  exact Option.map_eq_some_iff.mp (by decide +kernel)

theorem graduates_second : Graduates tight ((system tight false).after (init tight false) oneGraduates)
    ({ now := 44000 }, .maybeGraduate) (js "c2") := by
  refine ⟨rfl, Server.added_maybeGraduate_iff.mpr ⟨⟨rfl, by decide +kernel, by decide +kernel⟩, ?_⟩⟩
  exact Option.map_eq_some_iff.mp (by decide +kernel)

theorem graduation_discipline_bothGraduate :
    tight.graduationIntervalMs ≤ 44000 - 40000 ∧ ∃ conn nodeId, Ready tight { now := 44000 }
      ((system tight false).after (init tight false) oneGraduates) (js "c2") conn nodeId := by
  have hclock : System.Forward time bothGraduate := by
    unfold System.Forward
    decide +kernel
  have hsplit : bothGraduate = oneGraduates ++ ({ now := 44000 }, .maybeGraduate) :: [] := rfl
  obtain ⟨hinterval, conn, nodeId, hready, -⟩ :=
    graduation_discipline tight false valid_bothGraduate hclock hsplit graduates_second
  exact ⟨hinterval twoBound ({ now := 40000 }, .maybeGraduate) [] (js "c1") rfl graduates_first, conn,
    nodeId, hready⟩

end Bridge

end AxonaBridge
