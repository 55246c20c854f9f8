import AxonaBridge.BridgeDirectorySource
import AxonaBridge.BridgeMarks
import AxonaBridge.ServerKeeps

/-!
# How often a connection is released

Rule 4, `maybeGraduate` and the unbound kick call close and count; the connection stays in the table
until its close event, and nothing marks it as released. Each releases it once in every run in which none
of them finds it again before that.
-/

open JsText

namespace AxonaBridge

namespace GraduatedRegistry

variable {r : GraduatedRegistry} {hex nh : JsString} {now t : Int}

theorem get_of_sublist {m m' : JsMap JsString Int} (h : m'.entries.Sublist m.entries)
    (hget : m'.get nh = some t) : m.get nh = some t :=
  JsMap.mem_entries_iff.mp (h.subset (JsMap.mem_entries_iff.mpr hget))

/-- What the registry has after a note it had before, or it is the note. -/
theorem get_of_get_note (h : (r.note hex now).map.get nh = some t) :
    r.map.get nh = some t ∨ (hex = nh ∧ t = now) := by
  unfold note at h
  split at h
  · have hset := get_of_sublist (List.drop_sublist _ _) h
    rw [JsMap.get_set] at hset
    split at hset
    · rename_i heq
      exact Or.inr ⟨heq.symm, (Option.some.inj hset).symm⟩
    · rename_i hne
      rw [JsMap.get_delete_of_ne _ hne] at hset
      exact Or.inl hset
  · exact Or.inl h

theorem get_of_get_sample {count : Nat} {exclude : Option JsString} {draws : List Nat}
    (h : (r.sample count exclude now draws).2.map.get nh = some t) : r.map.get nh = some t := by
  unfold sample at h
  split at h
  · exact h
  · exact get_of_sublist (List.dropWhile_sublist _) h

end GraduatedRegistry

namespace Server

variable {cfg : Config} {io : Io} {s t u : Server} {grads kicks frees : Nat} {P : JsString → Int → Prop}

/-- When an identity was registered as graduated. -/
def Noted (s : Server) (nh : JsString) (at' : Int) : Prop :=
  ∃ r, s.registry = some r ∧ r.map.get nh = some at'

/-- The counts of releases rise by so much, and the registry takes note of nothing but `P`. -/
structure Tally (grads kicks frees : Nat) (P : JsString → Int → Prop) (s t : Server) : Prop where
  graduated : t.graduatedTotal = s.graduatedTotal + grads
  kicked : t.unboundKicked = s.unboundKicked + kicks
  freed : t.bootstrapSocketsClosed = s.bootstrapSocketsClosed + frees
  noted : ∀ nh at', t.Noted nh at' → s.Noted nh at' ∨ P nh at'

/-- Nothing is released. -/
abbrev Quiet : Server → Server → Prop := Tally 0 0 0 fun _ _ => False

namespace Tally

theorem add {grads' kicks' frees' : Nat} (h : Tally grads kicks frees P s t)
    (h' : Tally grads' kicks' frees' P t u) :
    Tally (grads + grads') (kicks + kicks') (frees + frees') P s u where
  graduated := by rw [h'.graduated, h.graduated, Nat.add_assoc]
  kicked := by rw [h'.kicked, h.kicked, Nat.add_assoc]
  freed := by rw [h'.freed, h.freed, Nat.add_assoc]
  noted nh at' hnoted := (h'.noted nh at' hnoted).elim (h.noted nh at') Or.inr

theorem mono {Q : JsString → Int → Prop} (h : Tally grads kicks frees P s t)
    (hPQ : ∀ nh at', P nh at' → Q nh at') : Tally grads kicks frees Q s t :=
  { h with noted := fun nh at' hnoted => (h.noted nh at' hnoted).imp_right (hPQ nh at') }

theorem before (h : Quiet s t) (h' : Tally grads kicks frees P t u) : Tally grads kicks frees P s u := by
  have hsum := (h.mono fun _ _ => False.elim).add h'
  rwa [Nat.zero_add, Nat.zero_add, Nat.zero_add] at hsum

theorem «then» (h : Tally grads kicks frees P s t) (h' : Quiet t u) : Tally grads kicks frees P s u :=
  h.add (h'.mono fun _ _ => False.elim)

end Tally

theorem quiet_of_eq (hg : t.graduatedTotal = s.graduatedTotal) (hk : t.unboundKicked = s.unboundKicked)
    (hf : t.bootstrapSocketsClosed = s.bootstrapSocketsClosed) (hr : t.registry = s.registry) :
    Quiet s t where
  graduated := hg
  kicked := hk
  freed := hf
  noted nh at' hnoted := by
    unfold Noted at hnoted
    rw [hr] at hnoted
    exact Or.inl hnoted

/-- Nothing besides a release is counted as one. -/
theorem overlooks_quiet : Overlooks cfg Quiet fun _ _ _ => True where
  refl s := quiet_of_eq rfl rfl rfl rfl
  trans := Tally.before
  aside {s t} h := by
    rw [h]
    exact quiet_of_eq rfl rfl rfl rfl
  sample s io id := by
    unfold graduatedSample
    split
    · rename_i registry sample hregistry _
      refine ⟨rfl, rfl, rfl, fun nh at' => ?_⟩
      rintro ⟨r, hr, hget⟩
      cases hr
      exact Or.inl ⟨registry, hregistry, GraduatedRegistry.get_of_get_sample hget⟩
    · exact quiet_of_eq rfl rfl rfl rfl
  touch s id f _ := quiet_of_eq rfl rfl rfl rfl
  conn _ _ _ _ := trivial
  hello _ _ _ _ := trivial
  admission _ _ _ := trivial

theorem noted_noteGraduated {nh' : Option JsString} {nh : JsString} {at' : Int}
    (h : (s.noteGraduated io nh').Noted nh at') : s.Noted nh at' ∨ (nh' = some nh ∧ at' = io.now) := by
  cases nh' with
  | none => exact Or.inl h
  | some nh' =>
      obtain ⟨r', hr', hget⟩ := h
      obtain ⟨r, hr, rfl⟩ := Option.map_eq_some_iff.mp (show s.registry.map _ = some r' from hr')
      rcases GraduatedRegistry.get_of_get_note hget with hold | ⟨rfl, rfl⟩
      · exact Or.inl ⟨r, hr, hold⟩
      · exact Or.inr ⟨rfl, rfl⟩

/-- A note alone counts nothing. -/
theorem tally_noteGraduated (nh' : Option JsString) :
    Tally 0 0 0 (fun nh at' => nh' = some nh ∧ at' = io.now) s (s.noteGraduated io nh') := by
  refine ⟨?_, ?_, ?_, fun nh at' hnoted => noted_noteGraduated hnoted⟩
  · cases nh' <;> rfl
  · cases nh' <;> rfl
  · cases nh' <;> rfl

theorem tally_releaseSocket (id : ConnId) (c : Conn) :
    Tally 0 0 1 (fun nh at' => s.connNodeHex id = some nh ∧ at' = io.now) s
      (s.releaseSocket cfg io id c) := by
  have hq := @overlooks_quiet cfg
  have hcount : ∀ t : Server, Tally 0 0 1 (fun nh at' => t.connNodeHex id = some nh ∧ at' = io.now) t
      { t.noteGraduated io (t.connNodeHex id) with
        bootstrapSocketsClosed := (t.noteGraduated io (t.connNodeHex id)).bootstrapSocketsClosed + 1 } := by
    intro t
    obtain ⟨hg, hk, hf, hnoted⟩ := @tally_noteGraduated io t (t.connNodeHex id)
    exact ⟨hg, hk, congrArg (· + 1) hf, hnoted⟩
  have hclosed := (@Overlooks.wsClose cfg io _ _ hq s id graduated
    (js "bootstrap complete — your channel to this bridge is bound; freeing the socket")).before (hcount _)
  unfold releaseSocket
  dsimp only
  exact hclosed.then (hq.trans (hq.logDebug _ _ _) (hq.logInfo _ _ _))

theorem tally_graduate (pick : GraduationSelect.Pick) (c : Conn) (admitted : Nat) :
    Tally 1 0 0 (fun nh at' => s.connNodeHex pick.id = some nh ∧ at' = io.now) s
      (s.graduate cfg io pick c admitted) := by
  have hq := @overlooks_quiet cfg
  have hcount : ∀ t : Server, Tally 1 0 0 (fun nh at' => t.connNodeHex pick.id = some nh ∧ at' = io.now) t
      { t.noteGraduated io (t.connNodeHex pick.id) with
        lastGraduationAt := io.now
        graduatedTotal := (t.noteGraduated io (t.connNodeHex pick.id)).graduatedTotal + 1 } := by
    intro t
    obtain ⟨hg, hk, hf, hnoted⟩ := @tally_noteGraduated io t (t.connNodeHex pick.id)
    exact ⟨congrArg (· + 1) hg, hk, hf, hnoted⟩
  have hcohort : ∀ t : Server, Quiet t (t.noteCohortOnly cfg io pick c) := by
    intro t
    unfold noteCohortOnly
    split
    · exact hq.trans (hq.aside rfl : Quiet t { t with cohortOnlyGraduated := t.cohortOnlyGraduated + 1 })
        (hq.logInfo _ _ _)
    · exact hq.refl t
  have hpruned : ∀ t : Server, Quiet t (t.pruneCooldowns cfg io) := fun t => quiet_of_eq rfl rfl rfl rfl
  have hclosed := (@Overlooks.wsClose cfg io _ _ hq s pick.id graduated
    (js "graduated — you are meshed; freeing the bridge slot")).before (hcount _)
  unfold graduate
  dsimp only
  exact hclosed.then (hq.trans (hq.logInfo _ _ _) (hq.trans (hcohort _) (hpruned _)))

theorem tally_kickUnbound (e : ConnId × Conn) :
    Tally 0 1 0 (fun _ _ => False) s (s.kickUnbound cfg io e) := by
  have hq := @overlooks_quiet cfg
  have hcount : Tally 0 1 0 (fun _ _ => False) s { s with unboundKicked := s.unboundKicked + 1 } :=
    ⟨rfl, rfl, rfl, fun _ _ => Or.inl⟩
  unfold kickUnbound
  dsimp only
  split
  · exact hcount.then (hq.trans (hq.logInfo _ _ _) (hq.trans (hq.wsClose _ _ _ _) (hq.logErr _ _ _)))
  · exact hcount.then (hq.trans (hq.logInfo _ _ _) (hq.wsClose _ _ _ _))

theorem tally_kickAll (unbound : List (ConnId × Conn)) (s : Server) :
    Tally 0 unbound.length 0 (fun _ _ => False) s
      (unbound.foldl (fun s e => s.kickUnbound cfg io e) s) := by
  induction unbound generalizing s with
  | nil => exact (@overlooks_quiet cfg).refl s
  | cons e unbound ih =>
      rw [List.foldl_cons, List.length_cons, Nat.add_comm]
      exact (tally_kickUnbound e).add (ih (s.kickUnbound cfg io e))

/-- The sweep does not take a stall for silence. -/
def SweepDue (cfg : Config) (io : Io) (s : Server) : Prop :=
  (s.stallTaintedSince (io.now - cfg.idleTimeoutMs) || s.stallPending io) = false

instance : Decidable (SweepDue cfg io s) := inferInstanceAs (Decidable (_ = false))

/-- The connections a sweep finds without an identity. -/
def foundUnbound (cfg : Config) (io : Io) (s : Server) : List (ConnId × Conn) :=
  if SweepDue cfg io s then
    s.connections.entries.filter fun e => !isIdle cfg io e && s.isUnbound cfg io e
  else []

theorem nodup_foundUnbound : ((s.foundUnbound cfg io).map Prod.fst).Nodup := by
  unfold foundUnbound
  split
  · exact s.connections.nodup.sublist (List.filter_sublist.map _)
  · exact List.nodup_nil

theorem tally_sweep : Tally 0 (s.foundUnbound cfg io).length 0 (fun _ _ => False) s
    (s.sweepIdleConnections cfg io) := by
  have hq := @overlooks_quiet cfg
  unfold sweepIdleConnections foundUnbound
  by_cases hdue : SweepDue cfg io s
  · rw [if_pos hdue, if_neg (by rw [hdue]; exact Bool.false_ne_true)]
    dsimp only
    exact (tally_kickAll _ s).then (hq.foldl (fun s e => s.kickIdle cfg io e) _
      (fun e _ t => hq.kickIdle t e) _)
  · rw [if_neg hdue, if_pos (Bool.not_eq_false _ ▸ hdue)]
    exact hq.logInfo s _ _

/-! ### The closes of a sweep -/

/-- The closes called from `s` to `t` are those of the connections of `C`. -/
def Shuts (C : ConnId → Prop) (s t : Server) : Prop :=
  ∃ added, t.out = s.out ++ added ∧ ∀ id, (∃ o ∈ added, o.isCloseOf id = true) ↔ C id

namespace Shuts

variable {C D : ConnId → Prop}

theorem refl : Shuts (fun _ => False) s s := ⟨[], by simp, by simp⟩

theorem of_append (o : Out) (ho : ∀ id, o.isCloseOf id = true ↔ C id) (hout : t.out = s.out ++ [o]) :
    Shuts C s t := ⟨[o], hout, by simpa using ho⟩

theorem trans (h : Shuts C s t) (h' : Shuts D t u) : Shuts (fun id => C id ∨ D id) s u := by
  obtain ⟨a, ha, hC⟩ := h
  obtain ⟨b, hb, hD⟩ := h'
  refine ⟨a ++ b, by rw [hb, ha, List.append_assoc], fun id => ?_⟩
  dsimp only
  rw [← hC, ← hD]
  simp only [List.mem_append, or_and_right, exists_or]

theorem congr (h : Shuts C s t) (hCD : ∀ id, C id ↔ D id) : Shuts D s t := by
  obtain ⟨added, hout, hC⟩ := h
  exact ⟨added, hout, fun id => (hC id).trans (hCD id)⟩

theorem after (h : Shuts C s t) (h' : Shuts (fun _ => False) t u) : Shuts C s u :=
  (h.trans h').congr fun _ => by simp

theorem before (h : Shuts (fun _ => False) s t) (h' : Shuts C t u) : Shuts C s u :=
  (h.trans h').congr fun _ => by simp

theorem added_iff (h : Shuts C s t) {id : ConnId} :
    (∃ code reason threw, Added s t (.close id code reason threw)) ↔ C id := by
  obtain ⟨added, hout, hC⟩ := h
  rw [← hC]
  constructor
  · rintro ⟨code, reason, threw, added', hout', hmem⟩
    rw [List.append_cancel_left (hout'.symm.trans hout)] at hmem
    exact ⟨_, hmem, decide_eq_true rfl⟩
  · rintro ⟨o, hmem, hclose⟩
    cases o with
    | close closed code reason threw =>
        obtain rfl := of_decide_eq_true hclose
        exact ⟨code, reason, threw, added, hout, hmem⟩
    | _ => cases hclose

end Shuts

theorem shuts_log (row : LogRow) : Shuts (fun _ => False) s (s.log cfg row) := by
  unfold log
  split
  · exact Shuts.refl
  · exact Shuts.of_append (.log row) (fun _ => iff_of_false Bool.false_ne_true id) rfl

theorem shuts_wsClose (connId : ConnId) (code : Nat) (reason : JsString) :
    Shuts (fun id => connId = id) s (s.wsClose io connId code reason) :=
  Shuts.of_append (.close connId code reason (closeThrows io connId reason))
    (fun _ => decide_eq_true_iff) rfl

theorem shuts_kickUnbound (e : ConnId × Conn) :
    Shuts (fun id => e.1 = id) s (s.kickUnbound cfg io e) := by
  have hcounted : ∀ row, Shuts (fun _ => False) s
      ({ s with unboundKicked := s.unboundKicked + 1 }.log cfg row) := fun row =>
    Shuts.trans (t := { s with unboundKicked := s.unboundKicked + 1 }) ⟨[], by simp, by simp⟩
      (shuts_log row) |>.congr fun _ => or_self_iff
  unfold kickUnbound
  dsimp only
  split
  · exact ((hcounted _).before (shuts_wsClose _ _ _)).after (shuts_log _)
  · exact (hcounted _).before (shuts_wsClose _ _ _)

theorem shuts_kickIdle (e : ConnId × Conn) : Shuts (fun _ => False) s (s.kickIdle cfg io e) := by
  have hterminated : ∀ t : Server, Shuts (fun _ => False) t { t with out := t.out ++ [.terminate e.1] } :=
    fun t => Shuts.of_append (.terminate e.1) (fun _ => iff_of_false Bool.false_ne_true id) rfl
  unfold kickIdle
  dsimp only
  exact (shuts_log _).after (hterminated _)

theorem shuts_foldl (f : Server → ConnId × Conn → Server) (C : ConnId × Conn → ConnId → Prop)
    (hf : ∀ s e, Shuts (C e) s (f s e)) (entries : List (ConnId × Conn)) (s : Server) :
    Shuts (fun id => ∃ e ∈ entries, C e id) s (entries.foldl f s) := by
  induction entries generalizing s with
  | nil => exact Shuts.refl.congr fun _ => by simp
  | cons e entries ih =>
      rw [List.foldl_cons]
      exact ((hf s e).trans (ih (f s e))).congr fun _ => by simp

theorem shuts_sweep : Shuts (fun id => id ∈ (s.foundUnbound cfg io).map Prod.fst) s
    (s.sweepIdleConnections cfg io) := by
  unfold sweepIdleConnections foundUnbound
  by_cases hdue : SweepDue cfg io s
  · rw [if_pos hdue, if_neg (by rw [hdue]; exact Bool.false_ne_true)]
    dsimp only
    refine ((shuts_foldl _ _ (fun s e => shuts_kickUnbound e) _ s).trans
      (shuts_foldl _ _ (fun s e => shuts_kickIdle e) _ _)).congr fun id => ?_
    simp
  · rw [if_neg hdue, if_pos (Bool.not_eq_false _ ▸ hdue)]
    exact (shuts_log _).congr fun _ => by simp

/-! ### What a connection was released on -/

/-- An admitted connection stays so, under the versions it was admitted with. -/
def KeepsVersion (id : ConnId) (s t : Server) : Prop :=
  ∀ c, s.connections.get id = some c → c.admitted = true →
    ∃ c', t.connections.get id = some c' ∧ c'.admitted = true ∧ c'.effectiveVersion = c.effectiveVersion

theorem looks_keepsVersion : Looks fun o o' => ∀ c, o = some c → c.admitted = true →
    ∃ c', o' = some c' ∧ c'.admitted = true ∧ c'.effectiveVersion = c.effectiveVersion where
  refl o c hc hadm := ⟨c, hc, hadm, rfl⟩
  trans h h' c hc hadm := by
    obtain ⟨c', hc', hadm', hversion⟩ := h c hc hadm
    obtain ⟨c'', hc'', hadm'', hversion'⟩ := h' c' hc' hadm'
    exact ⟨c'', hc'', hadm'', hversion'.trans hversion⟩
  aside {c c'} h d hd hadm := by
    cases hd
    rw [h]
    exact ⟨_, rfl, hadm, rfl⟩
  hello c msg hnot d hd hadm := by
    cases hd
    exact absurd hadm (by rw [hnot]; exact Bool.false_ne_true)
  admission c hnot d hd hadm := by
    cases hd
    exact absurd hadm (by rw [hnot]; exact Bool.false_ne_true)

theorem meter_keepsVersion (conn : Conn) : (meter cfg io conn).2.admitted = conn.admitted ∧
    (meter cfg io conn).2.effectiveVersion = conn.effectiveVersion := by
  have hopen : (openWindow cfg io conn).admitted = conn.admitted ∧
      (openWindow cfg io conn).effectiveVersion = conn.effectiveVersion := by
    unfold openWindow
    split <;> exact ⟨rfl, rfl⟩
  unfold meter
  dsimp only
  split <;> exact hopen

theorem keepsVersion_step {id : ConnId} {e : Event} (hfresh : e ≠ .connect id)
    (hopen : ∀ code reason, e ≠ .closed id code reason) : KeepsVersion id s (s.step cfg io e) := by
  refine looks_keepsVersion.step hfresh
    (fun conn _ _ _ c hc hadm => by cases hc; exact ⟨_, rfl, hadm, rfl⟩)
    (fun code reason hclosed => absurd hclosed (hopen code reason)) fun conn json dest _ _ _ _ c hc hadm => ?_
  cases hc
  obtain ⟨hadm', hversion⟩ := @meter_keepsVersion cfg io { conn with lastSeenAt := io.now }
  exact ⟨_, rfl, hadm'.trans hadm, hversion⟩

end Server

namespace Bridge

variable {cfg : Config} {b : Bridge} {e : Io × Event} {id : ConnId}

/-- The sweep closes a connection. -/
def Kicks (cfg : Config) (b : Bridge) (e : Io × Event) (id : ConnId) : Prop :=
  e.2 = .sweep ∧ ∃ code reason threw,
    Server.Added b.server (b.step cfg e).server (.close id code reason threw)

theorem kicks_iff :
    Kicks cfg b e id ↔ e.2 = .sweep ∧ id ∈ (b.server.foundUnbound cfg e.1).map Prod.fst := by
  refine and_congr_right fun hevent => ?_
  rw [server_step_of_event hevent]
  exact Server.shuts_sweep.added_iff

/-- What a step counts is what it releases. -/
structure Counts (cfg : Config) (b : Bridge) (e : Io × Event) (grads kicks frees : List ConnId) : Prop where
  nodup : grads.Nodup ∧ kicks.Nodup ∧ frees.Nodup
  mem_grads : ∀ id, id ∈ grads ↔ Graduates cfg b e id
  mem_kicks : ∀ id, id ∈ kicks ↔ Kicks cfg b e id
  mem_frees : ∀ id, id ∈ frees ↔ Frees cfg b e id
  tally : Server.Tally grads.length kicks.length frees.length
    (fun nh at' => ReleasesPeer cfg nh b e ∧ at' = e.1.now) b.server (b.step cfg e).server

theorem counts_of_graduates (h : Graduates cfg b e id) : Counts cfg b e [id] [] [] where
  nodup := ⟨List.nodup_singleton id, List.nodup_nil, List.nodup_nil⟩
  mem_grads id' := by
    rw [List.mem_singleton]
    constructor
    · rintro rfl
      exact h
    · exact fun h' => released_unique (Or.inl h') (Or.inl h)
  mem_kicks id' := by
    refine iff_of_false List.not_mem_nil fun h' => ?_
    cases h.1.symm.trans h'.1
  mem_frees id' := by
    refine iff_of_false List.not_mem_nil ?_
    rintro ⟨json, hevent, -⟩
    cases h.1.symm.trans hevent
  tally := by
    obtain ⟨hdue, pick, hpick, rfl⟩ := h.selection
    rw [server_step_of_event h.1]
    change Server.Tally 1 0 0 _ b.server (b.server.maybeGraduate cfg e.1)
    rcases Server.maybeGraduate_cases cfg e.1 b.server with
      ⟨pick', c, held, -, hpick', -, heq⟩ | ⟨hnone, -⟩
    · cases hpick.symm.trans hpick'
      have hheld : Server.Quiet b.server { b.server with gateHeldTotal := held } :=
        Server.quiet_of_eq rfl rfl rfl rfl
      rw [heq]
      refine (hheld.before (Server.tally_graduate pick c _)).mono fun nh at' hnoted => ?_
      exact ⟨⟨pick.id, Or.inl h, hnoted.1⟩, hnoted.2⟩
    · cases hpick.symm.trans (hnone hdue)

theorem counts_of_frees (h : Frees cfg b e id) : Counts cfg b e [] [] [id] where
  nodup := ⟨List.nodup_nil, List.nodup_nil, List.nodup_singleton id⟩
  mem_grads id' := by
    obtain ⟨json, hevent, -⟩ := h
    refine iff_of_false List.not_mem_nil fun h' => ?_
    cases hevent.symm.trans h'.1
  mem_kicks id' := by
    obtain ⟨json, hevent, -⟩ := h
    refine iff_of_false List.not_mem_nil fun h' => ?_
    cases hevent.symm.trans h'.1
  mem_frees id' := by
    rw [List.mem_singleton]
    constructor
    · rintro rfl
      exact h
    · exact fun h' => released_unique (Or.inr h') (Or.inr h)
  tally := by
    obtain ⟨json, hevent, hreleases⟩ := frees_iff.mp h
    obtain ⟨t, c, hquiet, hnode, heq⟩ :=
      (@Server.overlooks_quiet cfg).onMessage_of_releases hreleases fun _ => trivial
    have hhex : t.connNodeHex id = b.server.connNodeHex id := by
      rw [Server.connNodeHex, Server.connNodeHex, hnode]
    rw [server_step_of_event hevent]
    change Server.Tally 0 0 1 _ b.server (b.server.onMessage cfg e.1 id (.text (.ok json))).1
    rw [heq]
    refine (hquiet.before (Server.tally_releaseSocket id c)).mono fun nh at' hnoted => ?_
    exact ⟨⟨id, Or.inr h, hhex ▸ hnoted.1⟩, hnoted.2⟩

theorem counts_of_sweep (h : e.2 = .sweep) :
    Counts cfg b e [] ((b.server.foundUnbound cfg e.1).map Prod.fst) [] where
  nodup := ⟨List.nodup_nil, Server.nodup_foundUnbound, List.nodup_nil⟩
  mem_grads id' := by
    refine iff_of_false List.not_mem_nil fun h' => ?_
    cases h.symm.trans h'.1
  mem_kicks id' := by rw [kicks_iff, and_iff_right h]
  mem_frees id' := by
    refine iff_of_false List.not_mem_nil ?_
    rintro ⟨json, hevent, -⟩
    cases h.symm.trans hevent
  tally := by
    rw [server_step_of_event h, List.length_map]
    exact Server.tally_sweep.mono fun _ _ => False.elim

theorem counts_of_quiet (hg : ∀ id, ¬Graduates cfg b e id) (hf : ∀ id, ¬Frees cfg b e id)
    (hs : e.2 ≠ .sweep) : Counts cfg b e [] [] [] where
  nodup := ⟨List.nodup_nil, List.nodup_nil, List.nodup_nil⟩
  mem_grads id' := iff_of_false List.not_mem_nil (hg id')
  mem_kicks id' := iff_of_false List.not_mem_nil fun h => hs h.1
  mem_frees id' := iff_of_false List.not_mem_nil (hf id')
  tally := by
    obtain ⟨io, event⟩ := e
    have hconnections : ∀ m, Server.Quiet b.server { b.server with connections := m } := fun m =>
      Server.quiet_of_eq rfl rfl rfl rfl
    have hquiet : Server.Quiet b.server (b.server.step cfg io event) := by
      refine (@Server.overlooks_quiet cfg).step ?_
      cases event with
      | connect id =>
          intro conn
          exact hconnections (b.server.connections.set id conn)
      | closed id code reason => exact hconnections (b.server.connections.delete id)
      | message id data =>
          refine ⟨fun _ _ => trivial, fun _ _ _ _ _ _ _ => trivial, fun json hdata hreleases => ?_⟩
          have hfrees : Frees cfg b (io, .message id data) id :=
            frees_iff.mpr ⟨json, by rw [hdata], hreleases⟩
          exact absurd hfrees (hf id)
      | sweep => exact absurd rfl hs
      | maybeGraduate =>
          intro pick hdue hpick
          have hgraduates : Graduates cfg b (io, .maybeGraduate) pick.id :=
            graduates_iff.mpr ⟨rfl, hdue, pick, hpick, rfl⟩
          exact absurd hgraduates (hg pick.id)
      | _ => trivial
    exact hquiet.mono fun _ _ => False.elim

theorem exists_counts (cfg : Config) (b : Bridge) (e : Io × Event) :
    ∃ grads kicks frees, Counts cfg b e grads kicks frees := by
  by_cases hg : ∃ id, Graduates cfg b e id
  · obtain ⟨id, hg⟩ := hg
    exact ⟨_, _, _, counts_of_graduates hg⟩
  · by_cases hf : ∃ id, Frees cfg b e id
    · obtain ⟨id, hf⟩ := hf
      exact ⟨_, _, _, counts_of_frees hf⟩
    · by_cases hs : e.2 = .sweep
      · exact ⟨_, _, _, counts_of_sweep hs⟩
      · exact ⟨_, _, _, counts_of_quiet (not_exists.mp hg) (not_exists.mp hf) hs⟩

/-- `maybeGraduate` or rule 4 releases a connection. -/
def ReleasesConn (cfg : Config) (id : ConnId) (b : Bridge) (e : Io × Event) : Prop :=
  Graduates cfg b e id ∨ Frees cfg b e id

theorem ReleasesConn.conn (h : ReleasesConn cfg id b e) : ∃ c, b.server.connections.get id = some c ∧
    c.admitted = true ∧ gteVersion c.effectiveVersion cfg.graduationMinKernel = true := by
  rcases h with hgraduates | hfrees
  · obtain ⟨io, event⟩ := e
    obtain rfl : event = .maybeGraduate := hgraduates.1
    obtain ⟨c, nodeId, hready, -⟩ := hgraduates.ready
    exact ⟨c, hready.get, hready.admitted, hready.kernel⟩
  · obtain ⟨json, -, c, m, hreceives, -, -, -, -, -, hversion⟩ := frees_iff.mp hfrees
    exact ⟨c, hreceives.get, hreceives.admitted, hversion⟩

/-- The connection was admitted once, and if it is still there its version is good enough for a release. -/
structure Releasable (cfg : Config) (id : ConnId) (b : Bridge) : Prop where
  ever : id ∈ b.everAdmitted
  version : ∀ c, b.server.connections.get id = some c →
    gteVersion c.effectiveVersion cfg.graduationMinKernel = true

theorem Releasable.admitted (h : Releasable cfg id b) (hb : b.Tracked) {c : Conn}
    (hget : b.server.connections.get id = some c) : c.admitted = true := by
  have hkept := hb.kept id h.ever
  rw [Server.admission, hget, Option.map_some] at hkept
  cases hadm : c.admitted with
  | true => rfl
  | false => exact absurd (congrArg some hadm) hkept

theorem ReleasesConn.releasable (h : ReleasesConn cfg id b e) (hb : b.Tracked) : Releasable cfg id b := by
  obtain ⟨c, hget, hadm, hversion⟩ := h.conn
  refine ⟨hb.admitted id ⟨c, hget, hadm⟩, fun c' hc' => ?_⟩
  rw [hget] at hc'
  cases hc'
  exact hversion

theorem Releasable.step (h : Releasable cfg id b) (hb : b.Tracked) (he : b.Enabled cfg e) :
    Releasable cfg id (b.step cfg e) := by
  refine ⟨mem_everAdmitted_step.mpr (Or.inl h.ever), fun c' hc' => ?_⟩
  have hfresh := ne_connect_of_minted he (hb.minted id (Or.inl h.ever))
  have hthere : (b.server.step cfg e.1 e.2).admission id = some c'.admitted := by
    rw [Server.admission]
    exact congrArg (Option.map Conn.admitted) hc'
  have hopen : ∀ code reason, e.2 ≠ .closed id code reason := by
    intro code reason hclosed
    rw [hclosed] at hthere
    have hgone := @Server.admission_onClose cfg e.1 b.server id code reason id
    rw [if_pos rfl] at hgone
    cases hgone.symm.trans hthere
  obtain ⟨c, hget⟩ : ∃ c, b.server.connections.get id = some c := by
    have hsome : (b.server.admission id).isSome = true := by
      rcases @Server.admission_step cfg e.1 b.server e.2 id with
        ⟨hconnect, -⟩ | ⟨code, reason, hclosed, -⟩ | ⟨data, -, hadmits, -⟩ | hsame
      · exact absurd hconnect hfresh
      · exact absurd hclosed (hopen code reason)
      · rw [hadmits.1]
        rfl
      · rw [← hsame, hthere]
        rfl
    rw [Server.admission, Option.isSome_map] at hsome
    exact Option.isSome_iff_exists.mp hsome
  obtain ⟨c'', hc'', -, hversion⟩ :=
    @Server.keepsVersion_step cfg e.1 b.server id e.2 hfresh hopen c hget (h.admitted hb hget)
  cases hc''.symm.trans hc'
  rw [hversion]
  exact h.version c hget

/-- A ping reports a mesh at or above the floor on a connection whose channel is marked as bound. -/
structure Reports (cfg : Config) (b : Bridge) (e : Io × Event) (id : ConnId) : Prop where
  on : cfg.node.sb.isSome = true
  marked : id ∈ b.server.node.doorChannelBound
  fresh : 0 < cfg.graduationVitalityTtlMs
  ping : ∃ json m, e.2 = .message id (.text (.ok json)) ∧
    JsVal.asString (json.revive.field (js "type")) = some (js "ping") ∧
      Server.reportedMeshBound json.revive = some m ∧ cfg.graduationSafeFloor ≤ (m : Int)

/-- Of the tests of rule 4 the report and the mark alone are left to be met again. -/
theorem frees_iff_reports (h : Releasable cfg id b) (hb : b.Tracked) (he : b.Enabled cfg e) :
    Frees cfg b e id ↔ Reports cfg b e id := by
  have hfresh : ∀ (c : Conn) (m : Nat), (Server.freshMeshBound cfg e.1
      { c with meshBound := some m, meshBoundAt := e.1.now }).any
        (fun m => decide (cfg.graduationSafeFloor ≤ (m : Int))) = true ↔
          0 < cfg.graduationVitalityTtlMs ∧ cfg.graduationSafeFloor ≤ (m : Int) := by
    intro c m
    unfold Server.freshMeshBound
    dsimp only
    rw [Int.sub_self]
    split
    · rename_i httl
      simp [httl]
    · rename_i httl
      simp [httl]
  rw [frees_iff]
  constructor
  · rintro ⟨json, hevent, c, m, hreceives, hm, hon, -, hmarked, hreport, -⟩
    obtain ⟨httl, hfloor⟩ := (hfresh c m).mp hreport
    exact ⟨hon, hmarked, httl, json, m, hevent, hreceives.type, hm, hfloor⟩
  · rintro ⟨hon, hmarked, httl, json, m, hevent, htype, hm, hfloor⟩
    have hhas : b.server.connections.has id = true := he.of_event hevent
    obtain ⟨c, hget⟩ := Option.isSome_iff_exists.mp hhas
    have hadm := h.admitted hb hget
    exact ⟨json, hevent, c, m, ⟨hget, hadm, htype⟩, hm, hon, hadm, hmarked,
      (hfresh c m).mpr ⟨httl, hfloor⟩, h.version c hget⟩

/-! ### Runs -/

section Run

variable {reportBound : Bool} {es es₁ : List (Io × Event)} {nh : JsString} {at' : Int}

theorem releasable_of_released (hes : (system cfg reportBound).Valid (init cfg reportBound) es)
    (h : (system cfg reportBound).Sometime (ReleasesConn cfg id) (init cfg reportBound) es) :
    Releasable cfg id ((system cfg reportBound).after (init cfg reportBound) es) := by
  revert h
  refine System.Valid.history (P := fun es =>
    (system cfg reportBound).Sometime (ReleasesConn cfg id) (init cfg reportBound) es →
      Releasable cfg id ((system cfg reportBound).after (init cfg reportBound) es)) ?_ ?_ hes
  · exact fun h => absurd h System.not_sometime_nil
  · intro es e hes he ih h
    have hb : ((system cfg reportBound).after (init cfg reportBound) es).Tracked := tracked_of_valid hes
    rw [System.after_append, System.after_cons, System.after_nil]
    rcases System.sometime_snoc.mp h with hbefore | hnow
    · exact (ih hbefore).step hb he
    · exact (hnow.releasable hb).step hb he

/-- What the registry notes was released when it says so. -/
theorem released_of_noted
    (h : ((system cfg reportBound).after (init cfg reportBound) es).server.Noted nh at') :
    (system cfg reportBound).Sometime (fun b e => ReleasesPeer cfg nh b e ∧ e.1.now = at')
      (init cfg reportBound) es := by
  induction es using List.reverseRecOn with
  | nil =>
      obtain ⟨r, hr, hget⟩ := h
      obtain ⟨sample, -, rfl⟩ := Option.map_eq_some_iff.mp hr
      cases hget
  | append_singleton es e ih =>
      obtain ⟨grads, kicks, frees, hcounts⟩ :=
        exists_counts cfg ((system cfg reportBound).after (init cfg reportBound) es) e
      rw [System.after_append] at h
      rw [System.sometime_snoc]
      exact (hcounts.tally.noted nh at' h).imp ih fun hnow => ⟨hnow.1, hnow.2.symm⟩

/-- Each connection is released once at most, by rule 4 or by `maybeGraduate`, and kicked once at most;
so each count is of so many connections, and what the map of cooldowns and the registry have of an
identity is the one release of a connection. -/
structure ReleasedOnce (cfg : Config) (reportBound : Bool) (es : List (Io × Event)) : Prop where
  released : ∀ id, (system cfg reportBound).Once (ReleasesConn cfg id) (init cfg reportBound) es
  kicked : ∀ id, (system cfg reportBound).Once (fun b e => Kicks cfg b e id) (init cfg reportBound) es
  graduatedTotal : ∃ ids : List ConnId, ids.Nodup ∧
    (∀ id, id ∈ ids ↔
      (system cfg reportBound).Sometime (fun b e => Graduates cfg b e id) (init cfg reportBound) es) ∧
    ids.length = ((system cfg reportBound).after (init cfg reportBound) es).server.graduatedTotal
  bootstrapSocketsClosed : ∃ ids : List ConnId, ids.Nodup ∧
    (∀ id, id ∈ ids ↔
      (system cfg reportBound).Sometime (fun b e => Frees cfg b e id) (init cfg reportBound) es) ∧
    ids.length = ((system cfg reportBound).after (init cfg reportBound) es).server.bootstrapSocketsClosed
  unboundKicked : ∃ ids : List ConnId, ids.Nodup ∧
    (∀ id, id ∈ ids ↔
      (system cfg reportBound).Sometime (fun b e => Kicks cfg b e id) (init cfg reportBound) es) ∧
    ids.length = ((system cfg reportBound).after (init cfg reportBound) es).server.unboundKicked
  recorded : ∀ nh at',
    (((system cfg reportBound).after (init cfg reportBound) es).server.graduatedRecently.get nh = some at' ∨
      ((system cfg reportBound).after (init cfg reportBound) es).server.Noted nh at') →
    ∃ id es₁ e es₂, es = es₁ ++ e :: es₂ ∧ e.1.now = at' ∧
      ReleasesConn cfg id ((system cfg reportBound).after (init cfg reportBound) es₁) e ∧
      ((system cfg reportBound).after (init cfg reportBound) es₁).server.connNodeHex id = some nh ∧
      ¬(system cfg reportBound).Sometime (ReleasesConn cfg id) (init cfg reportBound) es₁ ∧
      ¬(system cfg reportBound).Sometime (ReleasesConn cfg id)
        (((system cfg reportBound).after (init cfg reportBound) es₁).step cfg e) es₂

/-- An event after a run comes on no connection that was released by then: it brings no report on its
marked channel, `maybeGraduate` does not select it, and the sweep does not find one it kicked without an
identity. -/
structure LeavesReleased (cfg : Config) (reportBound : Bool) (es : List (Io × Event)) (e : Io × Event) :
    Prop where
  reports : ∀ id, (system cfg reportBound).Sometime (ReleasesConn cfg id) (init cfg reportBound) es →
    ¬Reports cfg ((system cfg reportBound).after (init cfg reportBound) es) e id
  selects : ∀ id, (system cfg reportBound).Sometime (ReleasesConn cfg id) (init cfg reportBound) es →
    e.2 = .maybeGraduate →
      Server.GraduationDue cfg e.1 ((system cfg reportBound).after (init cfg reportBound) es).server →
        ∀ pick, ((system cfg reportBound).after (init cfg reportBound) es).server.selection cfg e.1 =
          some pick → pick.id ≠ id
  finds : ∀ id,
    (system cfg reportBound).Sometime (fun b e => Kicks cfg b e id) (init cfg reportBound) es →
      e.2 = .sweep → id ∉ (((system cfg reportBound).after (init cfg reportBound) es).server.foundUnbound cfg
        e.1).map Prod.fst

/-- The event releases or kicks no connection a second time exactly when it leaves those released alone. -/
theorem leavesReleased_iff {e : Io × Event}
    (hes : (system cfg reportBound).Valid (init cfg reportBound) (es ++ [e])) :
    LeavesReleased cfg reportBound es e ↔
      (∀ id, ReleasesConn cfg id ((system cfg reportBound).after (init cfg reportBound) es) e →
        ¬(system cfg reportBound).Sometime (ReleasesConn cfg id) (init cfg reportBound) es) ∧
      ∀ id, Kicks cfg ((system cfg reportBound).after (init cfg reportBound) es) e id →
        ¬(system cfg reportBound).Sometime (fun b e => Kicks cfg b e id) (init cfg reportBound) es := by
  obtain ⟨hvalid, he, -⟩ := System.along_append.mp hes
  have hb : ((system cfg reportBound).after (init cfg reportBound) es).Tracked := tracked_of_valid hvalid
  constructor
  · rintro ⟨hreports, hselects, hfinds⟩
    refine ⟨fun id hreleases hbefore => ?_, fun id hkicks hbefore => ?_⟩
    · rcases hreleases with hgraduates | hfrees
      · obtain ⟨hevent, hdue, pick, hpick, hid⟩ := graduates_iff.mp hgraduates
        exact hselects id hbefore hevent hdue pick hpick hid
      · have hreleasable := releasable_of_released hvalid hbefore
        exact hreports id hbefore ((frees_iff_reports hreleasable hb he).mp hfrees)
    · obtain ⟨hevent, hfound⟩ := kicks_iff.mp hkicks
      exact hfinds id hbefore hevent hfound
  · rintro ⟨hreleased, hkicked⟩
    refine ⟨fun id hbefore hreports => ?_, fun id hbefore hevent hdue pick hpick hid => ?_,
      fun id hbefore hevent hfound => ?_⟩
    · have hreleasable := releasable_of_released hvalid hbefore
      exact hreleased id (Or.inr ((frees_iff_reports hreleasable hb he).mpr hreports)) hbefore
    · exact hreleased id (Or.inl (graduates_iff.mpr ⟨hevent, hdue, pick, hpick, hid⟩)) hbefore
    · exact hkicked id (kicks_iff.mpr ⟨hevent, hfound⟩) hbefore

theorem recorded_of_once
    (honce : ∀ id, (system cfg reportBound).Once (ReleasesConn cfg id) (init cfg reportBound) es)
    (h : (system cfg reportBound).Sometime (fun b e => ReleasesPeer cfg nh b e ∧ e.1.now = at')
      (init cfg reportBound) es) :
    ∃ id es₁ e es₂, es = es₁ ++ e :: es₂ ∧ e.1.now = at' ∧
      ReleasesConn cfg id ((system cfg reportBound).after (init cfg reportBound) es₁) e ∧
      ((system cfg reportBound).after (init cfg reportBound) es₁).server.connNodeHex id = some nh ∧
      ¬(system cfg reportBound).Sometime (ReleasesConn cfg id) (init cfg reportBound) es₁ ∧
      ¬(system cfg reportBound).Sometime (ReleasesConn cfg id)
        (((system cfg reportBound).after (init cfg reportBound) es₁).step cfg e) es₂ := by
  obtain ⟨es₁, e, es₂, rfl, ⟨id, hreleases, hbound⟩, hnow⟩ := h
  exact ⟨id, es₁, e, es₂, rfl, hnow, hreleases, hbound, honce id es₁ e es₂ rfl hreleases,
    (honce id).not_later hreleases⟩

/-- **Released once.** In a run of the bridge each connection is released once and kicked once at most,
and so counted and recorded once, exactly when no event comes on a connection that has been released:
no ping with a sufficient report on a marked channel, no selection by `maybeGraduate`, and no sweep that
finds it without an identity. -/
theorem releasedOnce_iff (hes : (system cfg reportBound).Valid (init cfg reportBound) es) :
    ReleasedOnce cfg reportBound es ↔
      ∀ es₁ e es₂, es = es₁ ++ e :: es₂ → LeavesReleased cfg reportBound es₁ e := by
  have hvalid : ∀ es₁ e es₂, es = es₁ ++ e :: es₂ →
      (system cfg reportBound).Valid (init cfg reportBound) (es₁ ++ [e]) := by
    rintro es₁ e es₂ rfl
    rw [List.append_cons] at hes
    exact (System.along_append.mp hes).1
  constructor
  · intro h es₁ e es₂ hsplit
    exact (leavesReleased_iff (hvalid es₁ e es₂ hsplit)).mpr
      ⟨fun id => h.released id es₁ e es₂ hsplit, fun id => h.kicked id es₁ e es₂ hsplit⟩
  · intro h
    have hreleased : ∀ id, (system cfg reportBound).Once (ReleasesConn cfg id) (init cfg reportBound) es :=
      fun id es₁ e es₂ hsplit =>
        ((leavesReleased_iff (hvalid es₁ e es₂ hsplit)).mp (h es₁ e es₂ hsplit)).1 id
    have hkicked : ∀ id, (system cfg reportBound).Once (fun b e => Kicks cfg b e id)
        (init cfg reportBound) es := fun id es₁ e es₂ hsplit =>
      ((leavesReleased_iff (hvalid es₁ e es₂ hsplit)).mp (h es₁ e es₂ hsplit)).2 id
    refine ⟨hreleased, hkicked, ?_, ?_, ?_, fun nh at' hrecorded => recorded_of_once hreleased ?_⟩
    · refine System.exists_counted (S := system cfg reportBound)
        (C := fun id b e => Graduates cfg b e id) (n := fun b => b.server.graduatedTotal) rfl
        (fun b e => ?_) fun id => (hreleased id).mono fun _ _ => Or.inl
      obtain ⟨grads, kicks, frees, hcounts⟩ := exists_counts cfg b e
      exact ⟨grads, hcounts.nodup.1, hcounts.mem_grads, hcounts.tally.graduated⟩
    · refine System.exists_counted (S := system cfg reportBound)
        (C := fun id b e => Frees cfg b e id) (n := fun b => b.server.bootstrapSocketsClosed) rfl
        (fun b e => ?_) fun id => (hreleased id).mono fun _ _ => Or.inr
      obtain ⟨grads, kicks, frees, hcounts⟩ := exists_counts cfg b e
      exact ⟨frees, hcounts.nodup.2.2, hcounts.mem_frees, hcounts.tally.freed⟩
    · refine System.exists_counted (S := system cfg reportBound)
        (C := fun id b e => Kicks cfg b e id) (n := fun b => b.server.unboundKicked) rfl
        (fun b e => ?_) hkicked
      obtain ⟨grads, kicks, frees, hcounts⟩ := exists_counts cfg b e
      exact ⟨kicks, hcounts.nodup.2.1, hcounts.mem_kicks, hcounts.tally.kicked⟩
    · rcases hrecorded with hget | hnoted
      · obtain ⟨es₁, e, es₂, hsplit, ⟨hreleases, hnow, -⟩, -⟩ := get_graduatedRecently_iff.mp hget
        exact ⟨es₁, e, es₂, hsplit, hreleases, hnow⟩
      · exact released_of_noted hnoted

end Run

/-- The connection reports a mesh of four channels. -/
def reportsOne : Io × Event :=
  ({}, .message (js "c1") (.text (.ok (.obj [(js "type", .str (js "ping")),
    (js "meshBound", .num (.ofInt 4))]))))

/-- The event is a ping, or one of the timers that release. -/
def mayRelease : Event → Bool
  | .maybeGraduate => true
  | .sweep => true
  | .message _ (.text (.ok json)) => JsVal.asString (json.revive.field (js "type")) = some (js "ping")
  | _ => false

theorem mayRelease_of_releases (h : ReleasesConn cfg id b e ∨ Kicks cfg b e id) :
    mayRelease e.2 = true := by
  rcases h with (hgraduates | ⟨json, hevent, htype, -⟩) | hkicks
  · rw [hgraduates.1]
    rfl
  · rw [hevent]
    exact decide_eq_true htype
  · rw [hkicks.1]
    rfl

/-- The channel binds, and the report on it has its socket closed. -/
theorem releasedOnce_reportsOne :
    ReleasedOnce DoorBridge.oneChannel false (bindsOne ++ [bindNow] ++ [reportsOne]) ∧
      ((system DoorBridge.oneChannel false).after (init DoorBridge.oneChannel false)
        (bindsOne ++ [bindNow] ++ [reportsOne])).server.bootstrapSocketsClosed = 1 := by
  have hquiet : ∀ e ∈ bindsOne ++ [bindNow], mayRelease e.2 = false := by decide +kernel
  have hes : (system DoorBridge.oneChannel false).Valid (init DoorBridge.oneChannel false)
      (bindsOne ++ [bindNow] ++ [reportsOne]) := by
    refine System.along_append.mpr ⟨System.along_append.mpr
      ⟨valid_bindsOne, sinkEnabled_bindNow (by decide +kernel), trivial⟩, ?_, trivial⟩
    change JsMap.has _ _ = true
    decide +kernel
  refine ⟨(releasedOnce_iff hes).mpr fun es₁ e es₂ hsplit => ?_, by decide +kernel⟩
  have hbefore : ∀ f ∈ es₁, mayRelease f.2 = false := by
    intro f hf
    rcases List.eq_nil_or_concat es₂ with rfl | ⟨fs, g, rfl⟩
    · exact hquiet f ((List.append_inj' hsplit rfl).1 ▸ hf)
    · rw [List.concat_eq_append, ← List.cons_append, ← List.append_assoc] at hsplit
      exact hquiet f ((List.append_inj' hsplit rfl).1 ▸ List.mem_append_left _ hf)
  have hnone : ∀ C : Bridge → Io × Event → Prop, (∀ b f, C b f → mayRelease f.2 = true) →
      ¬(system DoorBridge.oneChannel false).Sometime C (init DoorBridge.oneChannel false) es₁ := by
    rintro C hC ⟨fs₁, f, fs₂, rfl, h⟩
    have hmay := hC _ _ h
    rw [hbefore f (List.mem_append_right _ List.mem_cons_self)] at hmay
    cases hmay
  have hreleases : ∀ id, ¬(system DoorBridge.oneChannel false).Sometime
      (ReleasesConn DoorBridge.oneChannel id) (init DoorBridge.oneChannel false) es₁ := fun id =>
    hnone _ fun _ _ h => mayRelease_of_releases (Or.inl h)
  refine ⟨fun id h => absurd h (hreleases id), fun id h => absurd h (hreleases id), fun id h => ?_⟩
  exact absurd h (hnone _ fun _ _ h => mayRelease_of_releases (Or.inr h))

/-- The connection a message comes on. -/
def sender : Event → Option ConnId
  | .message id _ => some id
  | _ => none

/-- A second report is on its way when the first has the socket closed, and the socket is counted twice. -/
theorem not_releasedOnce_reportsTwice :
    (system DoorBridge.oneChannel false).Valid (init DoorBridge.oneChannel false)
        (bindsOne ++ [bindNow] ++ [reportsOne, reportsOne]) ∧
      ((system DoorBridge.oneChannel false).after (init DoorBridge.oneChannel false)
        (bindsOne ++ [bindNow] ++ [reportsOne, reportsOne])).server.bootstrapSocketsClosed = 2 ∧
      ¬ReleasedOnce DoorBridge.oneChannel false (bindsOne ++ [bindNow] ++ [reportsOne, reportsOne]) := by
  have hcount : ((system DoorBridge.oneChannel false).after (init DoorBridge.oneChannel false)
      (bindsOne ++ [bindNow] ++ [reportsOne, reportsOne])).server.bootstrapSocketsClosed = 2 := by
    decide +kernel
  refine ⟨System.along_append.mpr ⟨System.along_append.mpr
    ⟨valid_bindsOne, sinkEnabled_bindNow (by decide +kernel), trivial⟩, ?_, ?_, trivial⟩, hcount, fun h => ?_⟩
  · change JsMap.has _ _ = true
    decide +kernel
  · change JsMap.has _ _ = true
    decide +kernel
  · have hone : ∀ e ∈ bindsOne ++ [bindNow] ++ [reportsOne, reportsOne],
        (sender e.2).all (· = js "c1") = true := by decide +kernel
    obtain ⟨ids, hnodup, hmem, hlength⟩ := h.bootstrapSocketsClosed
    have hids : ids ⊆ [js "c1"] := by
      intro id hid
      obtain ⟨es₁, e, es₂, hsplit, json, hevent, -⟩ := (hmem id).mp hid
      have hsent := hone e (hsplit ▸ List.mem_append_right _ List.mem_cons_self)
      rw [hevent] at hsent
      exact List.mem_singleton.mpr (of_decide_eq_true hsent)
    have hle := (List.subperm_of_subset hnodup hids).length_le
    rw [hlength, hcount] at hle
    exact absurd hle (by decide)

end Bridge

end AxonaBridge
