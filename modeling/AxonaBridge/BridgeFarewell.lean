import AxonaBridge.BridgeSession

/-!
# A farewell is final

The clients tear a peer down when they are told it left, and would build it up again for any later frame
that names it. There is none: once a connection was told of a departure, nothing it is sent names the
departed again.
-/

open JsText

namespace AxonaBridge

/-- The frame tells of the departure of a connection. -/
def Frame.isFarewell (connId : ConnId) : Frame → Bool
  | .peerLeft peerId .. => peerId = connId
  | _ => false

theorem Frame.eq_of_isFarewell {connId : ConnId} {frame : Frame} (h : frame.isFarewell connId = true) :
    ∃ nodeId serverT, frame = .peerLeft connId nodeId serverT := by
  cases frame with
  | peerLeft peerId nodeId serverT => exact ⟨nodeId, serverT, by rw [of_decide_eq_true h]⟩
  | _ => cases h

namespace Server

variable {cfg : Config} {io : Io} {s : Server} {id : ConnId} {A : ConnId → Prop}

/-- A frame names connections of the table, apart from the bridge itself. -/
theorem Says.has_of_mem_names {e : Event} {recipient connId : ConnId} {frame : Frame}
    (h : Says cfg io A s e recipient frame)
    (hclosed : ∀ id code reason, e = .closed id code reason → s.connections.has id = true)
    (hmem : connId ∈ frame.names) : connId = cfg.node.reservedId ∨ s.connections.has connId = true := by
  have hadmitted : ∀ {connId}, s.IsAdmitted connId → s.connections.has connId = true := by
    rintro connId ⟨conn, hget, -⟩
    exact Option.isSome_iff_exists.mpr ⟨conn, hget⟩
  have hpending : ∀ {id data}, Admits cfg s id data → s.connections.has id = true := fun h =>
    has_iff_admission.mpr (by rw [h.1]; rfl)
  cases h with
  | welcome h => exact Or.inr (by rw [List.mem_singleton.mp hmem]; exact hpending h)
  | introduction h graduated =>
      rcases mem_introductions hmem with hmem | hrid
      · rcases isAdmitted_greet (isAdmitted_of_mem_introduce hmem) with heq | hadm
        · exact Or.inr (by rw [heq]; exact hpending h.admits)
        · exact Or.inr (hadmitted hadm)
      · exact Or.inl hrid
  | joined h hadm hne => exact Or.inr (by rw [List.mem_singleton.mp hmem]; exact hpending h.admits)
  | relisted h graduated =>
      rcases mem_withReserved hmem with hmem | hrid
      · exact Or.inr (hadmitted (isAdmitted_of_mem_admittedOthers hmem))
      · exact Or.inl hrid
  | relay h => exact Or.inr (by rw [List.mem_singleton.mp hmem]; exact hadmitted h.1)
  | left code reason hne hadm hsend =>
      exact Or.inr (by rw [List.mem_singleton.mp hmem]; exact hclosed _ code reason rfl)
  | door payload h => exact Or.inl (List.mem_singleton.mp hmem)
  | _ => cases hmem

/-! ### One broadcast -/

theorem hears_broadcastOne (msg : Frame) (exceptId : Option ConnId) (acc : Nat × Server)
    (e : ConnId × Conn) :
    ∃ frames, Hears id acc.2 (broadcastOne cfg io msg exceptId acc e).2 frames ∧
      (frames = [] ∨ e.1 = id ∧ frames = [msg]) := by
  have hquiet : ∀ {t : Server}, Emits (fun _ _ => False) acc.2 t → Hears id acc.2 t [] := fun h =>
    hears_nil (h.mono fun _ _ hfalse => hfalse.elim)
  unfold broadcastOne
  split
  · exact ⟨[], hquiet Emits.refl, Or.inl rfl⟩
  · dsimp only
    cases hsend : io.sendError e.1 with
    | some err =>
        have hfails : acc.2.wsSend io e.1 msg = (false, acc.2) := by
          unfold wsSend
          rw [hsend]
          rfl
        rw [hfails, if_neg Bool.false_ne_true]
        exact ⟨[], hquiet (@emits_logErr cfg _ _ _ _), Or.inl rfl⟩
    | none =>
        have hsent : acc.2.wsSend io e.1 msg = (true, { acc.2 with out := acc.2.out ++ [.frame e.1 msg] }) := by
          unfold wsSend
          rw [hsend]
          rfl
        rw [hsent, if_pos rfl]
        by_cases hid : e.1 = id
        · refine ⟨[msg], ?_, Or.inr ⟨hid, rfl⟩⟩
          unfold Hears framesTo
          rw [List.filterMap_append]
          exact congrArg _ (List.filterMap_cons_some (if_pos hid))
        · refine ⟨[], hears_nil ⟨[_], rfl, ?_⟩, Or.inl rfl⟩
          intro recipient frame hmem
          cases List.mem_singleton.mp hmem
          exact hid

/-- A connection hears a broadcast at most once. -/
theorem hears_broadcasts (msg : Frame) (exceptId : Option ConnId) (entries : List (ConnId × Conn))
    (hnodup : (entries.map Prod.fst).Nodup) (acc : Nat × Server) :
    ∃ frames, Hears id acc.2 (entries.foldl (broadcastOne cfg io msg exceptId) acc).2 frames ∧
      (frames = [] ∨ id ∈ entries.map Prod.fst ∧ frames = [msg]) := by
  induction entries generalizing acc with
  | nil => exact ⟨[], (List.append_nil _).symm, Or.inl rfl⟩
  | cons e entries ih =>
      rw [List.map_cons, List.nodup_cons] at hnodup
      obtain ⟨frames, hheard, hframes⟩ := @hears_broadcastOne cfg io id msg exceptId acc e
      obtain ⟨frames', hheard', hframes'⟩ := ih hnodup.2 (broadcastOne cfg io msg exceptId acc e)
      refine ⟨frames ++ frames', hheard.trans hheard', ?_⟩
      rw [List.map_cons, List.mem_cons]
      rcases hframes with rfl | ⟨hid, rfl⟩
      · exact hframes'.imp_right fun h => ⟨Or.inr h.1, h.2⟩
      · rcases hframes' with rfl | ⟨hmem, -⟩
        · exact Or.inr ⟨Or.inl hid.symm, rfl⟩
        · exact absurd (hid ▸ hmem) hnodup.1

theorem hears_onClose (connId : ConnId) (code : Nat) (reason : JsString) :
    ∃ frames, Hears id s (s.onClose cfg io connId code reason) frames ∧ frames.length ≤ 1 := by
  unfold onClose
  split
  · exact ⟨[], (List.append_nil _).symm, Nat.zero_le 1⟩
  · rename_i conn hget
    dsimp only
    rw [broadcast_eq]
    obtain ⟨frames, hheard, hframes⟩ := @hears_broadcasts cfg io id
      (.peerLeft connId (s.departedNodeId connId) io.now) none (s.connections.delete connId).entries
      (s.connections.delete connId).nodup (0, { s with
        connections := s.connections.delete connId
        node := s.node.handleConnClosed cfg.node io.kernel connId })
    refine ⟨frames, Hears.quiet_right hheard (emits_logInfo _ _), ?_⟩
    rcases hframes with rfl | ⟨-, rfl⟩
    · exact Nat.zero_le 1
    · exact le_rfl

end Server

namespace Bridge

variable {cfg : Config} {reportBound : Bool} {b : Bridge} {e : Io × Event} {x y : ConnId}

/-- What a connection was sent after it was told of a departure does not name the departed; and who it
was told left is gone. -/
structure Farewells (x y : ConnId) (b : Bridge) : Prop where
  final : (b.server.framesTo x).Pairwise fun frame frame' => frame.isFarewell y = true → y ∉ frame'.names
  gone : ∀ frame ∈ b.server.framesTo x, frame.isFarewell y = true →
    ¬b.server.connections.has y = true ∧ ∃ i, i ≤ b.connSeq ∧ y = mintConnId i

theorem Farewells.step (h : b.Farewells x y) (hb : b.Tracked) (he : b.Enabled cfg e) :
    (b.step cfg e).Farewells x y := by
  obtain ⟨frames, hheard, hsaid⟩ := Server.exists_hears (says_known hb he) x
  have hclosed : ∀ id code reason, e.2 = .closed id code reason → b.server.connections.has id = true :=
    fun id code reason heq => he.of_event heq
  have hleft : ∀ frame ∈ frames, frame.isFarewell y = true → ∃ code reason, e.2 = .closed y code reason := by
    intro frame hmem hfarewell
    obtain ⟨nodeId, serverT, rfl⟩ := Frame.eq_of_isFarewell hfarewell
    obtain ⟨code, reason, heq, -⟩ := (hsaid _ hmem).1.of_peerLeft
    exact ⟨code, reason, heq⟩
  have hall : (b.step cfg e).server.framesTo x = b.server.framesTo x ++ frames := hheard
  constructor
  · rw [hall, List.pairwise_append]
    refine ⟨h.final, ?_, fun frame hmem frame' hmem' hfarewell hnamed => ?_⟩
    · by_cases hany : ∃ code reason, e.2 = .closed y code reason
      · -- one close is told of once
        obtain ⟨code, reason, heq⟩ := hany
        obtain ⟨frames', hheard', hlength⟩ := @Server.hears_onClose cfg e.1 b.server x y code reason
        rw [server_step_of_event heq] at hheard
        rw [List.append_cancel_left (hheard.symm.trans hheard')]
        match frames', hlength with
        | [], _ => exact List.Pairwise.nil
        | [frame], _ => exact List.pairwise_singleton _ _
      · exact List.pairwise_of_forall_mem_list fun frame hmem _ _ hfarewell =>
          absurd (hleft frame hmem hfarewell) hany
    · obtain ⟨hgone, hminted⟩ := h.gone frame hmem hfarewell
      rcases (hsaid _ hmem').1.has_of_mem_names hclosed hnamed with hrid | hhas
      · obtain ⟨i, -, heq⟩ := hminted
        exact mintConnId_ne_reservedId i cfg.node.epoch (heq.symm.trans hrid)
      · exact hgone hhas
  · intro frame hmem hfarewell
    rw [hall, List.mem_append] at hmem
    rcases hmem with hmem | hmem
    · obtain ⟨hgone, i, hi, heq⟩ := h.gone frame hmem hfarewell
      refine ⟨fun hhas => ?_, i, hi.trans connSeq_le_step, heq⟩
      exact ne_connect_of_minted he ⟨i, hi, heq⟩ (Server.eq_connect_of_has_step hgone hhas)
    · obtain ⟨code, reason, heq⟩ := hleft frame hmem hfarewell
      have hhas := hclosed y code reason heq
      obtain ⟨i, hi, hmint⟩ := hb.minted y (Or.inr (Server.has_iff_admission.mp hhas))
      refine ⟨?_, i, hi.trans connSeq_le_step, hmint⟩
      rw [Server.has_iff_admission, server_step_of_event heq, Server.step, Server.admission_onClose,
        if_pos rfl]
      exact Bool.false_ne_true

/-- **A farewell is final.** In every run, of the frames a connection is sent none that comes after the
notice of a departure names the one that left. -/
theorem farewell_final (cfg : Config) (reportBound : Bool) (es : List (Io × Event))
    (hes : (system cfg reportBound).Valid (init cfg reportBound) es) (x y : ConnId) :
    (((system cfg reportBound).after (init cfg reportBound) es).server.framesTo x).Pairwise
      fun frame frame' => frame.isFarewell y = true → y ∉ frame'.names := by
  have hinvariant := System.Valid.invariant (S := system cfg reportBound)
    (I := fun b => b.Tracked ∧ b.Farewells x y) ?_ ?_ hes
  · exact hinvariant.2.final
  · exact ⟨tracked_init reportBound, List.Pairwise.nil, fun frame hmem => by cases hmem⟩
  · exact fun b e h he => ⟨tracked_step h.1 he, h.2.step h.1 he⟩

/-- The first leaves and a third comes, of whom the second is told. -/
def leftAndJoined : List (Io × Event) :=
  twoAdmitted ++ [({ now := 5 }, .closed (js "c1") 1000 []), ({ now := 6 }, .connect (js "c3")),
    hello { now := 7 } (js "c3")]

theorem farewell_final_leftAndJoined :
    (((system Server.plain false).after (init Server.plain false) leftAndJoined).server.framesTo
      (js "c2")).Pairwise fun frame frame' => frame.isFarewell (js "c1") = true → js "c1" ∉ frame'.names :=
  farewell_final Server.plain false leftAndJoined (valid_of_openRun (by decide +kernel)) (js "c2") (js "c1")

end Bridge

end AxonaBridge
