import AxonaBridge.BridgeDeparture
import AxonaBridge.BridgeSession
import AxonaBridge.Roster

/-!
# Who an admitted connection thinks is there

The lists of peers, the peers that joined and the peers that left come to a roster at each connection.
The roster of an admitted connection holds present peers only. Of two connections that were introduced
one at least has the other on its roster, and with the nursery off both have.
-/

open JsText

namespace AxonaBridge

/-- What a frame says of who is there. -/
def Frame.notice : Frame → Option (Notice ConnId)
  | .peerList peers .. => some (.here peers)
  | .peerJoined peerId _ => some (.here [peerId])
  | .peerLeft peerId .. => some (.left peerId)
  | _ => none

theorem names_notices {frames : List Frame} {k : ConnId}
    (h : Roster.Names (frames.filterMap Frame.notice) k) :
    (∃ peers graduated serverT, .peerList peers graduated serverT ∈ frames ∧ k ∈ peers) ∨
      ∃ serverT, .peerJoined k serverT ∈ frames := by
  obtain ⟨ks, hmem, hk⟩ := h
  obtain ⟨frame, hframe, hnotice⟩ := List.mem_filterMap.mp hmem
  cases frame with
  | peerList =>
      cases hnotice
      exact Or.inl ⟨_, _, _, hframe, hk⟩
  | peerJoined =>
      cases hnotice
      rw [List.mem_singleton.mp hk]
      exact Or.inr ⟨_, hframe⟩
  | _ => cases hnotice

theorem left_mem_notices {frames : List Frame} {k : ConnId}
    (h : .left k ∈ frames.filterMap Frame.notice) : ∃ nodeId serverT, .peerLeft k nodeId serverT ∈ frames := by
  obtain ⟨frame, hframe, hnotice⟩ := List.mem_filterMap.mp h
  cases frame with
  | peerLeft =>
      cases hnotice
      exact ⟨_, _, hframe⟩
  | _ => cases hnotice

namespace Server

variable {cfg : Config} {io : Io} {s t : Server} {id : ConnId}

/-- Who is there, by the frames a connection was sent. -/
def rosterOf (s : Server) (id : ConnId) : List ConnId :=
  Roster.roster ((s.framesTo id).filterMap Frame.notice)

/-! ### The others of an introduction -/

theorem mem_introductions_of_mem {conn : Conn} {connId : ConnId}
    (h : connId ∈ (s.introduce cfg io id conn.claimedRegion).1) :
    connId ∈ s.introductions cfg io id conn := by
  have hlisted := (perm_orderSameRegionFirst (s.introduce cfg io id conn.claimedRegion).1 s.connRegion
    conn.claimedRegion).mem_iff.mpr h
  unfold introductions
  rcases @withReserved_cases cfg s conn (orderSameRegionFirst (s.introduce cfg io id
    conn.claimedRegion).1 s.connRegion conn.claimedRegion) with heq | heq
  · rw [heq]
    exact hlisted
  · rw [heq]
    exact List.mem_cons_of_mem _ hlisted

theorem mem_admittedOthers {connId : ConnId} (hadm : s.IsAdmitted connId) (hne : connId ≠ id) :
    connId ∈ s.admittedOthers id := by
  obtain ⟨conn, hget, hyes⟩ := hadm
  refine List.mem_map.mpr ⟨(connId, conn), List.mem_filter.mpr ⟨JsMap.mem_entries_iff.mpr hget, ?_⟩, rfl⟩
  rw [Bool.and_eq_true, decide_eq_true_eq]
  exact ⟨hne, hyes⟩

theorem isAdmitted_greet_of_ne {conn : Conn} {msg : JsVal} {connId : ConnId} (hadm : s.IsAdmitted connId)
    (hne : connId ≠ id) : (greet io s id conn msg).IsAdmitted connId := by
  unfold greet
  rw [isAdmitted_iff, admission]
  dsimp only
  rw [get_modifyConn, if_neg hne, get_modifyConn, if_neg hne, get_modifyConn, if_neg hne]
  exact isAdmitted_iff.mp hadm

/-! ### Rosters -/

theorem Hears.rosterOf {frames : List Frame} (h : Hears id s t frames) :
    t.rosterOf id = (frames.filterMap Frame.notice).foldl Roster.learn (s.rosterOf id) := by
  unfold Server.rosterOf
  rw [h, List.filterMap_append, Roster.roster_append]

end Server

namespace Bridge

variable {cfg : Config} {b : Bridge} {e : Io × Event} {id x y : ConnId}

/-- The peers of a connection: the bridge itself and the other admitted connections. -/
def Near (cfg : Config) (b : Bridge) (id k : ConnId) : Prop :=
  k = cfg.node.reservedId ∨ b.server.IsAdmitted k ∧ k ≠ id

section Step

theorem isAdmitted_step_of_message {data : Server.Inbound} (h : b.server.IsAdmitted x)
    (hmessage : e.2 = .message id data) : (b.step cfg e).server.IsAdmitted x := by
  refine Server.isAdmitted_step h (fun heq => ?_) fun code reason heq => ?_
  · cases hmessage.symm.trans heq
  · cases hmessage.symm.trans heq

/-- Whoever is named on a list or joined is there. -/
theorem near_of_names (hb : b.Tracked) {frames : List Frame}
    (hsaidOf : ∀ frame ∈ frames, Server.Says cfg e.1 (fun _ => True) b.server e.2 id frame ∧
      Server.Sent b.server (b.step cfg e).server id frame)
    {k : ConnId} (hk : Roster.Names (frames.filterMap Frame.notice) k) :
    (b.step cfg e).Near cfg id k := by
  have hrid : ∀ {connId : ConnId}, b.server.IsAdmitted connId → connId ≠ cfg.node.reservedId :=
    fun h => ne_reservedId_of_isSome hb (by rw [Server.isAdmitted_iff.mp h]; rfl)
  rcases names_notices hk with ⟨peers, graduated, serverT, hmem, hk⟩ | ⟨serverT, hmem⟩
  · obtain ⟨hsaid, hsent⟩ := hsaidOf _ hmem
    by_cases hself : k = cfg.node.reservedId
    · exact Or.inl hself
    · obtain ⟨conn, json, hmessage, ⟨hintro, -⟩ | ⟨hreceives, rfl⟩⟩ := hsaid.of_peerList
      · have hpending : ¬b.server.IsAdmitted id := fun hadm => by
          cases hintro.admits.1.symm.trans (Server.isAdmitted_iff.mp hadm)
        have hlist : AdmittedWith cfg b e id peers := ⟨hpending, graduated, serverT, hsent⟩
        refine Or.inr ⟨isAdmitted_step_of_message (hlist.isAdmitted hb hk hself) hmessage, fun heq => ?_⟩
        exact hlist.not_mem_self hb (heq ▸ hk)
      · have hothers := (Server.mem_withReserved hk).resolve_right hself
        refine Or.inr ⟨isAdmitted_step_of_message
          (Server.isAdmitted_of_mem_admittedOthers hothers) hmessage, fun heq => ?_⟩
        obtain ⟨entry, hentry, hid⟩ := List.mem_map.mp hothers
        obtain ⟨-, htest⟩ := List.mem_filter.mp hentry
        rw [Bool.and_eq_true, decide_eq_true_eq] at htest
        exact htest.1 (hid.trans heq)
  · have hsaid := (hsaidOf _ hmem).1
    generalize hevent : e.2 = event at hsaid
    cases hsaid with
    | joined hintro hadm hne =>
        refine Or.inr ⟨Server.isAdmitted_iff.mpr ?_, fun heq => hne heq.symm⟩
        rw [server_step_of_event hevent]
        exact ((Server.admission_onMessage k _ k).1 hintro.admits).trans (if_pos rfl)

/-- Whoever left is not there. -/
theorem not_near_of_left (hb : b.Tracked) (he : b.Enabled cfg e) {frames : List Frame}
    (hsaidOf : ∀ frame ∈ frames, Server.Says cfg e.1 (fun _ => True) b.server e.2 id frame ∧
      Server.Sent b.server (b.step cfg e).server id frame)
    {k : ConnId} (hk : .left k ∈ frames.filterMap Frame.notice) : ¬(b.step cfg e).Near cfg id k := by
  obtain ⟨nodeId, serverT, hmem⟩ := left_mem_notices hk
  obtain ⟨code, reason, hclosed, -⟩ := (hsaidOf _ hmem).1.of_peerLeft
  have hhas : b.server.connections.has k = true := he.of_event hclosed
  rintro (heq | ⟨hadm, -⟩)
  · exact ne_reservedId_of_isSome hb (Server.has_iff_admission.mp hhas) heq
  · rw [Server.isAdmitted_iff, server_step_of_event hclosed, Server.step, Server.admission_onClose,
      if_pos rfl] at hadm
    cases hadm

/-- Whoever is there no more has left, and that is said. -/
theorem left_of_gone (hb : b.Tracked) (he : b.Enabled cfg e) (hsend : e.1.SendsReturn)
    (hid : (b.step cfg e).server.IsAdmitted id) {frames : List Frame}
    (hheard : Server.Hears id b.server (b.step cfg e).server frames) {k : ConnId}
    (hk : b.Near cfg id k) (hgone : ¬(b.step cfg e).Near cfg id k) :
    .left k ∈ frames.filterMap Frame.notice := by
  obtain rfl | ⟨hadm, hne⟩ := hk
  · exact absurd (Or.inl rfl) hgone
  · have hnot : ¬(b.step cfg e).server.IsAdmitted k := fun h => hgone (Or.inr ⟨h, hne⟩)
    have hhas : (b.server.admission k).isSome = true := by rw [Server.isAdmitted_iff.mp hadm]; rfl
    obtain ⟨code, reason, hclosed⟩ : ∃ code reason, e.2 = .closed k code reason := by
      by_contra hopen
      refine hnot (Server.isAdmitted_step hadm ?_ fun code reason heq => hopen ⟨code, reason, heq⟩)
      exact ne_connect_of_minted he (hb.minted k (Or.inr hhas))
    have hserver : (b.step cfg e).server = b.server.onClose cfg e.1 k code reason :=
      server_step_of_event hclosed
    have hid' : b.server.IsAdmitted id := by
      rw [Server.isAdmitted_iff, hserver, Server.admission_onClose, if_neg hne.symm] at hid
      exact Server.isAdmitted_iff.mpr hid
    have hsent := @Server.sent_onClose cfg e.1 b.server k id code reason
      (Server.has_iff_admission.mpr hhas) hne.symm hid' (hsend id)
    rw [← hserver] at hsent
    exact List.mem_filterMap.mpr ⟨_, hheard.mem_of_sent hsent, rfl⟩

/-- What an admitted connection hears is true of the peers it has, and leaves out no departure. -/
theorem told_step (hb : b.Tracked) (he : b.Enabled cfg e) (hsend : e.1.SendsReturn)
    (hid : (b.step cfg e).server.IsAdmitted id) {frames : List Frame}
    (hheard : Server.Hears id b.server (b.step cfg e).server frames) :
    Roster.Told (b.Near cfg id) ((b.step cfg e).Near cfg id) (frames.filterMap Frame.notice) where
  here _ hk := near_of_names hb (hheard.all (says_step b e)) hk
  left _ hk := not_near_of_left hb he (hheard.all (says_step b e)) hk
  gone _ hk hgone := left_of_gone hb he hsend hid hheard hk hgone

/-- Nobody is on the roster of a connection that was never admitted. -/
theorem rosterOf_eq_nil (hspoken : b.Spoken cfg b.looseScope) (hid : id ∉ b.everAdmitted) :
    b.server.rosterOf id = [] := by
  have hnone : (b.server.framesTo id).filterMap Frame.notice = [] := by
    refine List.filterMap_eq_nil_iff.mpr fun frame hframe => ?_
    obtain ⟨o, ho, hto⟩ := List.mem_filterMap.mp hframe
    rw [Out.eq_of_frameTo hto] at ho
    have hallows := hspoken id frame ho
    cases frame with
    | peerList => exact absurd hallows.1 hid
    | peerJoined => exact absurd hallows.1 hid
    | peerLeft => exact absurd hallows.1 hid
    | _ => rfl
  unfold Server.rosterOf
  rw [hnone]
  rfl

/-- An admitted connection was admitted before the step or is hailed by it. -/
theorem isAdmitted_or_hailsAt
    (hid : (b.step cfg e).server.IsAdmitted id) : b.server.IsAdmitted id ∨ HailsAt cfg id b e := by
  have hadm := Server.isAdmitted_iff.mp hid
  rcases @Server.admission_step cfg e.1 b.server e.2 id with
    ⟨-, hfalse⟩ | ⟨_, _, -, hnone⟩ | ⟨_, heq, hadmits, -⟩ | hsame
  · cases hfalse.symm.trans hadm
  · cases hnone.symm.trans hadm
  · exact Or.inr (hailsAt_of_admits heq hadmits)
  · exact Or.inl (Server.isAdmitted_iff.mpr (hsame.symm.trans hadm))

theorem HailsAt.not_mem_everAdmitted (h : HailsAt cfg id b e) (hb : b.Tracked) : id ∉ b.everAdmitted := by
  obtain ⟨conn, json, -, hhails⟩ := h
  exact fun hmem => hb.kept id hmem hhails.admits.1

end Step

/-- The rosters of admitted connections hold their peers. -/
def Sound (cfg : Config) (b : Bridge) : Prop :=
  ∀ id, b.server.IsAdmitted id → ∀ k ∈ b.server.rosterOf id, b.Near cfg id k

theorem Sound.step (h : b.Sound cfg) (hb : b.Tracked) (hspoken : b.Spoken cfg b.looseScope)
    (he : b.Enabled cfg e) (hsend : e.1.SendsReturn) : (b.step cfg e).Sound cfg := by
  intro id hid
  obtain ⟨frames, hheard, -⟩ := Server.exists_hears (@says_step cfg b e) id
  have htold := told_step hb he hsend hid hheard
  rw [hheard.rosterOf]
  refine htold.within fun k hk => ?_
  rcases isAdmitted_or_hailsAt hid with hadm | hhails
  · exact h id hadm k hk
  · rw [rosterOf_eq_nil hspoken (hhails.not_mem_everAdmitted hb)] at hk
    cases hk

/-! ### Whom an introduction makes known -/

/-- A connection is introduced and present. -/
def Introduced (b : Bridge) (id : ConnId) : Prop := b.server.admittedAs id = some false

theorem Introduced.isAdmitted (h : b.Introduced id) : b.server.IsAdmitted id :=
  Server.isAdmitted_iff_admittedAs.mpr ⟨false, h⟩

theorem introduced_or_introducesAt (h : (b.step cfg e).Introduced id) :
    b.Introduced id ∨ IntroducesAt cfg id b e := by
  rcases Server.admittedAs_step h with hbefore | ⟨conn, json, hmessage, hhails, hfull⟩
  · exact Or.inl hbefore
  · exact Or.inr ⟨conn, json, hmessage, hhails.admits, hhails.get, hfull⟩

theorem IntroducesAt.ne (h : IntroducesAt cfg y b e) (hx : b.server.IsAdmitted x) : x ≠ y := by
  obtain ⟨conn, json, -, hintro⟩ := h
  rintro rfl
  cases hintro.admits.1.symm.trans (Server.isAdmitted_iff.mp hx)

/-- A newcomer is put on the roster of everyone admitted. -/
theorem IntroducesAt.known (h : IntroducesAt cfg y b e) (hb : b.Tracked) (he : b.Enabled cfg e)
    (hsend : e.1.SendsReturn) (hx : b.server.IsAdmitted x) : y ∈ (b.step cfg e).server.rosterOf x := by
  have hne := h.ne hx
  obtain ⟨conn, json, hmessage, hintro⟩ := h
  obtain ⟨frames, hheard, -⟩ := Server.exists_hears (@says_step cfg b e) x
  have hserver : (b.step cfg e).server = (b.server.onMessage cfg e.1 y (.text (.ok json))).1 :=
    server_step_of_event hmessage
  have hsent := hintro.sent_joined hx (hsend x)
  rw [← hserver] at hsent
  have hy : (b.step cfg e).server.IsAdmitted y := by
    rw [Server.isAdmitted_iff, hserver, (Server.admission_onMessage y _ y).1 hintro.admits, if_pos rfl]
  rw [hheard.rosterOf]
  refine (told_step hb he hsend (isAdmitted_step_of_message hx hmessage) hheard).mem
    (Or.inr ⟨hy, hne.symm⟩) (Or.inr ⟨[y], ?_, List.mem_singleton_self y⟩)
  exact List.mem_filterMap.mpr ⟨_, hheard.mem_of_sent hsent, rfl⟩

/-- Without the nursery a newcomer is told of everyone admitted. -/
theorem IntroducesAt.knows (h : IntroducesAt cfg y b e) (hnursery : cfg.nurseryOn = false) (hb : b.Tracked)
    (he : b.Enabled cfg e) (hsend : e.1.SendsReturn) (hx : b.server.IsAdmitted x) :
    x ∈ (b.step cfg e).server.rosterOf y := by
  have hne := h.ne hx
  obtain ⟨conn, json, hmessage, hintro⟩ := h
  have hserver : (b.step cfg e).server = (b.server.onMessage cfg e.1 y (.text (.ok json))).1 :=
    server_step_of_event hmessage
  obtain ⟨frames, hheard, hframes⟩ := Server.hears_onMessage hintro.hails (hsend y)
  rw [hintro.full, if_neg Bool.false_ne_true] at hframes
  rw [hframes, ← hserver] at hheard
  have hy : (b.step cfg e).server.IsAdmitted y := by
    rw [Server.isAdmitted_iff, hserver, (Server.admission_onMessage y _ y).1 hintro.admits, if_pos rfl]
  have hlisted : x ∈ (Server.greet e.1 b.server y conn json.revive).introductions cfg e.1 y
      (Server.Conn.ofHello conn json.revive) := by
    refine Server.mem_introductions_of_mem ?_
    unfold Server.introduce
    rw [hnursery]
    exact Server.mem_admittedOthers (Server.isAdmitted_greet_of_ne hx hne) hne
  rw [hheard.rosterOf]
  refine (told_step hb he hsend hy hheard).mem
    (Or.inr ⟨isAdmitted_step_of_message hx hmessage, hne⟩) (Or.inr ⟨_, ?_, hlisted⟩)
  exact List.mem_filterMap.mpr ⟨_, List.mem_cons_of_mem _ List.mem_cons_self, rfl⟩

/-- Whoever is introduced knows of the others, or they of it. -/
structure Acquainted (cfg : Config) (b : Bridge) : Prop where
  one : ∀ x y, b.Introduced x → b.Introduced y → x ≠ y →
    x ∈ b.server.rosterOf y ∨ y ∈ b.server.rosterOf x
  both : cfg.nurseryOn = false → ∀ x y, b.Introduced x → b.Introduced y → x ≠ y → x ∈ b.server.rosterOf y

/-- Of two introduced connections one at most is introduced by the step. -/
theorem introduced_cases (hne : x ≠ y) (hx : (b.step cfg e).Introduced x) (hy : (b.step cfg e).Introduced y) :
    (b.Introduced x ∧ b.Introduced y) ∨ (IntroducesAt cfg x b e ∧ b.server.IsAdmitted y) ∨
      (IntroducesAt cfg y b e ∧ b.server.IsAdmitted x) := by
  rcases introduced_or_introducesAt hx with hx | hx
  · rcases introduced_or_introducesAt hy with hy | hy
    · exact Or.inl ⟨hx, hy⟩
    · exact Or.inr (Or.inr ⟨hy, hx.isAdmitted⟩)
  · rcases introduced_or_introducesAt hy with hy | hy
    · exact Or.inr (Or.inl ⟨hx, hy.isAdmitted⟩)
    · obtain ⟨_, _, hmessage, -⟩ := hx
      obtain ⟨_, _, hmessage', -⟩ := hy
      injection hmessage.symm.trans hmessage' with heq
      exact absurd heq hne

/-- A peer that stays is not taken off the roster. -/
theorem mem_rosterOf_step (hb : b.Tracked) (he : b.Enabled cfg e) (hsend : e.1.SendsReturn) (hne : x ≠ y)
    (hx : (b.step cfg e).server.IsAdmitted x) (hy : (b.step cfg e).server.IsAdmitted y)
    (h : x ∈ b.server.rosterOf y) : x ∈ (b.step cfg e).server.rosterOf y := by
  obtain ⟨frames, hheard, -⟩ := Server.exists_hears (@says_step cfg b e) y
  rw [hheard.rosterOf]
  exact (told_step hb he hsend hy hheard).mem (Or.inr ⟨hx, hne⟩) (Or.inl h)

theorem Acquainted.step (h : b.Acquainted cfg) (hb : b.Tracked) (he : b.Enabled cfg e)
    (hsend : e.1.SendsReturn) : (b.step cfg e).Acquainted cfg := by
  constructor
  · intro x y hx hy hne
    rcases introduced_cases hne hx hy with ⟨hx₀, hy₀⟩ | ⟨hintro, hadm⟩ | ⟨hintro, hadm⟩
    · refine (h.one x y hx₀ hy₀ hne).imp (fun hmem => ?_) fun hmem => ?_
      · exact mem_rosterOf_step hb he hsend hne hx.isAdmitted hy.isAdmitted hmem
      · exact mem_rosterOf_step hb he hsend hne.symm hy.isAdmitted hx.isAdmitted hmem
    · exact Or.inl (hintro.known hb he hsend hadm)
    · exact Or.inr (hintro.known hb he hsend hadm)
  · intro hnursery x y hx hy hne
    rcases introduced_cases hne hx hy with ⟨hx₀, hy₀⟩ | ⟨hintro, hadm⟩ | ⟨hintro, hadm⟩
    · exact mem_rosterOf_step hb he hsend hne hx.isAdmitted hy.isAdmitted (h.both hnursery x y hx₀ hy₀ hne)
    · exact hintro.known hb he hsend hadm
    · exact hintro.knows hnursery hb he hsend hadm

section Runs

variable {reportBound : Bool} {es : List (Io × Event)}

/-- A fact about the bridge that every step keeps whose sends return. -/
theorem invariant_of_sendsReturn {I : Bridge → Prop} (hinit : I (init cfg reportBound))
    (hstep : ∀ b e, b.Tracked → b.Spoken cfg b.looseScope → b.Enabled cfg e → e.1.SendsReturn → I b →
      I (b.step cfg e))
    (hes : (system cfg reportBound).Valid (init cfg reportBound) es)
    (hsend : ∀ e ∈ es, e.1.SendsReturn) : I ((system cfg reportBound).after (init cfg reportBound) es) := by
  have hboth := System.along_and.mpr ⟨hes, System.along_of_forall_mem (s := init cfg reportBound)
    (S := system cfg reportBound) hsend⟩
  have hI := System.Along.invariant (I := fun b : Bridge => (b.Tracked ∧ b.Spoken cfg b.looseScope) ∧ I b)
    ?_ ?_ hboth
  · exact hI.2
  · rintro b e ⟨⟨hb, hspoken⟩, hI⟩ ⟨he, hreturns⟩
    exact ⟨⟨tracked_step hb he, spoken_looseScope_step hspoken hb he⟩, hstep b e hb hspoken he hreturns hI⟩
  · exact ⟨⟨tracked_init reportBound, fun connId frame hmem => by cases hmem⟩, hinit⟩

/-- **No ghosts.** At any time of a run the roster an admitted connection has been told holds, apart from
the bridge itself, admitted connections other than its own. -/
theorem roster_sound (cfg : Config) (reportBound : Bool) (es : List (Io × Event))
    (hes : (system cfg reportBound).Valid (init cfg reportBound) es)
    (hsend : ∀ e ∈ es, e.1.SendsReturn) (id : ConnId)
    (hid : ((system cfg reportBound).after (init cfg reportBound) es).server.IsAdmitted id) :
    ∀ k ∈ ((system cfg reportBound).after (init cfg reportBound) es).server.rosterOf id,
      k = cfg.node.reservedId ∨
        ((system cfg reportBound).after (init cfg reportBound) es).server.IsAdmitted k ∧ k ≠ id := by
  have hsound := invariant_of_sendsReturn (I := Sound cfg) ?_ ?_ hes hsend
  · exact hsound id hid
  · rintro connId ⟨conn, hget, -⟩
    cases hget
  · exact fun b e hb hspoken he hreturns h => h.step hb hspoken he hreturns

/-- **Acquainted.** Of two connections that were introduced and are present one at least has the other on
its roster, and with the nursery off both have. -/
theorem roster_acquainted (cfg : Config) (reportBound : Bool) (es : List (Io × Event))
    (hes : (system cfg reportBound).Valid (init cfg reportBound) es)
    (hsend : ∀ e ∈ es, e.1.SendsReturn) (x y : ConnId) (hne : x ≠ y)
    (hx : ((system cfg reportBound).after (init cfg reportBound) es).server.admittedAs x = some false)
    (hy : ((system cfg reportBound).after (init cfg reportBound) es).server.admittedAs y = some false) :
    (x ∈ ((system cfg reportBound).after (init cfg reportBound) es).server.rosterOf y ∨
        y ∈ ((system cfg reportBound).after (init cfg reportBound) es).server.rosterOf x) ∧
      (cfg.nurseryOn = false →
        x ∈ ((system cfg reportBound).after (init cfg reportBound) es).server.rosterOf y) := by
  have hacquainted := invariant_of_sendsReturn (I := Acquainted cfg) ?_ ?_ hes hsend
  · exact ⟨hacquainted.one x y hx hy hne, fun hnursery => hacquainted.both hnursery x y hx hy hne⟩
  · exact ⟨fun _ _ h => (by cases h), fun _ _ _ h => by cases h⟩
  · exact fun b e hb _ he hreturns h => h.step hb he hreturns

/-- The bridge of the defaults without its nursery. -/
def withoutNursery : Config := { Server.plain with nurseryOn := false }

theorem sendsReturn_twoAdmitted : ∀ e ∈ twoAdmitted, e.1.SendsReturn := by
  intro e hmem connId
  simp only [twoAdmitted, List.mem_cons, List.not_mem_nil, or_false] at hmem
  rcases hmem with rfl | rfl | rfl | rfl <;> rfl

theorem roster_sound_twoAdmitted :
    js "c1" = Server.plain.node.reservedId ∨
      ((system Server.plain false).after (init Server.plain false) twoAdmitted).server.IsAdmitted (js "c1") ∧
        js "c1" ≠ js "c2" :=
  roster_sound Server.plain false twoAdmitted valid_twoAdmitted sendsReturn_twoAdmitted (js "c2")
    (Server.isAdmitted_iff.mpr (by decide +kernel)) (js "c1") (by decide +kernel)

theorem roster_acquainted_twoAdmitted :
    (js "c1" ∈ ((system withoutNursery false).after (init withoutNursery false)
          twoAdmitted).server.rosterOf (js "c2") ∨
        js "c2" ∈ ((system withoutNursery false).after (init withoutNursery false)
          twoAdmitted).server.rosterOf (js "c1")) ∧
      (withoutNursery.nurseryOn = false → js "c1" ∈ ((system withoutNursery false).after
        (init withoutNursery false) twoAdmitted).server.rosterOf (js "c2")) :=
  roster_acquainted withoutNursery false twoAdmitted (valid_of_openRun (by decide +kernel))
    sendsReturn_twoAdmitted (js "c1") (js "c2") (by decide) (by decide +kernel) (by decide +kernel)

end Runs

end Bridge

end AxonaBridge
