import AxonaBridge.BridgeDiscipline
import AxonaBridge.BridgeSession

/-!
# What the graduation gate knows

The gate holds a newcomer back until its introduction reached outside its cohort, and reads that off a
record the server keeps with every list of peers. The record says what was said: an introduction reached
outside exactly when some list the connection was sent names a connection that came more than a cohort
before it, or carries ids of the graduated.
-/

open JsText

namespace AxonaBridge

theorem any_congr_of_mem {α : Type} {l : List α} {p q : α → Bool} (h : ∀ a ∈ l, p a = q a) :
    l.any p = l.any q := by
  rw [Bool.eq_iff_iff, List.any_eq_true, List.any_eq_true]
  refine exists_congr fun a => and_congr_right fun hmem => ?_
  rw [h a hmem]

def Event.opens (connId : ConnId) : Event → Bool
  | .connect id => id = connId
  | _ => false

/-- When a connection was opened. -/
def openedAt (es : List (Io × Event)) (connId : ConnId) : Option Int :=
  (es.find? fun e => e.2.opens connId).map fun e => e.1.now

section OpenedAt

variable {es : List (Io × Event)} {e : Io × Event} {id : ConnId} {t : Int}

theorem Event.opens_iff {event : Event} : event.opens id = true ↔ event = .connect id := by
  cases event with
  | connect connId =>
      refine decide_eq_true_iff.trans ⟨fun heq => congrArg Event.connect heq, fun heq => ?_⟩
      injection heq
  | _ => exact ⟨fun h => (by cases h), fun h => (by cases h)⟩

theorem openedAt_eq_none_iff : openedAt es id = none ↔ ¬∃ io, (io, Event.connect id) ∈ es := by
  unfold openedAt
  rw [Option.map_eq_none_iff, List.find?_eq_none]
  constructor
  · rintro h ⟨io, hmem⟩
    exact h _ hmem (Event.opens_iff.mpr rfl)
  · rintro h ⟨io, event⟩ hmem hopens
    obtain rfl := Event.opens_iff.mp hopens
    exact h ⟨io, hmem⟩

theorem openedAt_snoc_of_some (h : openedAt es id = some t) : openedAt (es ++ [e]) id = some t := by
  unfold openedAt at *
  rw [List.find?_append, Option.map_or, h]
  rfl

theorem openedAt_snoc_of_ne (hne : e.2 ≠ .connect id) : openedAt (es ++ [e]) id = openedAt es id := by
  unfold openedAt
  have hopens : ¬e.2.opens id = true := fun hopens => hne (Event.opens_iff.mp hopens)
  rw [List.find?_append, List.find?_singleton, if_neg hopens, Option.or_none]

theorem openedAt_snoc_of_none (h : openedAt es id = none) (hconnect : e.2 = .connect id) :
    openedAt (es ++ [e]) id = some e.1.now := by
  unfold openedAt at *
  rw [List.find?_append, Option.map_or, h, List.find?_singleton, if_pos (Event.opens_iff.mpr hconnect)]
  rfl

end OpenedAt

namespace Frame

/-- The peers a list introduces its reader to. -/
def peers : Frame → List ConnId
  | .peerList peers .. => peers
  | _ => []

/-- The ids of the graduated that go with a list. -/
def sample : Frame → List JsString
  | .peerList _ graduated _ => graduated
  | _ => []

/-- To a connection of this age the frame is a list that reaches outside its cohort. -/
def reaches (cohortMs : Int) (opened : ConnId → Option Int) (since : Int) (frame : Frame) : Bool :=
  (frame.peers.any fun peer => (opened peer).any fun t => cohortMs < since - t) || frame.sample ≠ []

/-- The frame lists nobody. -/
def Bare (frame : Frame) : Prop := frame.peers = [] ∧ frame.sample = []

theorem Bare.not_reaches {frame : Frame} (h : frame.Bare) (cohortMs : Int) (opened : ConnId → Option Int)
    (since : Int) : frame.reaches cohortMs opened since = false := by
  unfold reaches
  rw [h.1, h.2]
  rfl

theorem any_reaches_of_bare {frames : List Frame} (h : ∀ frame ∈ frames, frame.Bare) (cohortMs : Int)
    (opened : ConnId → Option Int) (since : Int) :
    frames.any (reaches cohortMs opened since) = false :=
  List.any_eq_false.mpr fun frame hmem => by
    rw [(h frame hmem).not_reaches]
    exact Bool.false_ne_true

theorem reaches_congr {opened opened' : ConnId → Option Int} {frame : Frame}
    (h : ∀ peer ∈ frame.peers, opened peer = opened' peer) (cohortMs since : Int) :
    frame.reaches cohortMs opened since = frame.reaches cohortMs opened' since := by
  unfold reaches
  rw [any_congr_of_mem fun peer hmem => by rw [h peer hmem]]

end Frame

namespace Record

variable {r : Record} {id connId : ConnId} {f : Mark → Mark}

/-- When a connection came, and whether its introduction reached outside its cohort. -/
def reach (r : Record) (id : ConnId) : Option (Int × Bool) := (r.marks id).map fun m => (m.since, m.reached)

theorem reach_modify (hf : ∀ m, (f m).since = m.since ∧ (f m).intro = m.intro) :
    (r.modify connId f).reach id = r.reach id := by
  unfold reach modify
  dsimp only
  split
  · rename_i hid
    rw [hid, Option.map_map]
    refine congrArg (fun g => Option.map g _) (funext fun m => ?_)
    dsimp only [Function.comp, Mark.reached]
    rw [(hf m).1, (hf m).2]
  · rfl

theorem reach_modify_of_ne (hne : id ≠ connId) : (r.modify connId f).reach id = r.reach id := by
  unfold reach modify
  dsimp only
  rw [if_neg hne]

theorem reach_introduce (cohortMs since : Int) (peers : List ConnId) (listed : Bool) :
    (r.introduce cohortMs id since peers listed).reach id =
      (r.reach id).map fun p => (p.1, p.2 || (r.reachesOlder cohortMs since peers || listed)) := by
  unfold reach introduce modify
  dsimp only
  rw [if_pos rfl, Option.map_map, Option.map_map]
  refine congrArg (fun g => Option.map g _) (funext fun m => ?_)
  dsimp only [Function.comp, Mark.reached, Intro.record]
  rw [Option.any_some]
  dsimp only
  cases m.intro with
  | none => rfl
  | some i =>
      rw [Option.getD_some, Option.any_some]
      cases i.anchorsOlderThanCohort <;> cases i.graduatedListed <;> cases listed <;>
        cases r.reachesOlder cohortMs since peers <;> rfl

end Record

namespace Server

variable {cfg : Config} {io : Io} {s : Server} {e : Event} {id : ConnId} {conn : Conn} {peers : List ConnId}

/-! ### One event -/

theorem Lists.get (h : Lists cfg io s e id conn peers) : s.connections.get id = some conn := by
  cases h with
  | introduction h => exact h.get
  | relisted h => exact h.get

theorem sampleFor_modifyConn (connId : ConnId) (g : Conn → Conn) :
    (s.modifyConn connId g).sampleFor cfg io id = s.sampleFor cfg io id := by
  refine sampleFor_congr ?_ ?_ id
  · rfl
  · rfl

theorem hears_relisted {json : JsVal} (h : Receives s id conn json (js "peer-list-request"))
    (hsend : io.sendError id = none) :
    Hears id s (s.step cfg io (.message id (.text (.ok json))))
      [.peerList (s.withReserved cfg conn (s.admittedOthers id)) (s.sampleFor cfg io id) io.now] := by
  change Hears id s (s.onMessage cfg io id (.text (.ok json))).1 _
  rw [onMessage_of_receives h]
  unfold onFrame
  dsimp only
  rw [if_pos h.type]
  dsimp only
  unfold onPeerListRequest
  dsimp only
  have hhas : (s.modifyConn id fun _ => { conn with lastSeenAt := io.now }).connections.has id = true := by
    unfold modifyConn
    rw [JsMap.has_modify]
    exact has_iff_admission.mpr (by rw [isAdmitted_iff.mp ⟨conn, h.get, h.admitted⟩]; rfl)
  have hheard := @hears_sendPeerList cfg io _ id { conn with lastSeenAt := io.now }
    (s.withReserved cfg conn (s.admittedOthers id)) hhas hsend
  rw [sampleFor_modifyConn] at hheard
  rw [admittedOthers_modifyConn]
  exact (hheard.quiet_left (emits_modifyConn id _)).quiet_right (emits_logInfo _ _)

/-- A list that is drawn up is sent, and nothing else that lists anybody. -/
theorem hears_lists (h : Lists cfg io s e id conn peers) (hsend : io.sendError id = none) :
    ∃ frames, Hears id s (s.step cfg io e)
        (frames ++ [.peerList peers (s.sampleFor cfg io id) io.now]) ∧
      ∀ frame ∈ frames, frame.Bare := by
  cases h with
  | @introduction _ _ json h =>
      obtain ⟨frames, hheard, hframes⟩ := hears_onMessage h.hails hsend
      rw [h.full, if_neg Bool.false_ne_true] at hframes
      rw [hframes] at hheard
      refine ⟨[welcomeFrame cfg io id], hheard, fun frame hmem => ?_⟩
      rw [List.mem_singleton.mp hmem]
      exact ⟨rfl, rfl⟩
  | relisted h => exact ⟨[], hears_relisted h hsend, fun frame hmem => by cases hmem⟩

/-- And it is put down what it reached. -/
theorem reach_of_lists (h : Lists cfg io s e id conn peers) (hid : id ≠ cfg.node.reservedId) :
    (s.step cfg io e).record.reach id = (s.record.reach id).map fun p => (p.1, p.2 ||
      (s.record.reachesOlder cfg.cohortMs conn.since peers || decide (s.sampleFor cfg io id ≠ []))) := by
  cases h with
  | @introduction _ _ json h =>
      obtain ⟨hpending, json', heq, htype, hpass⟩ := h.admits
      cases heq
      have hadm : conn.admitted = false := by
        rw [admission, h.get, Option.map_some] at hpending
        exact Option.some.inj hpending
      have hrecord : (s.step cfg io (.message id (.text (.ok json)))).record =
          (s.record.modify id fun m => { m with turnRefreshOnly := false, admitted := true }).introduce
            cfg.cohortMs id conn.since ((greet io s id conn json.revive).introductions cfg io id
              (Conn.ofHello conn json.revive)) (s.sampleFor cfg io id ≠ []) := by
        change (s.onMessage cfg io id (.text (.ok json))).1.record = _
        rw [onMessage_hello h.get hadm htype, (record_onClientHello (get_heard h.get) json.revive).2 hpass,
          record_heard h.get, sampleFor_modifyConn]
        exact if_neg (Bool.eq_false_iff.mp h.full)
      rw [hrecord, Record.reach_introduce, Record.reachesOlder_modify (not_mem_introductions_self hid _)]
      exact congrArg (Option.map _) (Record.reach_modify fun _ => ⟨rfl, rfl⟩)
  | @relisted _ _ json h =>
      change (s.onMessage cfg io id (.text (.ok json))).1.record.reach id = _
      rw [onMessage_of_receives h]
      unfold onFrame
      dsimp only
      rw [if_pos h.type]
      dsimp only
      rw [record_onPeerListRequest, record_heard h.get, admittedOthers_modifyConn, sampleFor_modifyConn]
      exact Record.reach_introduce _ _ _ _

/-- Where no list is drawn up for it, what is put down of a connection stays while it is there. -/
theorem reach_of_not_lists (hno : ∀ conn peers, ¬Lists cfg io s e id conn peers)
    (hconnect : e ≠ .connect id) :
    (s.step cfg io e).record.reach id = none ∨
      (s.step cfg io e).record.reach id = s.record.reach id := by
  have hremembers := remembers_step cfg io s e
  generalize (s.step cfg io e).record = r at hremembers
  cases hremembers with
  | connect connId =>
      refine Or.inr ?_
      unfold Record.reach Record.enter
      dsimp only
      rw [if_neg fun heq => hconnect (by rw [heq])]
  | closed connId code reason =>
      unfold Record.reach Record.enter
      dsimp only
      split
      · exact Or.inl rfl
      · exact Or.inr rfl
  | grace => exact Or.inr (Record.reach_modify fun _ => ⟨rfl, rfl⟩)
  | refused => exact Or.inr (Record.reach_modify fun _ => ⟨rfl, rfl⟩)
  | credential => exact Or.inr (Record.reach_modify fun _ => ⟨rfl, rfl⟩)
  | @introduced connId conn json h =>
      have hne : id ≠ connId := by
        rintro rfl
        exact hno conn _ (.introduction h)
      exact Or.inr ((Record.reach_modify_of_ne hne).trans (Record.reach_modify fun _ => ⟨rfl, rfl⟩))
  | @relisted connId conn json h =>
      have hne : id ≠ connId := by
        rintro rfl
        exact hno conn _ (.relisted h)
      exact Or.inr (Record.reach_modify_of_ne hne)
  | released =>
      refine Or.inr ?_
      unfold Record.reach
      rw [Record.marks_noteGraduated]
  | graduated =>
      refine Or.inr ?_
      unfold Record.reach afterGraduation
      dsimp only
      rw [Record.marks_noteGraduated]
  | _ => exact Or.inr rfl

/-- And it is sent nothing that lists anybody. -/
theorem Says.bare {A : ConnId → Prop} {frame : Frame} (h : Says cfg io A s e id frame)
    (hno : ∀ conn peers, ¬Lists cfg io s e id conn peers) : frame.Bare := by
  cases h with
  | introduction h graduated => exact absurd (.introduction h) (hno _ _)
  | relisted h graduated => exact absurd (.relisted h) (hno _ _)
  | _ => exact ⟨rfl, rfl⟩

/-- A list that is drawn up names the bridge itself and connections that are admitted. -/
theorem Lists.peer (h : Lists cfg io s e id conn peers) (hid : id ≠ cfg.node.reservedId) {peer : ConnId}
    (hmem : peer ∈ peers) : peer = cfg.node.reservedId ∨ s.IsAdmitted peer := by
  cases h with
  | @introduction _ _ json h =>
      refine (mem_introductions hmem).symm.imp_right fun hlisted => ?_
      rcases isAdmitted_greet (isAdmitted_of_mem_introduce hlisted) with rfl | hadm
      · exact absurd hmem (not_mem_introductions_self hid _)
      · exact hadm
  | relisted h => exact (mem_withReserved hmem).symm.imp_right isAdmitted_of_mem_admittedOthers

theorem Says.lists {A : ConnId → Prop} {frame : Frame} (h : Says cfg io A s e id frame) :
    frame.Bare ∨ ∃ conn, Lists cfg io s e id conn frame.peers := by
  cases h with
  | introduction h graduated => exact Or.inr ⟨_, .introduction h⟩
  | relisted h graduated => exact Or.inr ⟨_, .relisted h⟩
  | _ => exact Or.inl ⟨rfl, rfl⟩

end Server

namespace Stage

variable {id : ConnId} {frames : List Frame}

theorem next_ne_unopened (st : Stage) (frame : Frame) : next id st frame ≠ some .unopened := by
  intro h
  unfold next at h
  split at h <;> try split at h
  all_goals cases h

/-- A session that has heard anything is open. -/
theorem eq_nil_of_unopened (h : run id frames = some .unopened) : frames = [] := by
  rcases List.eq_nil_or_concat frames with hnil | ⟨before, last, rfl⟩
  · exact hnil
  · unfold run at h
    rw [List.concat_eq_append, List.foldlM_append] at h
    obtain ⟨st, -, hlast⟩ := Option.bind_eq_some_iff.mp h
    obtain ⟨st', hnext, heq⟩ := Option.bind_eq_some_iff.mp hlast
    rw [List.foldlM_nil] at heq
    obtain rfl := Option.some.inj heq
    exact absurd hnext (next_ne_unopened st last)

end Stage

namespace Bridge

variable {cfg : Config} {b : Bridge} {es : List (Io × Event)} {e : Io × Event} {id : ConnId}

/-- After a run the record says what was said. -/
structure Told (cfg : Config) (b : Bridge) (es : List (Io × Event)) : Prop where
  reach : ∀ id since reached, b.server.record.reach id = some (since, reached) →
    openedAt es id = some since ∧
      reached = (b.server.framesTo id).any (Frame.reaches cfg.cohortMs (openedAt es) since)
  named : ∀ id, ∀ frame ∈ b.server.framesTo id, ∀ peer ∈ frame.peers,
    peer = cfg.node.reservedId ∨ ∃ t, openedAt es peer = some t

/-- A connection that was opened has had its id minted, and one that was not has heard nothing. -/
structure Opens (b : Bridge) (es : List (Io × Event)) : Prop where
  minted : ∀ id t, openedAt es id = some t → ∃ i, i ≤ b.connSeq ∧ id = mintConnId i
  silent : ∀ id, openedAt es id = none → b.server.framesTo id = []

theorem opens_of_valid {reportBound : Bool} (hes : (system cfg reportBound).Valid (init cfg reportBound) es)
    (hsend : ∀ e ∈ es, e.1.SendsReturn) :
    Opens ((system cfg reportBound).after (init cfg reportBound) es) es := by
  constructor
  · intro id t hopened
    obtain ⟨st, hst⟩ := @hasSession_of_valid _ id _ _ hes hsend
    refine hst.now.minted (hst.opened.mpr ?_)
    by_contra hno
    cases (openedAt_eq_none_iff.mpr hno).symm.trans hopened
  · intro id hnone
    obtain ⟨st, hst⟩ := @hasSession_of_valid _ id _ _ hes hsend
    have hunopened : st = .unopened :=
      not_not.mp fun hne => openedAt_eq_none_iff.mp hnone (hst.opened.mp hne)
    exact Stage.eq_nil_of_unopened (hunopened ▸ hst.now.run)

theorem Opens.reserved (h : b.Opens es) : openedAt es cfg.node.reservedId = none := by
  by_contra hsome
  obtain ⟨t, ht⟩ := Option.ne_none_iff_exists'.mp hsome
  obtain ⟨i, -, heq⟩ := h.minted _ t ht
  exact mintConnId_ne_reservedId i cfg.node.epoch heq.symm

theorem Told.opened (h : b.Told cfg es) {conn : Conn} (hget : b.server.connections.get id = some conn) :
    openedAt es id = some conn.since :=
  (h.reach id conn.mark.since conn.mark.reached (by rw [Record.reach, Server.marks_record, hget]; rfl)).1

theorem Tracked.ne_reserved (hb : b.Tracked) {conn : Conn} (hget : b.server.connections.get id = some conn) :
    id ≠ cfg.node.reservedId :=
  ne_reservedId_of_isSome hb (by rw [Server.admission, hget]; rfl)

theorem Told.named_step (h : b.Told cfg es) (hb : b.Tracked) : ∀ frame ∈ (b.step cfg e).server.framesTo id,
    ∀ peer ∈ frame.peers, peer = cfg.node.reservedId ∨ ∃ t, openedAt (es ++ [e]) peer = some t := by
  intro frame hmem peer hpeer
  obtain ⟨frames, hheard, hall⟩ := Server.exists_hears (@says_step cfg b e) id
  rw [show (b.step cfg e).server.framesTo id = _ from hheard] at hmem
  rcases List.mem_append.mp hmem with hold | hnew
  · exact (h.named id frame hold peer hpeer).imp_right fun ⟨t, ht⟩ => ⟨t, openedAt_snoc_of_some ht⟩
  · rcases (hall frame hnew).1.lists with hbare | ⟨conn, hlists⟩
    · rw [hbare.1] at hpeer
      cases hpeer
    · refine (hlists.peer (hb.ne_reserved hlists.get) hpeer).imp_right fun ⟨c, hget, _⟩ => ?_
      exact ⟨_, openedAt_snoc_of_some (h.opened hget)⟩

section Step

variable (hopens : b.Opens es) (hb : b.Tracked) (he : b.Enabled cfg e)

include hopens he

theorem openedAt_connect (hconnect : e.2 = .connect id) :
    openedAt es id = none ∧ openedAt (es ++ [e]) id = some e.1.now := by
  have hnone : openedAt es id = none := by
    by_contra hsome
    obtain ⟨t, ht⟩ := Option.ne_none_iff_exists'.mp hsome
    exact ne_connect_of_minted he (hopens.minted _ t ht) hconnect
  exact ⟨hnone, openedAt_snoc_of_none hnone hconnect⟩

theorem openedAt_reserved_step : openedAt (es ++ [e]) cfg.node.reservedId = none := by
  have hne : e.2 ≠ .connect cfg.node.reservedId := by
    intro hconnect
    have hfresh : cfg.node.reservedId = mintConnId (b.connSeq + 1) := he.of_event hconnect
    exact mintConnId_ne_reservedId _ cfg.node.epoch hfresh.symm
  rw [openedAt_snoc_of_ne hne, hopens.reserved]

/-- What was said before reaches as far as it did. -/
theorem Told.any_reaches_snoc (h : b.Told cfg es) (since : Int) :
    (b.server.framesTo id).any (Frame.reaches cfg.cohortMs (openedAt (es ++ [e])) since) =
      (b.server.framesTo id).any (Frame.reaches cfg.cohortMs (openedAt es) since) := by
  refine any_congr_of_mem fun frame hframe => Frame.reaches_congr (fun peer hpeer => ?_) _ _
  rcases h.named id frame hframe peer hpeer with rfl | ⟨t, ht⟩
  · rw [hopens.reserved, openedAt_reserved_step hopens he]
  · rw [ht, openedAt_snoc_of_some ht]

include hb

/-- A list that is drawn up reaches as far as the record of its peers says. -/
theorem Told.reaches_list (h : b.Told cfg es) {conn : Conn} {peers : List ConnId}
    (hlists : Server.Lists cfg e.1 b.server e.2 id conn peers) (sample : List JsString) (now since : Int) :
    Frame.reaches cfg.cohortMs (openedAt (es ++ [e])) since (.peerList peers sample now) =
      (b.server.record.reachesOlder cfg.cohortMs since peers || decide (sample ≠ [])) := by
  refine congrArg (· || _) (any_congr_of_mem fun peer hpeer => ?_)
  rcases hlists.peer (hb.ne_reserved hlists.get) hpeer with rfl | ⟨c, hget, hadm⟩
  · -- the bridge itself is no connection
    have hnone : b.server.connections.get cfg.node.reservedId = none :=
      Option.eq_none_iff_forall_ne_some.mpr fun c hget => hb.ne_reserved hget rfl
    rw [openedAt_reserved_step hopens he, Server.marks_record, hnone]
    rfl
  · have hmark : b.server.record.marks peer = some c.mark := by
      rw [Server.marks_record, hget]
      rfl
    rw [openedAt_snoc_of_some (h.opened hget), hmark]
    exact (congrArg (· && _) hadm).symm

theorem Told.step (h : b.Told cfg es) (hsend : e.1.SendsReturn) :
    (b.step cfg e).Told cfg (es ++ [e]) := by
  refine ⟨fun id since reached hreach => ?_, fun id => h.named_step hb⟩
  by_cases hconnect : e.2 = .connect id
  · -- nothing is said of the new connection yet, nor to it
    obtain ⟨hnone, hopened⟩ := openedAt_connect hopens he hconnect
    have hserver : (b.step cfg e).server = b.server.onConnection cfg e.1 id := server_step_of_event hconnect
    have hheard := @Server.hears_onConnection cfg e.1 b.server id (hsend id)
    rw [hserver, Server.record_onConnection, Record.reach, Record.enter] at hreach
    dsimp only at hreach
    rw [if_pos rfl] at hreach
    cases hreach
    refine ⟨hopened, ?_⟩
    rw [hserver, show (b.server.onConnection cfg e.1 id).framesTo id = _ from hheard, hopens.silent id hnone]
    rfl
  · by_cases hlists : ∃ conn peers, Server.Lists cfg e.1 b.server e.2 id conn peers
    · obtain ⟨conn, peers, hlists⟩ := hlists
      have hmark : b.server.record.reach id = some (conn.since, conn.mark.reached) := by
        rw [Record.reach, Server.marks_record, hlists.get]
        rfl
      obtain ⟨hopened, hreached⟩ := h.reach id _ _ hmark
      obtain ⟨frames, hheard, hbare⟩ := Server.hears_lists hlists (hsend id)
      have hreach' := (Server.reach_of_lists hlists (hb.ne_reserved hlists.get)).symm.trans hreach
      rw [hmark] at hreach'
      cases hreach'
      refine ⟨openedAt_snoc_of_some hopened, ?_⟩
      rw [show (b.step cfg e).server.framesTo id = _ from hheard, List.any_append, List.any_append,
        h.any_reaches_snoc hopens he, ← hreached, Frame.any_reaches_of_bare hbare, Bool.false_or,
        List.any_cons, List.any_nil, Bool.or_false, h.reaches_list hopens hb he hlists]
    · have hno : ∀ conn peers, ¬Server.Lists cfg e.1 b.server e.2 id conn peers := fun conn peers hl =>
        hlists ⟨conn, peers, hl⟩
      obtain ⟨frames, hheard, hall⟩ := Server.exists_hears (@says_step cfg b e) id
      rcases Server.reach_of_not_lists hno hconnect with hnone | hsame
      · cases hnone.symm.trans hreach
      · obtain ⟨hopened, hreached⟩ := h.reach id _ _ (hsame.symm.trans hreach)
        refine ⟨openedAt_snoc_of_some hopened, ?_⟩
        rw [show (b.step cfg e).server.framesTo id = _ from hheard, List.any_append,
          h.any_reaches_snoc hopens he, ← hreached,
          Frame.any_reaches_of_bare fun frame hmem => (hall frame hmem).1.bare hno, Bool.or_false]

end Step

section Runs

variable {reportBound : Bool}

theorem told_of_valid (hes : (system cfg reportBound).Valid (init cfg reportBound) es) :
    (∀ e ∈ es, e.1.SendsReturn) →
      Told cfg ((system cfg reportBound).after (init cfg reportBound) es) es := by
  refine System.Valid.history (P := fun es => (∀ e ∈ es, e.1.SendsReturn) →
    Told cfg ((system cfg reportBound).after (init cfg reportBound) es) es) ?_ ?_ hes
  · exact fun _ => ⟨fun id since reached h => (by cases h), fun id frame h => (by cases h)⟩
  · intro es e hes he ih hsend
    have hbefore : ∀ e ∈ es, e.1.SendsReturn := fun e hmem => hsend e (List.mem_append_left _ hmem)
    rw [System.after_append]
    exact (ih hbefore).step (opens_of_valid hes hbefore) (tracked_of_valid hes) he
      (hsend e (List.mem_append_right _ List.mem_cons_self))

/-- **The gate reads what was said.** Of a present connection the gate reads that its introduction reached
outside its cohort exactly when it was sent a list that names a connection opened more than a cohort before
it, or that carries ids of the graduated, or when its channel to the bridge is bound. -/
theorem introducedOutsideCohort_eq_told (cfg : Config) (reportBound : Bool) (es : List (Io × Event))
    (hes : (system cfg reportBound).Valid (init cfg reportBound) es)
    (hsend : ∀ e ∈ es, e.1.SendsReturn) (id : ConnId) (conn : Conn)
    (hget : ((system cfg reportBound).after (init cfg reportBound) es).server.connections.get id =
      some conn) :
    openedAt es id = some conn.since ∧
      ((system cfg reportBound).after (init cfg reportBound) es).server.introducedOutsideCohort cfg id conn =
        ((((system cfg reportBound).after (init cfg reportBound) es).server.framesTo id).any
            (Frame.reaches cfg.cohortMs (openedAt es) conn.since) ||
          (cfg.node.sb.isSome && decide (id ∈
            ((system cfg reportBound).after (init cfg reportBound) es).server.node.doorChannelBound))) := by
  have htold := told_of_valid hes hsend
  refine ⟨htold.opened hget, congrArg (· || _) ?_⟩
  exact (htold.reach id conn.since conn.mark.reached
    (by rw [Record.reach, Server.marks_record, hget]; rfl)).2

/-- A connection is admitted more than a cohort after another. -/
def cohortApart : List (Io × Event) :=
  [({ now := 1 }, .connect (js "c1")), hello { now := 2 } (js "c1"), ({ now := 61000 }, .connect (js "c2")),
    hello { now := 61001 } (js "c2")]

theorem sendsReturn_cohortApart : ∀ e ∈ cohortApart, e.1.SendsReturn := by
  intro e hmem connId
  simp only [cohortApart, hello, List.mem_cons, List.not_mem_nil, or_false] at hmem
  rcases hmem with rfl | rfl | rfl | rfl <;> rfl

theorem introducedOutsideCohort_cohortApart :
    ∃ conn, ((system Server.plain false).after (init Server.plain false)
        cohortApart).server.connections.get (js "c2") = some conn ∧
      ((system Server.plain false).after (init Server.plain false)
        cohortApart).server.introducedOutsideCohort Server.plain (js "c2") conn = true := by
  obtain ⟨conn, hget⟩ := Option.isSome_iff_exists.mp (show (((system Server.plain false).after
    (init Server.plain false) cohortApart).server.connections.get (js "c2")).isSome = true by decide +kernel)
  obtain ⟨hopened, htold⟩ := introducedOutsideCohort_eq_told Server.plain false cohortApart
    (valid_of_openRun (by decide +kernel)) sendsReturn_cohortApart (js "c2") conn hget
  have hsince : conn.since = 61000 := (Option.some.inj hopened).symm
  refine ⟨conn, hget, htold.trans ?_⟩
  rw [hsince]
  decide +kernel

end Runs

end Bridge

end AxonaBridge
