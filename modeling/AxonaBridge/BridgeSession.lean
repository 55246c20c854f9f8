import AxonaBridge.BridgeCredential
import AxonaBridge.BridgeIsolation

/-!
# One connection's session

What a connection is sent, in order: the version gate when it opens, signals at most while it waits,
then the welcome, then the list of peers unless it came for a credential alone, and from then on
anything but a second gate or welcome.
-/

open JsText

namespace AxonaBridge

/-- A frame that opens a session or a part of it. -/
def Frame.isOpening : Frame → Bool
  | .versionGate .. => true
  | .welcome .. => true
  | _ => false

def Frame.isSignal : Frame → Bool
  | .signal .. => true
  | _ => false

theorem Out.eq_of_frameTo {connId : ConnId} {o : Out} {frame : Frame} (h : o.frameTo connId = some frame) :
    o = .frame connId frame := by
  cases o with
  | frame recipient msg =>
      dsimp only [Out.frameTo] at h
      split_ifs at h with heq
      rw [heq, Option.some.inj h]
  | _ => cases h

namespace Server

variable {cfg : Config} {io : Io} {s t u : Server} {id : ConnId}

/-! ### What one connection hears -/

/-- Between two states a connection was sent these frames, in this order. -/
def Hears (id : ConnId) (s t : Server) (frames : List Frame) : Prop :=
  t.framesTo id = s.framesTo id ++ frames

theorem Hears.trans {frames frames' : List Frame} (h : Hears id s t frames) (h' : Hears id t u frames') :
    Hears id s u (frames ++ frames') := by
  unfold Hears at *
  rw [h', h, List.append_assoc]

theorem hears_nil (h : Emits (fun recipient _ => recipient ≠ id) s t) : Hears id s t [] :=
  (framesTo_of_emits h).trans (List.append_nil _).symm

/-- What comes before or after without a word to the connection changes nothing of what it hears. -/
theorem Hears.quiet_left {frames : List Frame} (h : Hears id t u frames)
    (hquiet : Emits (fun recipient _ => recipient ≠ id) s t) : Hears id s u frames :=
  (hears_nil hquiet).trans h

theorem Hears.quiet_right {frames : List Frame} (h : Hears id s t frames)
    (hquiet : Emits (fun recipient _ => recipient ≠ id) t u) : Hears id s u frames := by
  have hboth := h.trans (hears_nil hquiet)
  rw [List.append_nil] at hboth
  exact hboth

/-- What the connection hears of a step is what the step adds for it. -/
theorem exists_hears {P : ConnId → Frame → Prop} (h : Emits P s t) (id : ConnId) :
    ∃ frames, Hears id s t frames ∧ ∀ frame ∈ frames, P id frame ∧ Sent s t id frame := by
  obtain ⟨added, hout, hadded⟩ := h
  refine ⟨added.filterMap (Out.frameTo id), ?_, fun frame hmem => ?_⟩
  · unfold Hears framesTo
    rw [hout, List.filterMap_append]
  · obtain ⟨o, ho, hto⟩ := List.mem_filterMap.mp hmem
    have heq := Out.eq_of_frameTo hto
    rw [heq] at ho
    exact ⟨hadded id frame ho, added, hout, ho⟩

theorem Hears.all {P : ConnId → Frame → Prop} {frames : List Frame} (hheard : Hears id s t frames)
    (h : Emits P s t) : ∀ frame ∈ frames, P id frame ∧ Sent s t id frame := by
  obtain ⟨frames', hheard', hall⟩ := exists_hears h id
  rw [List.append_cancel_left (hheard.symm.trans hheard')]
  exact hall

theorem Hears.mem_of_sent {frames : List Frame} (h : Hears id s t frames) {frame : Frame}
    (hsent : Sent s t id frame) : frame ∈ frames := by
  obtain ⟨added, hout, hmem⟩ := hsent
  unfold Hears framesTo at h
  rw [hout, List.filterMap_append] at h
  rw [← List.append_cancel_left h]
  exact List.mem_filterMap.mpr ⟨_, hmem, if_pos rfl⟩

theorem hears_sendTo {msg : Frame} (hhas : s.connections.has id = true) (hsend : io.sendError id = none) :
    Hears id s (s.sendTo cfg io id msg).2 [msg] := by
  unfold Hears framesTo sendTo wsSend
  simp [hhas, hsend, Out.frameTo]

/-! ### An admission -/

theorem hears_sendPeerList (conn : Conn) (peers : List ConnId) (hhas : s.connections.has id = true)
    (hsend : io.sendError id = none) :
    Hears id s (s.sendPeerList cfg io id conn peers).2
      [.peerList peers (s.sampleFor cfg io id) io.now] := by
  unfold sendPeerList sampleFor
  dsimp only
  refine Hears.quiet_left (hears_sendTo ?_ hsend) (Emits.of_out_eq (out_graduatedSample id))
  rw [has_iff_admission, admission_recordIntroduction, admission_graduatedSample, ← has_iff_admission]
  exact hhas

theorem hears_announce (conn : Conn) (hhas : s.connections.has id = true) (hsend : io.sendError id = none) :
    Hears id s (s.announce cfg io id conn)
      [.peerList (s.introductions cfg io id conn) (s.sampleFor cfg io id) io.now] := by
  unfold announce
  dsimp only
  rw [withReserved_introduce,
    ← sampleFor_congr (registry_introduce id conn.claimedRegion) (node_introduce id conn.claimedRegion)]
  refine Hears.quiet_right ?_ (emits_withNode fun o ho => ?_)
  · refine Hears.quiet_right ?_ (emits_logInfo _ _)
    refine Hears.quiet_right ?_ (emits_broadcast fun connId _ hne _ heq => hne (congrArg some heq))
    refine Hears.quiet_left (hears_sendPeerList conn _ ?_ hsend) (Emits.of_out_eq (out_introduce _ _))
    rw [has_iff_admission, admission_introduce, ← has_iff_admission]
    exact hhas
  · -- the hello is built later, and nothing is sent before it is
    have hwithin := @sendsWithin_sendHello (fun _ => False) cfg.node.reservedId _ id io.nonce o ho
    cases o with
    | send connId payload => exact absurd hwithin not_false
    | signal connId sender payload => exact absurd hwithin.1 not_false
    | close connId reason => trivial
    | log row => trivial

/-- The welcome a connection is sent. -/
def welcomeFrame (cfg : Config) (io : Io) (id : ConnId) : Frame :=
  .welcome id io.now cfg.version cfg.kernelVersion io.nonce (makeTurnCredential cfg io)

theorem hears_admitConnection (conn : Conn) (hhas : s.connections.has id = true)
    (hsend : io.sendError id = none) :
    if conn.turnRefreshOnly then Hears id s (s.admitConnection cfg io id conn) [welcomeFrame cfg io id]
    else Hears id s (s.admitConnection cfg io id conn)
      [welcomeFrame cfg io id, .peerList ((s.modifyConn id fun c =>
        { c with helloTimer := false, admitted := true }).introductions cfg io id conn)
          (s.sampleFor cfg io id) io.now] := by
  have hhas' : (s.modifyConn id fun c => { c with helloTimer := false, admitted := true }).connections.has id =
      true := by
    unfold modifyConn
    rw [JsMap.has_modify]
    exact hhas
  have hwelcome := Hears.quiet_left (@hears_sendTo cfg io _ id (welcomeFrame cfg io id) hhas' hsend)
    (@emits_modifyConn s _ id fun c => { c with helloTimer := false, admitted := true })
  split
  · rename_i hrefresh
    unfold admitConnection
    dsimp only
    rw [if_pos hrefresh]
    exact hwelcome.quiet_right (emits_releaseLater id conn)
  · rename_i hfull
    unfold admitConnection
    dsimp only
    rw [if_neg hfull]
    have hlisted := @hears_announce cfg io ((s.modifyConn id fun c =>
      { c with helloTimer := false, admitted := true }).sendTo cfg io id (welcomeFrame cfg io id)).2 id conn
      (by rw [has_iff_admission, admission_sendTo, ← has_iff_admission]; exact hhas') hsend
    rw [introductions_congr (connections_sendTo _ _) (node_sendTo _ _),
      sampleFor_congr (s := s) ?_ ?_] at hlisted
    · exact hwelcome.trans hlisted
    · rw [registry_sendTo]
      rfl
    · rw [node_sendTo]
      rfl

/-! ### Who is admitted, and for what -/

/-- What an admitted connection came for: `true` for a credential alone. -/
def admittedAs (s : Server) (id : ConnId) : Option Bool :=
  ((s.record.marks id).filter Mark.admitted).map Mark.turnRefreshOnly

theorem admittedAs_iff {refresh : Bool} :
    s.admittedAs id = some refresh ↔
      ∃ m, s.record.marks id = some m ∧ m.admitted = true ∧ m.turnRefreshOnly = refresh := by
  unfold admittedAs
  rw [Option.map_eq_some_iff]
  constructor
  · rintro ⟨m, hm, hrefresh⟩
    obtain ⟨hm, hadm⟩ := Option.filter_eq_some_iff.mp hm
    exact ⟨m, hm, hadm, hrefresh⟩
  · rintro ⟨m, hm, hadm, hrefresh⟩
    exact ⟨m, Option.filter_eq_some_iff.mpr ⟨hm, hadm⟩, hrefresh⟩

theorem isAdmitted_iff_admittedAs : s.IsAdmitted id ↔ ∃ refresh, s.admittedAs id = some refresh := by
  constructor
  · rintro ⟨conn, hget, hadm⟩
    exact ⟨conn.turnRefreshOnly, admittedAs_iff.mpr ⟨conn.mark, congrArg (Option.map Conn.mark) hget, hadm, rfl⟩⟩
  · rintro ⟨refresh, h⟩
    obtain ⟨m, hm, hadm, -⟩ := admittedAs_iff.mp h
    obtain ⟨conn, hget, rfl⟩ := Option.map_eq_some_iff.mp hm
    exact ⟨conn, hget, hadm⟩

/-- A client-hello admits the connection, for what it asks for. -/
structure Hails (cfg : Config) (s : Server) (id : ConnId) (conn : Conn) (json : JsVal) : Prop where
  admits : Admits cfg s id (.text (.ok json))
  get : s.connections.get id = some conn

theorem Introduces.hails {conn : Conn} {json : JsVal} (h : Introduces cfg s id conn json) :
    Hails cfg s id conn json :=
  ⟨h.admits, h.get⟩

/-- What a connection was admitted for stays as its client-hello said. -/
theorem admittedAs_step {e : Event} {refresh : Bool} (h : (s.step cfg io e).admittedAs id = some refresh) :
    s.admittedAs id = some refresh ∨
      ∃ conn json, e = .message id (.text (.ok json)) ∧ Hails cfg s id conn json ∧
        (Conn.ofHello conn json.revive).turnRefreshOnly = refresh := by
  obtain ⟨m', hm', hadm', hrefresh⟩ := admittedAs_iff.mp h
  have hold : s.record.marks id = some m' → s.admittedAs id = some refresh := fun hm =>
    admittedAs_iff.mpr ⟨m', hm, hadm', hrefresh⟩
  have hremembers := remembers_step cfg io s e
  generalize (s.step cfg io e).record = r at hremembers hm'
  cases hremembers with
  | same hleaves => exact Or.inl (hold hm')
  | connect id' =>
      dsimp only [Record.enter] at hm'
      split_ifs at hm'
      · obtain rfl := Option.some.inj hm'
        cases hadm'
      · exact Or.inl (hold hm')
  | closed id' code reason =>
      dsimp only [Record.enter] at hm'
      split_ifs at hm'
      exact Or.inl (hold hm')
  | grace hget hno hfirst hstall =>
      obtain ⟨m, hm, ⟨heq, rfl⟩ | rfl⟩ := Record.exists_of_marks_modify hm'
      · exact Or.inl (admittedAs_iff.mpr ⟨m, hm, hadm', hrefresh⟩)
      · exact Or.inl (hold hm)
  | refused hget hno =>
      obtain ⟨m, hm, ⟨rfl, rfl⟩ | rfl⟩ := Record.exists_of_marks_modify hm'
      · obtain rfl := Option.some.inj ((congrArg (Option.map Conn.mark) hget).symm.trans hm)
        cases hno.symm.trans hadm'
      · exact Or.inl (hold hm)
  | credential hadmits hget hask =>
      obtain ⟨m, hm, ⟨rfl, rfl⟩ | rfl⟩ := Record.exists_of_marks_modify hm'
      · exact Or.inr ⟨_, _, rfl, ⟨hadmits, hget⟩, hask.trans hrefresh⟩
      · exact Or.inl (hold hm)
  | introduced hintro =>
      -- the mark is made twice: admitted and then introduced
      obtain ⟨m, hm, ⟨rfl, rfl⟩ | rfl⟩ := Record.exists_of_marks_modify hm'
      · obtain ⟨m, hm, ⟨-, rfl⟩ | rfl⟩ := Record.exists_of_marks_modify hm
        · exact Or.inr ⟨_, _, rfl, hintro.hails, hintro.full.trans hrefresh⟩
        · exact Or.inl (admittedAs_iff.mpr ⟨m, hm, hadm', hrefresh⟩)
      · obtain ⟨m, hm, ⟨rfl, rfl⟩ | rfl⟩ := Record.exists_of_marks_modify hm
        · exact Or.inr ⟨_, _, rfl, hintro.hails, hintro.full.trans hrefresh⟩
        · exact Or.inl (hold hm)
  | relisted hlist =>
      obtain ⟨m, hm, ⟨rfl, rfl⟩ | rfl⟩ := Record.exists_of_marks_modify hm'
      · exact Or.inl (admittedAs_iff.mpr ⟨m, hm, hadm', hrefresh⟩)
      · exact Or.inl (hold hm)
  | released hrelease =>
      rw [Record.marks_noteGraduated] at hm'
      exact Or.inl (hold hm')
  | graduated hdue hpick =>
      dsimp only [afterGraduation] at hm'
      rw [Record.marks_noteGraduated] at hm'
      exact Or.inl (hold hm')
  | heartbeat => exact Or.inl (hold hm')

/-- Only a connection that opens comes into the table. -/
theorem eq_connect_of_has_step {e : Event} (hno : ¬s.connections.has id = true)
    (h : (s.step cfg io e).connections.has id = true) : e = .connect id := by
  rw [has_iff_admission] at hno h
  rcases @admission_step cfg io s e id with ⟨hconnect, -⟩ | ⟨code, reason, -, hgone⟩ | ⟨_, -, hadmits, -⟩ | hsame
  · exact hconnect
  · rw [hgone] at h
    cases h
  · rw [hadmits.1] at hno
    exact absurd rfl hno
  · rw [hsame] at h
    exact absurd h hno

/-- Both halves of what an admission sends. -/
theorem hears_onMessage {conn : Conn} {json : JsVal} (h : Hails cfg s id conn json)
    (hsend : io.sendError id = none) :
    ∃ frames, Hears id s (s.onMessage cfg io id (.text (.ok json))).1 (welcomeFrame cfg io id :: frames) ∧
      frames = if (Conn.ofHello conn json.revive).turnRefreshOnly then []
        else [.peerList ((greet io s id conn json.revive).introductions cfg io id
          (Conn.ofHello conn json.revive)) (s.sampleFor cfg io id) io.now] := by
  obtain ⟨hpending, json', heq, htype, hpass⟩ := h.admits
  cases heq
  have hadm : conn.admitted = false := by
    rw [admission, h.get, Option.map_some] at hpending
    exact Option.some.inj hpending
  obtain ⟨peerVersion, ns, floor, hpassed⟩ := hpass
  have hnone : refusal cfg id json.revive (gate cfg json.revive) = none :=
    refusal_eq_none_iff.mpr ⟨_, _, _, hpassed⟩
  rw [onMessage_hello h.get hadm htype]
  unfold onClientHello
  dsimp only
  rw [hnone, hpassed]
  dsimp only
  generalize hs' : Server.logInfo cfg _ (js "client-hello-admitted") _ = s'
  have hemits : Emits (fun recipient _ => recipient ≠ id) s s' := by
    rw [← hs']
    exact (emits_modifyConn id _).trans ((emits_modifyConn id _).trans (emits_logInfo _ _))
  have hhas : s'.connections.has id = true := by
    rw [← hs', connections_logInfo, modifyConn, JsMap.has_modify, modifyConn, JsMap.has_modify]
    exact has_iff_admission.mpr (by rw [hpending]; rfl)
  have hheard := @hears_admitConnection cfg io s' id (Conn.ofHello { conn with lastSeenAt := io.now }
    json.revive) hhas hsend
  have hask : (Conn.ofHello { conn with lastSeenAt := io.now } json.revive).turnRefreshOnly =
      (Conn.ofHello conn json.revive).turnRefreshOnly := rfl
  rw [hask] at hheard
  split at hheard
  · rename_i hrefresh
    exact ⟨[], hheard.quiet_left hemits, (if_pos hrefresh).symm⟩
  · rename_i hfull
    have hpeers : (s'.modifyConn id fun c => { c with helloTimer := false, admitted := true }).introductions
        cfg io id (Conn.ofHello { conn with lastSeenAt := io.now } json.revive) =
          (greet io s id conn json.revive).introductions cfg io id (Conn.ofHello conn json.revive) := by
      rw [← hs']
      exact introductions_congr (connections_modifyConn_congr (connections_logInfo _ _) id _)
        (by rw [node_modifyConn, node_logInfo]; rfl) id _
    have hsample : s'.sampleFor cfg io id = s.sampleFor cfg io id := by
      refine sampleFor_congr ?_ ?_ id
      · rw [← hs', registry_logInfo]
        rfl
      · rw [← hs', node_logInfo]
        rfl
    rw [hpeers, hsample] at hheard
    exact ⟨_, hheard.quiet_left hemits, (if_neg hfull).symm⟩

theorem hears_onConnection (hsend : io.sendError id = none) :
    Hears id s (s.onConnection cfg io id) [.versionGate cfg.minPeerVersion io.now] := by
  unfold onConnection
  dsimp only
  refine Hears.quiet_left (hears_sendTo ?_ hsend) ?_
  · rw [connections_logInfo, JsMap.has, JsMap.get_set_self]
    rfl
  · exact Emits.congr_left rfl (emits_logInfo _ _)

end Server

/-! ### The stages of a session -/

/-- How far a session is. -/
inductive Stage where
  | unopened
  | gated
  | welcomed
  | listed
  | unlisted
  deriving DecidableEq

namespace Stage

/-- The stages of an admitted connection. -/
def isWelcomed : Stage → Bool
  | .welcomed => true
  | .listed => true
  | .unlisted => true
  | _ => false

/-- What a frame makes of the session of `id`; out of turn it has no place there. -/
def next (id : ConnId) : Stage → Frame → Option Stage
  | .unopened, .versionGate .. => some .gated
  | .gated, .signal .. => some .gated
  | .gated, .welcome connId .. => if connId = id then some .welcomed else none
  | .welcomed, .peerList .. => some .listed
  | .welcomed, frame => if frame.isOpening then none else some .unlisted
  | .listed, frame => if frame.isOpening then none else some .listed
  | .unlisted, frame => if frame.isOpening then none else some .unlisted
  | _, _ => none

/-- The stage a session has come to. -/
def run (id : ConnId) (frames : List Frame) : Option Stage := frames.foldlM (next id) .unopened

variable {id : ConnId} {st : Stage} {frames more : List Frame}

theorem run_append (h : run id frames = some st) : run id (frames ++ more) = more.foldlM (next id) st := by
  unfold run at *
  rw [List.foldlM_append, h]
  rfl

/-- Signals leave a pending session where it is. -/
theorem foldlM_gated (h : ∀ frame ∈ frames, frame.isSignal = true) :
    frames.foldlM (next id) .gated = some .gated := by
  induction frames with
  | nil => rfl
  | cons frame frames ih =>
      have hfirst := h frame List.mem_cons_self
      cases frame with
      | signal sender payload => exact ih fun frame hmem => h frame (List.mem_cons_of_mem _ hmem)
      | _ => cases hfirst

theorem next_welcomed (hst : st.isWelcomed = true) {frame : Frame} (h : frame.isOpening = false) :
    ∃ st', next id st frame = some st' ∧ st'.isWelcomed = true ∧ (st = .listed → st' = .listed) := by
  cases st with
  | unopened => cases hst
  | gated => cases hst
  | welcomed =>
      cases frame with
      | versionGate => cases h
      | welcome => cases h
      | peerList peers graduated serverT => exact ⟨.listed, rfl, rfl, fun _ => rfl⟩
      | _ => exact ⟨.unlisted, rfl, rfl, fun heq => by cases heq⟩
  | listed => exact ⟨.listed, if_neg (by rw [h]; exact Bool.false_ne_true), rfl, fun _ => rfl⟩
  | unlisted =>
      refine ⟨.unlisted, if_neg (by rw [h]; exact Bool.false_ne_true), rfl, fun heq => by cases heq⟩

/-- Once welcomed, a session is not opened again, and a list it began with stays. -/
theorem foldlM_welcomed (hst : st.isWelcomed = true) (h : ∀ frame ∈ frames, frame.isOpening = false) :
    ∃ st', frames.foldlM (next id) st = some st' ∧ st'.isWelcomed = true ∧
      (st = .listed → st' = .listed) := by
  induction frames generalizing st with
  | nil => exact ⟨st, rfl, hst, fun heq => heq⟩
  | cons frame frames ih =>
      obtain ⟨st₁, hnext, hst₁, hlisted⟩ := @next_welcomed id st hst frame (h frame List.mem_cons_self)
      obtain ⟨st', hrest, hst', hkept⟩ := ih hst₁ fun frame hmem => h frame (List.mem_cons_of_mem _ hmem)
      refine ⟨st', ?_, hst', fun heq => hkept (hlisted heq)⟩
      rw [List.foldlM_cons, hnext]
      exact hrest

end Stage

namespace Bridge

variable {cfg : Config} {b : Bridge} {e : Io × Event} {id : ConnId}

/-- A client-hello admits the connection. -/
def HailsAt (cfg : Config) (id : ConnId) (b : Bridge) (e : Io × Event) : Prop :=
  ∃ conn json, e.2 = .message id (.text (.ok json)) ∧ Server.Hails cfg b.server id conn json

/-- A client-hello introduces the connection. -/
def IntroducesAt (cfg : Config) (id : ConnId) (b : Bridge) (e : Io × Event) : Prop :=
  ∃ conn json, e.2 = .message id (.text (.ok json)) ∧ Server.Introduces cfg b.server id conn json

theorem IntroducesAt.hailsAt (h : IntroducesAt cfg id b e) : HailsAt cfg id b e := by
  obtain ⟨conn, json, heq, hintro⟩ := h
  exact ⟨conn, json, heq, hintro.hails⟩

theorem hailsAt_of_admits {data : Server.Inbound} (heq : e.2 = .message id data)
    (h : Server.Admits cfg b.server id data) : HailsAt cfg id b e := by
  obtain ⟨json, rfl, -⟩ := h.2
  have hhas : b.server.connections.has id = true := Server.has_iff_admission.mpr (by rw [h.1]; rfl)
  obtain ⟨conn, hget⟩ := Option.isSome_iff_exists.mp hhas
  exact ⟨conn, json, heq, h, hget⟩

/-- The node speaks to connections that were admitted. -/
theorem says_known (hb : b.Tracked) (he : b.Enabled cfg e) :
    Server.Emits (Server.Says cfg e.1 (· ∈ b.everAdmitted) b.server e.2) b.server
      (b.step cfg e).server :=
  Server.says_step e.2 hb.node hb.admitted fun _ _ ht hk => mem_everAdmitted_of_doorToken hb he ht hk

section Quiet

variable (hconnect : e.2 ≠ .connect id) (hhails : ¬HailsAt cfg id b e)

include hconnect hhails

/-- Between its opening and its admission a connection is sent signals at most, and after that
nothing that opens a session. -/
theorem quiet_of_says (hb : b.Tracked) {frame : Frame}
    (h : Server.Says cfg e.1 (· ∈ b.everAdmitted) b.server e.2 id frame) :
    frame.isOpening = false ∧
      (id ∉ b.everAdmitted → frame.isSignal = true ∧ b.server.connections.has id = true) := by
  have hever : b.server.IsAdmitted id → id ∈ b.everAdmitted := hb.admitted id
  generalize hevent : e.2 = event at h
  cases h with
  | versionGate => exact absurd hevent hconnect
  | welcome hadmits => exact absurd (hailsAt_of_admits hevent hadmits) hhails
  | introduction hintro graduated => exact absurd (hailsAt_of_admits hevent hintro.admits) hhails
  | joined hintro hadm hne => exact ⟨rfl, fun hnot => absurd (hever hadm) hnot⟩
  | relisted hreceives graduated =>
      exact ⟨rfl, fun hnot => absurd (hever ⟨_, hreceives.get, hreceives.admitted⟩) hnot⟩
  | pong hreceives => exact ⟨rfl, fun hnot => absurd (hever ⟨_, hreceives.get, hreceives.admitted⟩) hnot⟩
  | turn hreceives credential =>
      exact ⟨rfl, fun hnot => absurd (hever ⟨_, hreceives.get, hreceives.admitted⟩) hnot⟩
  | relay hsignals =>
      obtain ⟨-, _, -, -, -, hhas⟩ := hsignals
      exact ⟨rfl, fun _ => ⟨rfl, hhas⟩⟩
  | left code reason hne hadm hsend => exact ⟨rfl, fun hnot => absurd (hever hadm) hnot⟩
  | axona payload hmem => exact ⟨rfl, fun hnot => absurd hmem hnot⟩
  | door payload hmem => exact ⟨rfl, fun hnot => absurd hmem hnot⟩

theorem admission_step_of_quiet :
    (b.step cfg e).server.admission id = none ∨
      (b.step cfg e).server.admission id = b.server.admission id := by
  rcases @Server.admission_step cfg e.1 b.server e.2 id with
    ⟨heq, -⟩ | ⟨_, _, -, hnone⟩ | ⟨_, heq, hadmits, -⟩ | hsame
  · exact absurd heq hconnect
  · exact Or.inl hnone
  · exact absurd (hailsAt_of_admits heq hadmits) hhails
  · exact Or.inr hsame

theorem mem_everAdmitted_step_of_quiet (hb : b.Tracked) :
    id ∈ (b.step cfg e).everAdmitted ↔ id ∈ b.everAdmitted := by
  refine ⟨fun h => ?_, fun h => mem_everAdmitted_step.mpr (Or.inl h)⟩
  refine (mem_everAdmitted_step.mp h).elim (fun h => h) fun hadm => ?_
  have hadm' := Server.isAdmitted_iff.mp hadm
  rcases admission_step_of_quiet hconnect hhails with hnone | hsame
  · cases hnone.symm.trans hadm'
  · exact hb.admitted id (Server.isAdmitted_iff.mpr (hsame.symm.trans hadm'))

end Quiet

/-- The session of a connection has come to this stage. -/
structure SessionAt (b : Bridge) (id : ConnId) (st : Stage) : Prop where
  run : Stage.run id (b.server.framesTo id) = some st
  welcomed : st.isWelcomed = true ↔ id ∈ b.everAdmitted
  minted : st ≠ .unopened → ∃ i, i ≤ b.connSeq ∧ id = mintConnId i
  present : b.server.connections.has id = true → st ≠ .unopened

section Step

variable {st : Stage}

theorem SessionAt.hears {b' : Bridge} {frames : List Frame} (h : SessionAt b id st)
    (hheard : Server.Hears id b.server b'.server frames) :
    Stage.run id (b'.server.framesTo id) = frames.foldlM (Stage.next id) st :=
  (congrArg (Stage.run id) hheard).trans (Stage.run_append h.run)

theorem SessionAt.minted_step (h : SessionAt b id st) (hst : st ≠ .unopened) :
    ∃ i, i ≤ (b.step cfg e).connSeq ∧ id = mintConnId i := by
  obtain ⟨i, hi, heq⟩ := h.minted hst
  exact ⟨i, hi.trans connSeq_le_step, heq⟩

/-- A connection opens. -/
theorem SessionAt.connect (h : SessionAt b id st) (hb : b.Tracked) (he : b.Enabled cfg e)
    (hsend : e.1.SendsReturn) (hconnect : e.2 = .connect id) :
    st = .unopened ∧ SessionAt (b.step cfg e) id .gated := by
  have hst : st = .unopened := by
    by_contra hne
    exact ne_connect_of_minted he (h.minted hne) hconnect
  have hserver : (b.step cfg e).server = b.server.onConnection cfg e.1 id := server_step_of_event hconnect
  have hnever : id ∉ (b.step cfg e).everAdmitted := by
    intro hmem
    rcases mem_everAdmitted_step.mp hmem with hold | hadm
    · exact ne_connect_of_minted he (hb.minted id (Or.inl hold)) hconnect
    · rw [Server.isAdmitted_iff, hserver, Server.admission_onConnection, if_pos rfl] at hadm
      cases hadm
  refine ⟨hst, ?_, ?_, fun _ => ?_, fun _ heq => by cases heq⟩
  · have hheard : Server.Hears id b.server (b.step cfg e).server [.versionGate cfg.minPeerVersion e.1.now] := by
      rw [hserver]
      exact Server.hears_onConnection (hsend id)
    rw [h.hears hheard, hst]
    rfl
  · exact ⟨fun heq => (by cases heq), fun hmem => absurd hmem hnever⟩
  · exact ⟨_, (connSeq_step_connect hconnect).ge, he.of_event hconnect⟩

/-- A connection is admitted: it is welcomed, and listed where it is introduced. -/
theorem SessionAt.hail (h : SessionAt b id st) (hb : b.Tracked) (hsend : e.1.SendsReturn)
    (hhails : HailsAt cfg id b e) :
    st = .gated ∧ ∃ st', SessionAt (b.step cfg e) id st' ∧ st' ≠ .unopened ∧
      (IntroducesAt cfg id b e → st' = .listed) := by
  obtain ⟨conn, json, hmessage, hhail⟩ := hhails
  have hserver : (b.step cfg e).server = (b.server.onMessage cfg e.1 id (.text (.ok json))).1 :=
    server_step_of_event hmessage
  have hpending := hhail.admits.1
  have hopen : st ≠ .unopened := h.present (Server.has_iff_admission.mpr (by rw [hpending]; rfl))
  have hst : st = .gated := by
    have hnot : ¬st.isWelcomed = true := fun hyes => hb.kept id (h.welcomed.mp hyes) hpending
    cases st with
    | unopened => exact absurd rfl hopen
    | gated => rfl
    | _ => exact absurd rfl hnot
  have hadm : id ∈ (b.step cfg e).everAdmitted := by
    refine mem_everAdmitted_step.mpr (Or.inr (Server.isAdmitted_iff.mpr ?_))
    rw [hserver, (Server.admission_onMessage id _ id).1 hhail.admits, if_pos rfl]
  obtain ⟨frames, hheard, hframes⟩ := Server.hears_onMessage hhail (hsend id)
  rw [← hserver] at hheard
  have hrun := h.hears hheard
  rw [hst, List.foldlM_cons, show Stage.next id .gated (Server.welcomeFrame cfg e.1 id) = some .welcomed
    from if_pos rfl] at hrun
  refine ⟨hst, ?_⟩
  split at hframes
  · rename_i hrefresh
    rw [hframes] at hrun
    refine ⟨.welcomed, ⟨hrun, ⟨fun _ => hadm, fun _ => rfl⟩, fun _ => h.minted_step hopen, fun _ heq => ?_⟩,
      fun heq => (by cases heq), fun hintro => ?_⟩
    · cases heq
    · -- the hello asks for a credential alone
      obtain ⟨conn', json', heq, hintro⟩ := hintro
      cases hmessage.symm.trans heq
      cases hhail.get.symm.trans hintro.get
      cases hrefresh.symm.trans hintro.full
  · rw [hframes] at hrun
    exact ⟨.listed, ⟨hrun, ⟨fun _ => hadm, fun _ => rfl⟩, fun _ => h.minted_step hopen,
      fun _ heq => by cases heq⟩, fun heq => (by cases heq), fun _ => rfl⟩

/-- Anything else leaves the connection in its part of the session. -/
theorem SessionAt.quiet (h : SessionAt b id st) (hb : b.Tracked) (he : b.Enabled cfg e)
    (hconnect : e.2 ≠ .connect id) (hhails : ¬HailsAt cfg id b e) :
    ∃ st', SessionAt (b.step cfg e) id st' ∧ (st' = .unopened ↔ st = .unopened) ∧
      (st = .listed → st' = .listed) := by
  obtain ⟨frames, hheard, hframes⟩ := Server.exists_hears (says_known hb he) id
  have hquiet := fun frame hmem => quiet_of_says hconnect hhails hb (hframes frame hmem).1
  have hever := mem_everAdmitted_step_of_quiet hconnect hhails hb
  have hrun := h.hears hheard
  have hpresent : (b.step cfg e).server.connections.has id = true → st ≠ .unopened := by
    intro hhas
    rw [Server.has_iff_admission] at hhas
    rcases admission_step_of_quiet hconnect hhails with hnone | hsame
    · rw [hnone] at hhas
      cases hhas
    · exact h.present (Server.has_iff_admission.mpr (hsame ▸ hhas))
  by_cases hadm : id ∈ b.everAdmitted
  · obtain ⟨st', hst', hwelcomed, hlisted⟩ := Stage.foldlM_welcomed (h.welcomed.mpr hadm)
      fun frame hmem => (hquiet frame hmem).1
    have hopen : st ≠ .unopened := fun heq => by
      have := h.welcomed.mpr hadm
      rw [heq] at this
      cases this
    have hopen' : st' ≠ .unopened := fun heq => by
      rw [heq] at hwelcomed
      cases hwelcomed
    exact ⟨st', ⟨hrun.trans hst', ⟨fun _ => hever.mpr hadm, fun _ => hwelcomed⟩, fun _ =>
      h.minted_step hopen, fun _ => hopen'⟩, ⟨fun heq => absurd heq hopen', fun heq => absurd heq hopen⟩,
      hlisted⟩
  · refine ⟨st, ⟨hrun.trans ?_, h.welcomed.trans hever.symm, h.minted_step, hpresent⟩, Iff.rfl, fun heq => heq⟩
    have hsignals := fun frame hmem => (hquiet frame hmem).2 hadm
    cases st with
    | unopened =>
        -- nobody signals a connection that is not there
        have hnil : frames = [] := List.eq_nil_iff_forall_not_mem.mpr fun frame hmem =>
          h.present (hsignals frame hmem).2 rfl
        rw [hnil]
        rfl
    | gated => exact Stage.foldlM_gated fun frame hmem => (hsignals frame hmem).1
    | _ => exact absurd (h.welcomed.mp rfl) hadm

end Step

theorem sessionAt_init (cfg : Config) (reportBound : Bool) (id : ConnId) :
    SessionAt (init cfg reportBound) id .unopened where
  run := rfl
  welcomed := ⟨fun h => (by cases h), fun h => (by cases h)⟩
  minted h := absurd rfl h
  present h := by cases h

section Runs

variable {reportBound : Bool} {es : List (Io × Event)} {st : Stage}

private theorem opened_snoc :
    (∃ io, (io, Event.connect id) ∈ es ++ [e]) ↔ (∃ io, (io, Event.connect id) ∈ es) ∨ e.2 = .connect id := by
  constructor
  · rintro ⟨io, hmem⟩
    rcases List.mem_append.mp hmem with hmem | hmem
    · exact Or.inl ⟨io, hmem⟩
    · rw [← List.mem_singleton.mp hmem]
      exact Or.inr rfl
  · rintro (⟨io, hmem⟩ | hconnect)
    · exact ⟨io, List.mem_append_left _ hmem⟩
    · exact ⟨e.1, List.mem_append_right _ (List.mem_singleton.mpr (by rw [← hconnect]))⟩

/-- The session of a connection after a run. -/
structure HasSession (cfg : Config) (reportBound : Bool) (id : ConnId) (es : List (Io × Event))
    (st : Stage) : Prop where
  now : SessionAt ((system cfg reportBound).after (init cfg reportBound) es) id st
  opened : st ≠ .unopened ↔ ∃ io, (io, Event.connect id) ∈ es
  listed : (system cfg reportBound).Sometime (IntroducesAt cfg id) (init cfg reportBound) es → st = .listed

theorem HasSession.snoc (hes : (system cfg reportBound).Valid (init cfg reportBound) es)
    (he : ((system cfg reportBound).after (init cfg reportBound) es).Enabled cfg e)
    (hsend : e.1.SendsReturn) (h : HasSession cfg reportBound id es st) :
    ∃ st', HasSession cfg reportBound id (es ++ [e]) st' := by
  have hb := tracked_of_valid hes
  have hafter : (system cfg reportBound).after (init cfg reportBound) (es ++ [e]) =
      ((system cfg reportBound).after (init cfg reportBound) es).step cfg e := System.after_append
  by_cases hconnect : e.2 = .connect id
  · obtain ⟨hnew, hst'⟩ := h.now.connect hb he hsend hconnect
    refine ⟨.gated, hafter ▸ hst', ?_, fun hsome => ?_⟩
    · exact ⟨fun _ => opened_snoc.mpr (Or.inr hconnect), fun _ heq => by cases heq⟩
    · rcases System.sometime_snoc.mp hsome with hbefore | ⟨_, _, heq, -⟩
      · cases hnew.symm.trans (h.listed hbefore)
      · cases hconnect.symm.trans heq
  · have hopened := opened_snoc.trans (or_iff_left (a := ∃ io, (io, Event.connect id) ∈ es) hconnect)
    by_cases hhails : HailsAt cfg id ((system cfg reportBound).after (init cfg reportBound) es) e
    · obtain ⟨hpending, st', hst', hopen, hnow⟩ := h.now.hail hb hsend hhails
      refine ⟨st', hafter ▸ hst', ?_, fun hsome => ?_⟩
      · refine ⟨fun _ => hopened.mpr (h.opened.mp fun heq => ?_), fun _ => hopen⟩
        cases hpending.symm.trans heq
      · rcases System.sometime_snoc.mp hsome with hbefore | hintro
        · cases hpending.symm.trans (h.listed hbefore)
        · exact hnow hintro
    · obtain ⟨st', hst', hsame, hkept⟩ := h.now.quiet hb he hconnect hhails
      refine ⟨st', hafter ▸ hst', ((not_congr hsame).trans h.opened).trans hopened.symm, fun hsome => ?_⟩
      rcases System.sometime_snoc.mp hsome with hbefore | hintro
      · exact hkept (h.listed hbefore)
      · exact absurd hintro.hailsAt hhails

theorem hasSession_of_valid (hes : (system cfg reportBound).Valid (init cfg reportBound) es) :
    (∀ e ∈ es, e.1.SendsReturn) → ∃ st, HasSession cfg reportBound id es st := by
  refine System.Valid.history (P := fun es => (∀ e ∈ es, e.1.SendsReturn) →
    ∃ st, HasSession cfg reportBound id es st) ?_ ?_ hes
  · refine fun _ => ⟨.unopened, sessionAt_init cfg reportBound id, ⟨fun h => absurd rfl h, ?_⟩, fun h =>
      absurd h System.not_sometime_nil⟩
    rintro ⟨io, hmem⟩
    cases hmem
  · intro es e hes he ih hsend
    obtain ⟨st, hst⟩ := ih fun e hmem => hsend e (List.mem_append_left _ hmem)
    exact hst.snoc hes he (hsend e (List.mem_append_right _ List.mem_cons_self))

/-- **A session.** The frames a connection is sent are a session of its own: a version gate once it
is opened, signals at most before it is admitted, one welcome when it is, next the list of peers where
it is introduced, and never a second gate or welcome. -/
theorem session_of_valid (cfg : Config) (reportBound : Bool) (es : List (Io × Event))
    (hes : (system cfg reportBound).Valid (init cfg reportBound) es)
    (hsend : ∀ e ∈ es, e.1.SendsReturn) (id : ConnId) :
    ∃ st, Stage.run id
        (((system cfg reportBound).after (init cfg reportBound) es).server.framesTo id) = some st ∧
      (st ≠ .unopened ↔ ∃ io, (io, Event.connect id) ∈ es) ∧
      (st.isWelcomed = true ↔
        id ∈ ((system cfg reportBound).after (init cfg reportBound) es).everAdmitted) ∧
      ((system cfg reportBound).Sometime (IntroducesAt cfg id) (init cfg reportBound) es →
        st = .listed) := by
  obtain ⟨st, hst⟩ := @hasSession_of_valid _ id _ _ hes hsend
  exact ⟨st, hst.now.run, hst.opened, hst.now.welcomed, hst.listed⟩

/-- A connection is signalled before it is introduced, and closes. -/
def signalledFirst : List (Io × Event) :=
  [({ now := 1 }, .connect (js "c1")), hello { now := 2 } (js "c1"), ({ now := 3 }, .connect (js "c2")),
    ({ now := 4 }, .message (js "c1") (.text (.ok (.obj [(js "type", .str (js "signal")),
      (js "to", .str (js "c2"))])))),
    hello { now := 5 } (js "c2"), ({ now := 6 }, .closed (js "c2") 1000 [])]

theorem session_signalledFirst :
    ∃ st, Stage.run (js "c2")
        (((system Server.plain false).after (init Server.plain false) signalledFirst).server.framesTo
          (js "c2")) = some st ∧
      (st ≠ .unopened ↔ ∃ io, (io, Event.connect (js "c2")) ∈ signalledFirst) ∧
      (st.isWelcomed = true ↔ js "c2" ∈
        ((system Server.plain false).after (init Server.plain false) signalledFirst).everAdmitted) ∧
      ((system Server.plain false).Sometime (IntroducesAt Server.plain (js "c2"))
        (init Server.plain false) signalledFirst → st = .listed) := by
  refine session_of_valid Server.plain false signalledFirst (valid_of_openRun (by decide +kernel)) ?_
    (js "c2")
  intro e hmem connId
  simp only [signalledFirst, hello, List.mem_cons, List.not_mem_nil, or_false] at hmem
  rcases hmem with rfl | rfl | rfl | rfl | rfl | rfl <;> rfl

end Runs

end Bridge

end AxonaBridge
