import AxonaBridge.ServerEvents

/-!
# Whom the bridge speaks to, and of whom

`Says` lists the frames one event may make the bridge send, and to whom. What goes to an admitted
connection speaks of admitted connections, apart from the relay of a signal, which any connection of
the table may be sent, and the notice of a close.
-/

open JsText

namespace AxonaBridge

/-- The connection ids a frame carries. -/
def Frame.names : Frame → List ConnId
  | .welcome connId .. => [connId]
  | .peerList peers .. => peers
  | .peerJoined peerId _ => [peerId]
  | .peerLeft peerId .. => [peerId]
  | .signal sender _ => [sender]
  | _ => []

namespace Server

variable {cfg : Config} {io : Io} {s : Server}

/-! ### Introductions -/

theorem isAdmitted_of_mem_admittedOthers {id connId : ConnId} (h : connId ∈ s.admittedOthers id) :
    s.IsAdmitted connId := by
  obtain ⟨e, he, rfl⟩ := List.mem_map.mp h
  obtain ⟨he, htest⟩ := List.mem_filter.mp he
  rw [Bool.and_eq_true] at htest
  exact ⟨e.2, JsMap.mem_entries_iff.mp he, htest.2⟩

/-- A newcomer is introduced to admitted connections. -/
theorem isAdmitted_of_mem_introduce {id connId : ConnId} {newRegion : Option JsString}
    (h : connId ∈ (s.introduce cfg io id newRegion).1) : s.IsAdmitted connId := by
  unfold introduce at h
  split at h
  · obtain ⟨c, hc, rfl⟩ := List.mem_map.mp (AnchorSelect.mem_selectAnchors _ h)
    obtain ⟨hc, htest⟩ := List.mem_filter.mp hc
    obtain ⟨e, he, rfl⟩ := List.mem_map.mp hc
    rw [Bool.and_eq_true] at htest
    exact ⟨e.2, JsMap.mem_entries_iff.mp he, htest.1⟩
  · exact isAdmitted_of_mem_admittedOthers h

/-- The reserved id is put in front, or the list is left as it is. -/
theorem withReserved_cases (conn : Conn) (peers : List ConnId) :
    s.withReserved cfg conn peers = peers ∨
      s.withReserved cfg conn peers = cfg.node.reservedId :: peers := by
  unfold withReserved
  cases hrid : s.node.reservedIdFor cfg.node conn.kernelVersion conn.peerVersion with
  | none => exact Or.inl rfl
  | some rid =>
      refine Or.inr (congrArg (· :: peers) ?_)
      unfold Node.reservedIdFor at hrid
      split at hrid
      · cases hrid
      · split at hrid
        · cases hrid
        · dsimp only at hrid
          split at hrid
          · exact (Option.some.inj hrid).symm
          · cases hrid

theorem mem_withReserved {conn : Conn} {peers : List ConnId} {connId : ConnId}
    (h : connId ∈ s.withReserved cfg conn peers) : connId ∈ peers ∨ connId = cfg.node.reservedId := by
  rcases @withReserved_cases cfg s conn peers with heq | heq
  · exact Or.inl (heq ▸ h)
  · rw [heq] at h
    exact (List.mem_cons.mp h).symm

/-- The list a newcomer is admitted with. -/
def introductions (cfg : Config) (io : Io) (s : Server) (id : ConnId) (conn : Conn) : List ConnId :=
  s.withReserved cfg conn
    (orderSameRegionFirst (s.introduce cfg io id conn.claimedRegion).1 s.connRegion conn.claimedRegion)

theorem mem_introductions {id connId : ConnId} {conn : Conn}
    (h : connId ∈ s.introductions cfg io id conn) :
    connId ∈ (s.introduce cfg io id conn.claimedRegion).1 ∨ connId = cfg.node.reservedId := by
  rcases mem_withReserved h with h | h
  · exact Or.inl (mem_of_mem_orderSameRegionFirst h)
  · exact Or.inr h

/-- A newcomer is not introduced to itself. -/
theorem not_mem_introduce_self (id : ConnId) (newRegion : Option JsString) :
    id ∉ (s.introduce cfg io id newRegion).1 := by
  intro h
  unfold introduce at h
  split at h
  · obtain ⟨c, hc, hid⟩ := List.mem_map.mp (AnchorSelect.mem_selectAnchors _ h)
    obtain ⟨-, htest⟩ := List.mem_filter.mp hc
    rw [Bool.and_eq_true, decide_eq_true_eq] at htest
    exact htest.2 hid
  · obtain ⟨e, he, hid⟩ := List.mem_map.mp h
    obtain ⟨-, htest⟩ := List.mem_filter.mp he
    rw [Bool.and_eq_true, decide_eq_true_eq] at htest
    exact htest.1 hid

theorem not_mem_introductions_self {id : ConnId} (hid : id ≠ cfg.node.reservedId) (conn : Conn) :
    id ∉ s.introductions cfg io id conn := by
  intro h
  rcases mem_introductions h with h | h
  · exact not_mem_introduce_self id _ h
  · exact hid h

/-- No one is named twice. -/
theorem nodup_admittedOthers (id : ConnId) : (s.admittedOthers id).Nodup :=
  s.connections.nodup.sublist (List.filter_sublist.map _)

theorem nodup_introduce (id : ConnId) (newRegion : Option JsString) :
    (s.introduce cfg io id newRegion).1.Nodup := by
  unfold introduce
  split
  · refine AnchorSelect.nodup_selectAnchors _ ?_
    rw [List.map_map]
    exact s.connections.nodup
  · exact nodup_admittedOthers id

theorem nodup_withReserved {conn : Conn} {peers : List ConnId} (h : peers.Nodup)
    (hrid : cfg.node.reservedId ∉ peers) : (s.withReserved cfg conn peers).Nodup := by
  rcases @withReserved_cases cfg s conn peers with heq | heq
  · rw [heq]
    exact h
  · rw [heq]
    exact List.nodup_cons.mpr ⟨hrid, h⟩

theorem nodup_introductions (id : ConnId) (conn : Conn) (hrid : ¬s.IsAdmitted cfg.node.reservedId) :
    (s.introductions cfg io id conn).Nodup := by
  refine nodup_withReserved ?_ fun hmem => hrid ?_
  · exact (perm_orderSameRegionFirst _ _ _).nodup_iff.mpr (nodup_introduce id conn.claimedRegion)
  · exact isAdmitted_of_mem_introduce (mem_of_mem_orderSameRegionFirst hmem)

theorem connections_modifyConn_congr {s' : Server} (h : s'.connections = s.connections) (id : ConnId)
    (g : Conn → Conn) : (s'.modifyConn id g).connections = (s.modifyConn id g).connections := by
  unfold modifyConn
  rw [h]

/-- The list is read off the table and the node. -/
theorem introductions_congr {s' : Server} (hconns : s'.connections = s.connections)
    (hnode : s'.node = s.node) (id : ConnId) (conn : Conn) :
    s'.introductions cfg io id conn = s.introductions cfg io id conn := by
  have hregion : s'.connRegion = s.connRegion := by
    funext c
    unfold connRegion connNodeHex
    rw [hnode]
  have hanchors : (s'.introduce cfg io id conn.claimedRegion).1 =
      (s.introduce cfg io id conn.claimedRegion).1 := by
    unfold introduce admittedOthers
    split
    · dsimp only
      rw [hregion, hconns]
    · dsimp only
      rw [hconns]
  unfold introductions withReserved
  rw [hregion, hanchors, hnode]

/-- What `announce` has by the time it sends the list. -/
theorem withReserved_introduce (id : ConnId) (conn : Conn) :
    (s.introduce cfg io id conn.claimedRegion).2.withReserved cfg conn
      (orderSameRegionFirst (s.introduce cfg io id conn.claimedRegion).1
        (s.introduce cfg io id conn.claimedRegion).2.connRegion conn.claimedRegion) =
          s.introductions cfg io id conn := by
  have hnode : (s.introduce cfg io id conn.claimedRegion).2.node = s.node := node_introduce _ _
  unfold introductions withReserved connRegion connNodeHex
  rw [hnode]

/-- The connection once a client-hello has admitted it. -/
def greet (io : Io) (s : Server) (id : ConnId) (conn : Conn) (msg : JsVal) : Server :=
  let conn := { conn with lastSeenAt := io.now }
  ((s.modifyConn id fun _ => conn).modifyConn id fun _ => Conn.ofHello conn msg).modifyConn id
    fun c => { c with helloTimer := false, admitted := true }

/-! ### What is said -/

/-- A signal frame of an admitted connection names a present one. -/
def Signals (s : Server) (id : ConnId) (data : Inbound) (dest : ConnId) : Prop :=
  s.IsAdmitted id ∧ ∃ json, data = .text (.ok json) ∧
    JsVal.asString (json.revive.field (js "type")) = some (js "signal") ∧
      JsVal.asString (json.revive.field (js "to")) = some dest ∧ s.connections.has dest = true

/-- A frame of a type that arrives on an admitted connection. -/
structure Receives (s : Server) (id : ConnId) (conn : Conn) (json : JsVal) (type : JsString) : Prop where
  get : s.connections.get id = some conn
  admitted : conn.admitted = true
  type : JsVal.asString (json.revive.field (js "type")) = some type

/-- A client-hello introduces the connection it arrives on. -/
structure Introduces (cfg : Config) (s : Server) (id : ConnId) (conn : Conn) (json : JsVal) : Prop where
  admits : Admits cfg s id (.text (.ok json))
  get : s.connections.get id = some conn
  full : (Conn.ofHello conn json.revive).turnRefreshOnly = false

/-- An event makes the bridge draw up a list of peers for a connection. -/
inductive Lists (cfg : Config) (io : Io) (s : Server) : Event → ConnId → Conn → List ConnId → Prop
  | introduction {id : ConnId} {conn : Conn} {json : JsVal} (h : Introduces cfg s id conn json) :
      Lists cfg io s (.message id (.text (.ok json))) id conn
        ((greet io s id conn json.revive).introductions cfg io id (Conn.ofHello conn json.revive))
  | relisted {id : ConnId} {conn : Conn} {json : JsVal}
      (h : Receives s id conn json (js "peer-list-request")) :
      Lists cfg io s (.message id (.text (.ok json))) id conn
        (s.withReserved cfg conn (s.admittedOthers id))

/-- The frames an event may send, where the node's own go to the connections of `A`. -/
inductive Says (cfg : Config) (io : Io) (A : ConnId → Prop) (s : Server) : Event → ConnId → Frame → Prop
  | versionGate (id : ConnId) :
      Says cfg io A s (.connect id) id (.versionGate cfg.minPeerVersion io.now)
  | welcome {id : ConnId} {data : Inbound} (h : Admits cfg s id data) :
      Says cfg io A s (.message id data) id
        (.welcome id io.now cfg.version cfg.kernelVersion io.nonce (makeTurnCredential cfg io))
  | introduction {id : ConnId} {conn : Conn} {json : JsVal} (h : Introduces cfg s id conn json)
      (graduated : List JsString) :
      Says cfg io A s (.message id (.text (.ok json))) id
        (.peerList ((greet io s id conn json.revive).introductions cfg io id
          (Conn.ofHello conn json.revive)) graduated io.now)
  | joined {id : ConnId} {conn : Conn} {json : JsVal} (h : Introduces cfg s id conn json)
      {connId : ConnId} (hadm : s.IsAdmitted connId) (hne : connId ≠ id) :
      Says cfg io A s (.message id (.text (.ok json))) connId (.peerJoined id io.now)
  | relisted {id : ConnId} {conn : Conn} {json : JsVal}
      (h : Receives s id conn json (js "peer-list-request")) (graduated : List JsString) :
      Says cfg io A s (.message id (.text (.ok json))) id
        (.peerList (s.withReserved cfg conn (s.admittedOthers id)) graduated io.now)
  | pong {id : ConnId} {conn : Conn} {json : JsVal} (h : Receives s id conn json (js "ping")) :
      Says cfg io A s (.message id (.text (.ok json))) id (.pong (json.revive.field (js "t")) io.now)
  | turn {id : ConnId} {conn : Conn} {json : JsVal} (h : Receives s id conn json (js "turn-refresh"))
      (credential : TurnCredential) :
      Says cfg io A s (.message id (.text (.ok json))) id (.turn credential io.now)
  | relay {id dest : ConnId} {json : JsVal} (h : s.Signals id (.text (.ok json)) dest) :
      Says cfg io A s (.message id (.text (.ok json))) dest
        (.signal id (json.revive.field (js "payload")))
  | left {id connId : ConnId} (code : Nat) (reason : JsString) (hne : connId ≠ id)
      (hadm : s.IsAdmitted connId) (hsend : io.sendError connId = none) :
      Says cfg io A s (.closed id code reason) connId (.peerLeft id (s.departedNodeId id) io.now)
  | axona {e : Event} {connId : ConnId} (payload : AxonaFrame) (h : A connId) :
      Says cfg io A s e connId (.axona payload)
  | door {e : Event} {connId : ConnId} (payload : JsVal) (h : A connId) :
      Says cfg io A s e connId (.signal cfg.node.reservedId (some payload))

section Handlers

variable {P : ConnId → Frame → Prop} {A : ConnId → Prop}

/-- What the node may say on its own satisfies `P`. -/
structure NodeMaySay (P : ConnId → Frame → Prop) (A : ConnId → Prop) (rid : ConnId) : Prop where
  axona : ∀ connId payload, A connId → P connId (.axona payload)
  door : ∀ connId payload, A connId → P connId (.signal rid (some payload))

/-- What the node asks for on behalf of connections it knows of. -/
theorem emits_withNode_of_sendsWithin {rid : ConnId} (hP : NodeMaySay P A rid)
    {r : Node × List NodeOut} (h : SendsWithin A rid r.2) : Emits P s (s.withNode cfg io r) := by
  refine emits_withNode fun o ho => ?_
  have hwithin := h o ho
  cases o with
  | send connId payload => exact fun _ => hP.axona connId payload hwithin
  | signal connId sender payload =>
      obtain ⟨hA, rfl⟩ := hwithin
      exact fun _ => hP.door connId payload hA
  | close connId reason => trivial
  | log row => trivial

/-! ### Admission -/

theorem emits_sendPeerList {id : ConnId} {conn : Conn} {peers : List ConnId}
    (hlist : ∀ graduated, P id (.peerList peers graduated io.now)) :
    Emits P s (s.sendPeerList cfg io id conn peers).2 := by
  have hout : ((s.graduatedSample cfg io id).2.recordIntroduction cfg id conn peers
      ((s.graduatedSample cfg io id).1 ≠ [])).out = s.out := out_graduatedSample id
  exact Emits.congr_left hout (emits_sendTo fun _ => hlist _)

theorem emits_releaseLater (id : ConnId) (conn : Conn) : Emits P s (s.releaseLater cfg id conn) := by
  unfold releaseLater
  dsimp only
  refine Emits.trans ?_ (emits_modifyConn id _)
  exact Emits.trans (Emits.of_out_eq rfl) (emits_logInfo _ _)

theorem sendsWithin_sendHello {rid : ConnId} (n : Node) (id : ConnId) (nonce : JsString) :
    SendsWithin A rid (n.sendHello id nonce).2 := by
  unfold Node.sendHello
  split
  · exact SendsWithin.nil
  · dsimp only
    split
    · exact SendsWithin.row _ _
    · exact SendsWithin.nil

theorem emits_announce {id : ConnId} {conn : Conn}
    (hlist : ∀ graduated, P id (.peerList (s.introductions cfg io id conn) graduated io.now))
    (hjoined : ∀ connId, s.IsAdmitted connId → connId ≠ id → P connId (.peerJoined id io.now)) :
    Emits P s (s.announce cfg io id conn) := by
  have hintro : Emits P s (s.introduce cfg io id conn.claimedRegion).2 :=
    Emits.of_out_eq (out_introduce _ _)
  have hquiet : ∀ t : Server, Emits P t
      (t.withNode cfg io (t.node.sendHello id io.nonce)) := by
    intro t
    refine emits_withNode fun o ho => ?_
    have hwithin := @sendsWithin_sendHello (fun _ => False) cfg.node.reservedId t.node
      id io.nonce o ho
    cases o with
    | send connId payload => exact absurd hwithin not_false
    | signal connId sender payload => exact absurd hwithin.1 not_false
    | close connId reason => trivial
    | log row => trivial
  unfold announce
  dsimp only
  rw [withReserved_introduce]
  refine Emits.trans ?_ (hquiet _)
  refine Emits.trans ?_ (emits_logInfo _ _)
  refine Emits.trans ?_ (emits_broadcast fun connId h hne _ => ?_)
  · exact hintro.trans (emits_sendPeerList hlist)
  · rw [isAdmitted_iff, admission_sendPeerList, admission_introduce, ← isAdmitted_iff] at h
    exact hjoined connId h fun heq => hne (congrArg some heq)

theorem emits_admitConnection {id : ConnId} {conn : Conn}
    (hwelcome : P id (.welcome id io.now cfg.version cfg.kernelVersion io.nonce
      (makeTurnCredential cfg io)))
    (hlist : conn.turnRefreshOnly = false → ∀ graduated,
      P id (.peerList ((s.modifyConn id fun c =>
        { c with helloTimer := false, admitted := true }).introductions cfg io id conn) graduated io.now))
    (hjoined : conn.turnRefreshOnly = false → ∀ connId, s.IsAdmitted connId → connId ≠ id →
      P connId (.peerJoined id io.now)) :
    Emits P s (s.admitConnection cfg io id conn) := by
  have hgreeted : Emits P s ((s.modifyConn id fun c =>
      { c with helloTimer := false, admitted := true }).sendTo cfg io id
        (.welcome id io.now cfg.version cfg.kernelVersion io.nonce (makeTurnCredential cfg io))).2 :=
    (emits_modifyConn id _).trans (emits_sendTo fun _ => hwelcome)
  unfold admitConnection
  dsimp only
  split
  · exact hgreeted.trans (emits_releaseLater id conn)
  · rename_i hfull
    rw [Bool.not_eq_true] at hfull
    refine hgreeted.trans (emits_announce (fun graduated => ?_) fun connId h hne => ?_)
    · rw [introductions_congr (connections_sendTo _ _) (node_sendTo _ _)]
      exact hlist hfull graduated
    · rw [isAdmitted_iff, admission_sendTo, admission, get_modifyConn, if_neg hne] at h
      exact hjoined hfull connId (isAdmitted_iff.mpr h) hne

/-! ### Frames of an admitted connection -/

theorem emits_onPeerListRequest {id : ConnId} {conn : Conn}
    (hlist : ∀ graduated, P id (.peerList (s.withReserved cfg conn (s.admittedOthers id)) graduated
      io.now)) : Emits P s (s.onPeerListRequest cfg io id conn) :=
  (emits_sendPeerList hlist).trans (emits_logInfo _ _)

theorem emits_maybeCloseBootstrapSocket (id : ConnId) :
    Emits P s (s.maybeCloseBootstrapSocket cfg io id).2 := by
  unfold maybeCloseBootstrapSocket
  split
  · exact Emits.refl
  · dsimp only
    split
    · dsimp only
      refine Emits.trans ?_ (emits_logInfo _ _)
      refine Emits.trans ?_ (emits_logDebug _ _)
      refine Emits.congr_right rfl ?_
      exact Emits.trans (emits_wsClose id graduated _) (emits_noteGraduated _)
    · exact Emits.refl

theorem emits_sendPong {id : ConnId} {msg : JsVal} (hpong : P id (.pong (msg.field (js "t")) io.now)) :
    Emits P s (s.sendPong cfg io id msg) := by
  unfold sendPong
  dsimp only
  split
  · exact emits_logErr _ _
  · split
    · refine Emits.trans ?_ (emits_logDebug _ _)
      refine Emits.trans ?_ (emits_modifyConn id _)
      exact emits_wsSend fun _ => hpong
    · exact emits_logErr _ _

theorem emits_onPing {id : ConnId} {msg : JsVal} (hpong : P id (.pong (msg.field (js "t")) io.now)) :
    Emits P s (s.onPing cfg io id msg) := by
  unfold onPing
  dsimp only
  split
  · exact (emits_modifyConn _ _).trans (emits_sendPong hpong)
  · split
    · refine Emits.trans ?_ (emits_maybeCloseBootstrapSocket id)
      exact Emits.of_out_eq rfl
    · refine Emits.trans ?_ (emits_sendPong hpong)
      refine Emits.trans ?_ (emits_maybeCloseBootstrapSocket id)
      exact Emits.of_out_eq rfl

theorem emits_onTurnRefresh {id : ConnId} (hturn : ∀ credential, P id (.turn credential io.now)) :
    Emits P s (s.onTurnRefresh cfg io id) := by
  unfold onTurnRefresh
  dsimp only
  refine Emits.trans ?_ (emits_logDebug _ _)
  split
  · exact emits_sendTo fun _ => hturn _
  · exact Emits.refl

theorem emits_onAxona (hP : NodeMaySay P A cfg.node.reservedId) {id : ConnId} (msg : JsVal) (hid : A id)
    (hn : s.node.Knows A) : Emits P s (s.onAxona cfg io id msg).1 := by
  unfold onAxona
  split
  · split
    · exact emits_withNode_of_sendsWithin hP (hn.handleAxonaFrame s.isConnOpen hid _).2
    · exact Emits.refl
  · exact Emits.refl

theorem emits_relaySignal {id dest : ConnId} {payload : Option JsVal}
    (hrelay : P dest (.signal id payload)) : Emits P s (s.relaySignal cfg io id dest payload) := by
  have hsend : Emits P s (s.sendTo cfg io dest (.signal id payload)).2 := emits_sendTo fun _ => hrelay
  unfold relaySignal
  dsimp only
  split
  · exact hsend.trans ((emits_modifyConn _ _).trans (emits_logDebug _ _))
  · exact hsend

theorem emits_meteredRelay {id dest : ConnId} {conn : Conn} {payload : Option JsVal}
    (hrelay : P dest (.signal id payload)) :
    Emits P s (s.meteredRelay cfg io id conn dest payload) := by
  unfold meteredRelay
  dsimp only
  split
  · exact emits_relaySignal hrelay
  · split
    · refine Emits.trans ?_ (emits_relaySignal hrelay)
      exact emits_modifyConn id _
    · split
      · refine Emits.trans ?_ (emits_logInfo _ _)
        exact Emits.of_out_eq rfl
      · exact Emits.of_out_eq rfl

theorem emits_onSignal (hP : NodeMaySay P A cfg.node.reservedId) {id : ConnId} {conn : Conn}
    {msg : JsVal} (hid : A id) (hn : s.node.Knows A)
    (hrelay : ∀ dest, JsVal.asString (msg.field (js "to")) = some dest →
      s.connections.has dest = true → P dest (.signal id (msg.field (js "payload")))) :
    Emits P s (s.onSignal cfg io id conn msg) := by
  unfold onSignal
  split
  · exact emits_logErr _ _
  · rename_i dest hto
    dsimp only
    have hmaybe : ∀ door : Bool × Node × List NodeOut,
        SendsWithin A cfg.node.reservedId door.2.2 →
          Emits P s
            (if door.1 then s.withNode cfg io door.2
              else if !s.connections.has dest then s.logDebug cfg (js "signal-drop-unknown-to")
                [(js "connId", .str id), (js "to", .str dest)]
              else s.meteredRelay cfg io id conn dest (msg.field (js "payload"))) := by
      intro door hsends
      split_ifs with hdoor hhas
      · exact emits_withNode_of_sendsWithin hP hsends
      · exact emits_logDebug _ _
      · exact emits_meteredRelay (hrelay dest hto (by simpa using hhas))
    refine hmaybe _ ?_
    split
    · exact (hn.deliverDoorSignal io.now hid _).2
    · exact SendsWithin.nil

/-! ### Messages -/

theorem emits_refuse (id : ConnId) (r : Refusal) :
    Emits P s (s.refuse cfg io id r).1 := by
  have hlog : Emits P s (s.tryLog cfg .error r.event r.fields).1 := emits_tryLog _ _ _
  unfold refuse
  split
  · rename_i s' e h
    rwa [h] at hlog
  · rename_i s' h
    rw [h] at hlog
    split
    · exact hlog
    · exact hlog.trans (emits_wsClose _ _ _)

theorem emits_onClientHello {id : ConnId} {conn : Conn} {msg : JsVal}
    (hwelcome : Passes cfg msg → P id (.welcome id io.now cfg.version cfg.kernelVersion io.nonce
      (makeTurnCredential cfg io)))
    (hlist : Passes cfg msg → (Conn.ofHello conn msg).turnRefreshOnly = false → ∀ graduated,
      P id (.peerList (((s.modifyConn id fun _ => Conn.ofHello conn msg).modifyConn id fun c =>
        { c with helloTimer := false, admitted := true }).introductions cfg io id
          (Conn.ofHello conn msg)) graduated io.now))
    (hjoined : Passes cfg msg → (Conn.ofHello conn msg).turnRefreshOnly = false →
      ∀ connId, s.IsAdmitted connId → connId ≠ id → P connId (.peerJoined id io.now)) :
    Emits P s (s.onClientHello cfg io id conn msg).1 := by
  unfold onClientHello
  dsimp only
  refine (emits_modifyConn id fun _ => Conn.ofHello conn msg).trans ?_
  split
  · exact emits_refuse id _
  · rename_i peerVersion ns floor hnone hpassed
    have hpass : Passes cfg msg := ⟨_, _, _, hpassed⟩
    refine Emits.trans (emits_logInfo _ _) (emits_admitConnection (hwelcome hpass)
      (fun hfull graduated => ?_) fun hfull connId h hne => ?_)
    · rw [introductions_congr (connections_modifyConn_congr (connections_logInfo _ _) id _) ?_]
      · exact hlist hpass hfull graduated
      · rw [node_modifyConn, node_logInfo, node_modifyConn, node_modifyConn, node_modifyConn]
    · rw [isAdmitted_iff, admission_logInfo, admission, get_modifyConn, if_neg hne] at h
      exact hjoined hpass hfull connId (isAdmitted_iff.mpr h) hne
  · exact Emits.refl

end Handlers

variable {A : ConnId → Prop}

variable (cfg io s A) in
theorem nodeMaySay_says (e : Event) : NodeMaySay (Says cfg io A s e) A cfg.node.reservedId where
  axona _ payload h := .axona payload h
  door _ payload h := .door payload h

/-- The admitted connections other than one. -/
def others (s : Server) (id : ConnId) : List (ConnId × Conn) :=
  s.connections.entries.filter fun e => e.1 ≠ id && e.2.admitted

theorem others_modifyConn (id : ConnId) (g : Conn → Conn) : (s.modifyConn id g).others id = s.others id := by
  unfold others modifyConn
  dsimp only
  rw [JsMap.entries_modify, List.filter_map]
  have htest : ((fun e : ConnId × Conn => e.1 ≠ id && e.2.admitted) ∘
      fun e : ConnId × Conn => if e.1 = id then (e.1, g e.2) else e) =
        fun e => e.1 ≠ id && e.2.admitted := by
    funext e
    by_cases hid : e.1 = id
    · simp [hid]
    · simp [hid]
  rw [htest]
  refine (List.map_congr_left fun e he => ?_).trans (List.map_id _)
  obtain ⟨-, hother⟩ := List.mem_filter.mp he
  rw [Bool.and_eq_true, decide_eq_true_eq] at hother
  exact if_neg hother.1

theorem admittedOthers_modifyConn (id : ConnId) (g : Conn → Conn) :
    (s.modifyConn id g).admittedOthers id = s.admittedOthers id :=
  congrArg (List.map Prod.fst) (others_modifyConn id g)

theorem says_onFrame {id : ConnId} {conn : Conn} {json : JsVal} (hget : s.connections.get id = some conn)
    (hadm : conn.admitted = true) (hid : A id) (hn : s.node.Knows A) :
    Emits (Says cfg io A s (.message id (.text (.ok json))))
      (s.modifyConn id fun _ => { conn with lastSeenAt := io.now })
      ((s.modifyConn id fun _ => { conn with lastSeenAt := io.now }).onFrame cfg io id
        { conn with lastSeenAt := io.now } json.revive).1 := by
  have hP := nodeMaySay_says cfg io s A (.message id (.text (.ok json)))
  unfold onFrame
  dsimp only
  split_ifs with hlist hping hturn haxona hsignal
  · refine emits_onPeerListRequest fun graduated => ?_
    rw [admittedOthers_modifyConn]
    exact .relisted ⟨hget, hadm, hlist⟩ graduated
  · exact emits_onPing (.pong ⟨hget, hadm, hping⟩)
  · exact emits_onTurnRefresh fun credential => .turn ⟨hget, hadm, hturn⟩ credential
  · exact emits_onAxona hP _ hid hn
  · refine emits_onSignal hP hid hn fun dest hto hhas => .relay ?_
    rw [modifyConn, JsMap.has_modify] at hhas
    exact ⟨⟨conn, hget, hadm⟩, json, rfl, hsignal, hto, hhas⟩
  · exact emits_tryLog _ _ _

theorem says_onMessage {id : ConnId} {data : Inbound} (hA : ∀ connId, s.IsAdmitted connId → A connId)
    (hn : s.node.Knows A) :
    Emits (Says cfg io A s (.message id data)) s (s.onMessage cfg io id data).1 := by
  unfold onMessage
  split
  · exact Emits.refl
  · rename_i conn hget
    have hget' := @get_heard io s id conn hget
    have htouch : (s.modifyConn id fun _ => { conn with lastSeenAt := io.now }).admission =
        s.admission := admission_overwrite hget rfl
    dsimp only
    split
    · exact Emits.trans (emits_modifyConn id _) (emits_logDebug _ _)
    · dsimp only
      exact Emits.trans (emits_modifyConn id _) (emits_logErr _ _)
    · rename_i json
      refine Emits.trans (emits_modifyConn id fun _ => { conn with lastSeenAt := io.now }) ?_
      rcases @read_some json.revive (js "type") with ⟨-, hread⟩ | hread
      · rw [hread]
        exact Emits.refl
      · rw [hread]
        dsimp only
        split
        · rename_i hadm
          exact says_onFrame hget hadm (hA id ⟨conn, hget, hadm⟩) hn
        · rename_i hadm
          split
          · exact emits_tryLog _ _ _
          · rename_i htype
            have hadmits : Passes cfg json.revive → Admits cfg s id (.text (.ok json)) := by
              refine fun hpass => ⟨?_, json, rfl, not_not.mp htype, hpass⟩
              rw [admission, hget, Option.map_some, Bool.eq_false_iff.mpr hadm]
            refine emits_onClientHello (fun hpass => .welcome (hadmits hpass))
              (fun hpass hfull graduated => ?_) fun hpass hfull connId h hne => ?_
            · exact .introduction ⟨hadmits hpass, hget, hfull⟩ graduated
            · rw [isAdmitted_iff, htouch, ← isAdmitted_iff] at h
              exact .joined ⟨hadmits hpass, hget, hfull⟩ h hne

/-! ### The other events -/

theorem emits_onConnection (id : ConnId) :
    Emits (Says cfg io A s (.connect id)) s (s.onConnection cfg io id) := by
  unfold onConnection
  dsimp only
  refine Emits.congr_left ?_ ((emits_logInfo _ _).trans (emits_sendTo fun _ => .versionGate id))
  rfl

/-- The notice of a close: it goes to the other admitted connections. -/
theorem emits_onClose (id : ConnId) (code : Nat) (reason : JsString) :
    Emits (Says cfg io A s (.closed id code reason)) s (s.onClose cfg io id code reason) := by
  unfold onClose
  split
  · exact Emits.refl
  · dsimp only
    refine Emits.trans ?_ (emits_logInfo _ _)
    refine Emits.congr_left (t := { s with
      connections := s.connections.delete id
      node := s.node.handleConnClosed cfg.node io.kernel id }) rfl
        (emits_broadcast fun connId h _ hsend => ?_)
    obtain ⟨c, hc, hadm⟩ := h
    rw [JsMap.get_delete] at hc
    split at hc
    · cases hc
    · rename_i hne
      exact .left code reason hne ⟨c, hc, hadm⟩ hsend

section Silent

variable {P : ConnId → Frame → Prop}

theorem emits_onHelloTimeout (id : ConnId) :
    Emits P s (s.onHelloTimeout cfg io id) := by
  unfold onHelloTimeout
  split
  · exact Emits.refl
  · split
    · exact Emits.refl
    · split
      · exact (emits_modifyConn _ _).trans (emits_logInfo _ _)
      · refine (emits_modifyConn _ _).trans ((emits_logErr _ _).trans (emits_wsClose _ _ _))

theorem emits_onTurnRelease (id : ConnId) :
    Emits P s (s.onTurnRelease io id) := by
  unfold onTurnRelease
  split
  · exact (emits_modifyConn _ _).trans (emits_wsClose _ _ _)
  · exact Emits.refl

theorem emits_noteCohortOnly (pick : GraduationSelect.Pick) (c : Conn) :
    Emits P s (s.noteCohortOnly cfg io pick c) := by
  unfold noteCohortOnly
  split
  · exact Emits.congr_left rfl (emits_logInfo _ _)
  · exact Emits.refl

theorem emits_graduate (pick : GraduationSelect.Pick) (c : Conn)
    (admitted : Nat) : Emits P s (s.graduate cfg io pick c admitted) := by
  unfold graduate
  dsimp only
  refine Emits.trans ?_ (Emits.of_out_eq rfl)
  refine Emits.trans ?_ (emits_noteCohortOnly _ _)
  refine Emits.trans ?_ (emits_logInfo _ _)
  refine Emits.trans ?_ (Emits.of_out_eq (s := noteGraduated _ _ _) rfl)
  exact Emits.trans (emits_wsClose _ _ _) (emits_noteGraduated _)

theorem emits_maybeGraduate : Emits P s (s.maybeGraduate cfg io) := by
  unfold maybeGraduate
  split
  · exact Emits.refl
  · split
    · exact Emits.refl
    · dsimp only
      split
      · exact Emits.refl
      · split
        · exact Emits.of_out_eq rfl
        · rename_i pick hpick
          split
          · exact Emits.of_out_eq rfl
          · refine Emits.trans ?_ (emits_graduate _ _ _)
            exact Emits.of_out_eq rfl

theorem emits_onHeartbeat : Emits P s (s.onHeartbeat cfg io) := by
  unfold onHeartbeat
  dsimp only
  split
  · exact Emits.congr_left rfl (emits_logErr _ _)
  · exact Emits.of_out_eq rfl

theorem emits_sweepIdleConnections :
    Emits P s (s.sweepIdleConnections cfg io) := by
  have hunbound : ∀ s : Server, ∀ e : ConnId × Conn, Emits P s (s.kickUnbound cfg io e) := by
    intro s e
    unfold kickUnbound
    dsimp only
    split
    · refine Emits.trans ?_ (emits_logErr _ _)
      refine Emits.trans ?_ (emits_wsClose e.1 unauthenticated _)
      exact Emits.trans (Emits.of_out_eq rfl) (emits_logInfo _ _)
    · refine Emits.trans ?_ (emits_wsClose e.1 unauthenticated _)
      exact Emits.trans (Emits.of_out_eq rfl) (emits_logInfo _ _)
  have hidle : ∀ s : Server, ∀ e : ConnId × Conn, Emits P s (s.kickIdle cfg io e) := by
    intro s e
    have hrow : Emits P s (s.logInfo cfg (js "idle-kick") [(js "connId", .str e.1),
        (js "idleMs", .int (io.now - e.2.lastSeenAt)), (js "lastPings", .int e.2.pings)]) :=
      emits_logInfo _ _
    exact hrow.trans (emits_append (.terminate e.1) (fun _ _ h => by cases h) rfl)
  unfold sweepIdleConnections
  split
  · exact emits_logInfo _ _
  · exact (emits_foldl _ _ (fun s e _ => hunbound s e) s).trans
      (emits_foldl _ _ (fun s e _ => hidle s e) _)

end Silent

/-- **What one event sends.** -/
theorem says_step (e : Event) (hn : s.node.Knows A) (hA : ∀ connId, s.IsAdmitted connId → A connId)
    (hdoor : ∀ token connId, e.doorToken = some token → cfg.node.ownDoorKey token = some connId →
      A connId) : Emits (Says cfg io A s e) s (s.step cfg io e) := by
  have hP := nodeMaySay_says cfg io s A e
  cases e with
  | connect id => exact emits_onConnection id
  | message id data => exact says_onMessage hA hn
  | closed id code reason => exact emits_onClose id code reason
  | helloTimeout id => exact emits_onHelloTimeout id
  | turnRelease id => exact emits_onTurnRelease id
  | maybeGraduate => exact emits_maybeGraduate
  | heartbeat => exact emits_onHeartbeat
  | sweep => exact emits_sweepIdleConnections
  | requestTimeout promise => exact Emits.of_out_eq rfl
  | meshUp => exact Emits.of_out_eq rfl
  | helloBuilt i hello => exact emits_withNode_of_sendsWithin hP (hn.helloBuilt i hello).2
  | verified i res => exact emits_withNode_of_sendsWithin hP (hn.verified i res).2
  | ackBuilt i ack => exact emits_withNode_of_sendsWithin hP (hn.ackBuilt i ack).2
  | answered i ok body => exact emits_withNode_of_sendsWithin hP (hn.answered i ok body).2
  | kernel act => exact emits_withNode_of_sendsWithin hP (hn.act s.isConnOpen act).2
  | doorSink key payload =>
      refine emits_withNode_of_sendsWithin hP ?_
      exact Node.sendsWithin_doorSink fun connId => hdoor key connId rfl
  | doorBind nodeId token input =>
      exact emits_withNode_of_sendsWithin hP
        (hn.bindPolicy io.now input nodeId fun connId => hdoor token connId rfl).2
  | routeToDoor nodeId token =>
      exact emits_withNode_of_sendsWithin hP
        (hn.onRouteToDoor nodeId fun connId => hdoor token connId rfl).2

/-! ### Which event says a frame -/

section Inversion

variable {e : Event} {recipient : ConnId}

theorem Says.of_peerList {peers : List ConnId} {graduated : List JsString} {serverT : Int}
    (h : Says cfg io A s e recipient (.peerList peers graduated serverT)) :
    ∃ conn json, e = .message recipient (.text (.ok json)) ∧
      (Introduces cfg s recipient conn json ∧
          peers = (greet io s recipient conn json.revive).introductions cfg io recipient
            (Conn.ofHello conn json.revive) ∨
        Receives s recipient conn json (js "peer-list-request") ∧
          peers = s.withReserved cfg conn (s.admittedOthers recipient)) := by
  cases h with
  | introduction h graduated => exact ⟨_, _, rfl, Or.inl ⟨h, rfl⟩⟩
  | relisted h graduated => exact ⟨_, _, rfl, Or.inr ⟨h, rfl⟩⟩

theorem Says.of_peerLeft {peerId : ConnId} {nodeId : Option JsString} {serverT : Int}
    (h : Says cfg io A s e recipient (.peerLeft peerId nodeId serverT)) :
    ∃ code reason, e = .closed peerId code reason ∧ recipient ≠ peerId ∧ s.IsAdmitted recipient ∧
      io.sendError recipient = none ∧ nodeId = s.departedNodeId peerId := by
  generalize hframe : Frame.peerLeft peerId nodeId serverT = frame at h
  cases h with
  | left code reason hne hadm hsend =>
      injection hframe with hpeer hnode
      subst hpeer
      exact ⟨code, reason, rfl, hne, hadm, hsend, hnode⟩
  | _ => cases hframe

/-- A signal is relayed, or comes from the door under its reserved id. -/
theorem Says.of_signal {sender : ConnId} {payload : Option JsVal}
    (h : Says cfg io A s e recipient (.signal sender payload)) :
    (∃ json, e = .message sender (.text (.ok json)) ∧ s.Signals sender (.text (.ok json)) recipient ∧
      payload = json.revive.field (js "payload")) ∨ sender = cfg.node.reservedId := by
  cases h with
  | relay h => exact Or.inl ⟨_, rfl, h, rfl⟩
  | door payload h => exact Or.inr rfl

end Inversion

end Server

/-! ### Scopes -/

/-- The connections the bridge may speak to and of: the admitted ones, those a signal may be relayed
to, and those whose close may be announced. -/
structure Scope where
  admitted : ConnId → Prop
  signalled : ConnId → Prop
  left : ConnId → Prop
  signalled_of_admitted : ∀ connId, admitted connId → signalled connId

/-- What a frame to a connection may be, where the bridge's own id is `rid`. -/
def Scope.Allows (S : Scope) (rid recipient : ConnId) : Frame → Prop
  | .versionGate .. => True
  | .signal sender _ => S.signalled recipient ∧ (S.admitted sender ∨ sender = rid)
  | .peerLeft peerId .. => S.admitted recipient ∧ S.left peerId
  | frame => S.admitted recipient ∧ ∀ connId ∈ frame.names, S.admitted connId ∨ connId = rid

namespace Server

variable {cfg : Config} {io : Io} {s : Server} {S : Scope}

theorem isAdmitted_greet {id connId : ConnId} {conn : Conn} {msg : JsVal}
    (h : (greet io s id conn msg).IsAdmitted connId) : connId = id ∨ s.IsAdmitted connId := by
  by_cases hid : connId = id
  · exact Or.inl hid
  · unfold greet at h
    rw [isAdmitted_iff, admission] at h
    dsimp only at h
    rw [get_modifyConn, if_neg hid, get_modifyConn, if_neg hid, get_modifyConn, if_neg hid] at h
    exact Or.inr (isAdmitted_iff.mpr h)

/-- What is said goes to connections of the scope and names connections of the scope. -/
theorem Says.allowed {e : Event} {recipient : ConnId} {frame : Frame}
    (h : Says cfg io S.admitted s e recipient frame)
    (hA : ∀ connId, s.IsAdmitted connId → S.admitted connId)
    (hadmits : ∀ id data, e = .message id data → Admits cfg s id data → S.admitted id)
    (hdest : ∀ id data dest, e = .message id data → s.Signals id data dest → S.signalled dest)
    (hleft : ∀ id code reason, e = .closed id code reason → ∀ connId, connId ≠ id →
      s.IsAdmitted connId → io.sendError connId = none → S.left id) :
    S.Allows cfg.node.reservedId recipient frame := by
  have hreceives : ∀ {id conn json type}, Receives s id conn json type → S.admitted id :=
    fun h => hA _ ⟨_, h.get, h.admitted⟩
  cases h with
  | versionGate => trivial
  | welcome h =>
      have hid := hadmits _ _ rfl h
      refine ⟨hid, fun connId hmem => Or.inl ?_⟩
      rw [List.mem_singleton.mp hmem]
      exact hid
  | introduction h graduated =>
      have hid := hadmits _ _ rfl h.admits
      refine ⟨hid, fun connId hmem => ?_⟩
      rcases mem_introductions hmem with hmem | hmem
      · rcases isAdmitted_greet (isAdmitted_of_mem_introduce hmem) with heq | hadm
        · exact Or.inl (heq ▸ hid)
        · exact Or.inl (hA connId hadm)
      · exact Or.inr hmem
  | joined h hadm hne =>
      refine ⟨hA recipient hadm, fun named hmem => Or.inl ?_⟩
      rw [List.mem_singleton.mp hmem]
      exact hadmits _ _ rfl h.admits
  | relisted h graduated =>
      refine ⟨hreceives h, fun connId hmem => ?_⟩
      rcases mem_withReserved hmem with hmem | hmem
      · exact Or.inl (hA connId (isAdmitted_of_mem_admittedOthers hmem))
      · exact Or.inr hmem
  | pong h => exact ⟨hreceives h, fun _ h => by cases h⟩
  | turn h credential => exact ⟨hreceives h, fun _ h => by cases h⟩
  | relay h => exact ⟨hdest _ _ recipient rfl h, Or.inl (hA _ h.1)⟩
  | left code reason hne hadm hsend =>
      exact ⟨hA recipient hadm, hleft _ code reason rfl recipient hne hadm hsend⟩
  | axona payload h => exact ⟨h, fun _ h => by cases h⟩
  | door payload h => exact ⟨S.signalled_of_admitted recipient h, Or.inr rfl⟩

/-- Frames go to connections of the scope and name connections of the scope, where it holds the
admitted ones, those a signal names, and those whose close is announced. -/
theorem emits_step (e : Event) (hn : s.node.Knows S.admitted)
    (hA : ∀ connId, s.IsAdmitted connId → S.admitted connId)
    (hA' : ∀ connId, (s.step cfg io e).IsAdmitted connId → S.admitted connId)
    (hdoor : ∀ token connId, e.doorToken = some token → cfg.node.ownDoorKey token = some connId →
      S.admitted connId)
    (hdest : ∀ id data dest, e = .message id data → s.Signals id data dest → S.signalled dest)
    (hleft : ∀ id code reason, e = .closed id code reason → ∀ connId, connId ≠ id →
      s.IsAdmitted connId → io.sendError connId = none → S.left id) :
    Emits (S.Allows cfg.node.reservedId) s (s.step cfg io e) := by
  refine (says_step e hn hA hdoor).mono fun recipient frame h => ?_
  refine h.allowed hA (fun id data he hadmits => hA' id (isAdmitted_iff.mpr ?_)) hdest hleft
  rw [he]
  exact ((admission_onMessage id data id).1 hadmits).trans (if_pos rfl)

end Server

end AxonaBridge
