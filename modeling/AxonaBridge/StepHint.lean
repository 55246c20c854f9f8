import AxonaBridge.EventHint

/-!
# Steps and the region hint

Two servers that agree still agree after the same event, or after two client-hellos that claim different
regions. Where the introductions are compared, the hellos have to reach outside the cohort alike.
-/

open JsText

namespace AxonaBridge

namespace Server

namespace Agrees

variable {cfg : Config} {full : Bool} {io : Io} {s t : Server} (h : Agrees cfg full s t)

include h

/-! ### Frames of an admitted connection -/

theorem admittedOthers (id : ConnId) : t.admittedOthers id = s.admittedOthers id := by
  have hothers := h.filter_entries (p := fun e => e.1 ≠ id && e.2.admitted) fun e e' he => by
    rw [he.1, he.2.read Conn.admitted fun _ => rfl]
  unfold Server.admittedOthers
  rw [← List.forall₂_eq_eq_eq, List.forall₂_map_left_iff, List.forall₂_map_right_iff]
  exact hothers.flip.imp fun e' e he => he.1

theorem withReserved {conn conn' : Conn} (hconn : SameConn cfg full conn conn') (peers : List ConnId) :
    t.withReserved cfg conn' peers = s.withReserved cfg conn peers := by
  have hkernel := hconn.read Conn.kernelVersion fun _ => rfl
  have hpeer := hconn.read Conn.peerVersion fun _ => rfl
  unfold Server.withReserved
  rw [h.node, hkernel, hpeer]

/-- The same list reaches as far. -/
theorem reaches_same {conn conn' : Conn} (hconn : SameConn cfg full conn conn') (peers : List ConnId) :
    t.reaches cfg conn' peers = s.reaches cfg conn peers := by
  have hsince := hconn.read Conn.since fun _ => rfl
  unfold Server.reaches
  rw [reachesOlder_record, reachesOlder_record, hsince]
  congr
  funext aid
  rcases h.get_cases aid with ⟨hs, ht⟩ | ⟨c, c', hs, ht, hc⟩
  · rw [hs, ht]
  · have hadm := hc.read Conn.admitted fun _ => rfl
    have hother := hc.read Conn.since fun _ => rfl
    rw [hs, ht, Option.any_some, Option.any_some, hadm, hother]

variable (io) in
theorem onPeerListRequest (id : ConnId) {conn conn' : Conn} (hconn : SameConn cfg full conn conn') :
    Agrees cfg full (s.onPeerListRequest cfg io id conn) (t.onPeerListRequest cfg io id conn') := by
  have hpeers : t.withReserved cfg conn' (t.admittedOthers id) =
      s.withReserved cfg conn (s.admittedOthers id) := by
    rw [h.admittedOthers, h.withReserved hconn]
  obtain ⟨hsample, hsent⟩ := h.sendPeerList io id conn conn' (s.withReserved cfg conn (s.admittedOthers id))
    (s.withReserved cfg conn (s.admittedOthers id)) fun _ => h.reaches_same hconn _
  unfold Server.onPeerListRequest
  dsimp only
  rw [hpeers]
  refine hsent.logRerequest id _ fun hfull => ?_
  rw [hsample hfull]

variable (io) in
theorem releaseSocket (id : ConnId) {c c' : Conn} (hc : SameConn cfg full c c') :
    Agrees cfg full (s.releaseSocket cfg io id c) (t.releaseSocket cfg io id c') := by
  have hsince := hc.read Conn.since fun _ => rfl
  have hversion := hc.read Conn.kernelVersion fun _ => rfl
  unfold Server.releaseSocket
  dsimp only
  rw [freshMeshBound hc, hsince, hversion]
  refine Agrees.logInfo ?_ _ _
  refine Agrees.logDebug ?_ _ _
  exact (h.closeAndNote io id _).update
    (fun u => { u with bootstrapSocketsClosed := u.bootstrapSocketsClosed + 1 })
    (fun u => { u with bootstrapSocketsClosed := u.bootstrapSocketsClosed + 1 }) fun _ => rfl

theorem releaseDue_iff (id : ConnId) {c c' : Conn} (hc : SameConn cfg full c c') :
    ReleaseDue cfg io t id c' ↔ ReleaseDue cfg io s id c := by
  have hadm := hc.read Conn.admitted fun _ => rfl
  have hversion := hc.read Conn.effectiveVersion fun _ => rfl
  unfold ReleaseDue
  rw [freshMeshBound hc, hadm, hversion, h.node]

variable (io) in
theorem maybeCloseBootstrapSocket (id : ConnId) :
    (t.maybeCloseBootstrapSocket cfg io id).1 = (s.maybeCloseBootstrapSocket cfg io id).1 ∧
      Agrees cfg full (s.maybeCloseBootstrapSocket cfg io id).2
        (t.maybeCloseBootstrapSocket cfg io id).2 := by
  rw [maybeCloseBootstrapSocket_eq, maybeCloseBootstrapSocket_eq]
  rcases h.get_cases id with ⟨hs, ht⟩ | ⟨c, c', hs, ht, hc⟩
  · rw [hs, ht]
    exact ⟨rfl, h⟩
  · rw [hs, ht]
    dsimp only
    simp only [h.releaseDue_iff id hc]
    split
    · exact ⟨rfl, h.releaseSocket io id hc⟩
    · exact ⟨rfl, h⟩

variable (io) in
theorem sendPong (id : ConnId) (msg : JsVal) :
    Agrees cfg full (s.sendPong cfg io id msg) (t.sendPong cfg io id msg) := by
  have hsame : (Frame.pong (msg.field (js "t")) io.now).unlisted full =
      (Frame.pong (msg.field (js "t")) io.now).unlisted full := rfl
  obtain ⟨hsent, hsend⟩ := h.wsSend io id hsame
  unfold Server.sendPong
  dsimp only
  rw [hsent]
  split
  · exact h.logErr _ _
  · split
    · refine Agrees.logDebug ?_ _ _
      exact hsend.modifyConn id fun _ => rfl
    · exact h.logErr _ _

variable (io) in
theorem onPing (id : ConnId) (msg : JsVal) :
    Agrees cfg full (s.onPing cfg io id msg) (t.onPing cfg io id msg) := by
  have hcounted : Agrees cfg full (s.modifyConn id fun c => { c with pings := c.pings + 1 })
      (t.modifyConn id fun c => { c with pings := c.pings + 1 }) := h.modifyConn id fun _ => rfl
  unfold Server.onPing
  dsimp only
  cases hmesh : reportedMeshBound msg with
  | none => exact hcounted.sendPong io id msg
  | some m =>
      have hreported := hcounted.modifyConn id
        (g := fun c => { c with meshBound := some m, meshBoundAt := io.now }) fun _ => rfl
      obtain ⟨hclosed, hclose⟩ := hreported.maybeCloseBootstrapSocket io id
      dsimp only
      rw [hclosed]
      split
      · exact hclose
      · exact hclose.sendPong io id msg

variable (io) in
theorem onTurnRefresh (id : ConnId) :
    Agrees cfg full (s.onTurnRefresh cfg io id) (t.onTurnRefresh cfg io id) := by
  unfold Server.onTurnRefresh
  refine Agrees.logDebug ?_ _ _
  split
  · exact (h.sendTo cfg io id _).2
  · exact h

variable (io) in
theorem onAxona (id : ConnId) (msg : JsVal) :
    Agrees cfg full (s.onAxona cfg io id msg).1 (t.onAxona cfg io id msg).1 := by
  unfold Server.onAxona
  rw [h.node, h.isConnOpen]
  split
  · split
    · exact h.withNode _
    · exact h
  · exact h

variable (io) in
theorem relaySignal (id dest : ConnId) (payload : Option JsVal) :
    Agrees cfg full (s.relaySignal cfg io id dest payload) (t.relaySignal cfg io id dest payload) := by
  obtain ⟨hsent, hsend⟩ := h.sendTo cfg io dest (.signal id payload)
  unfold Server.relaySignal
  dsimp only
  rw [hsent]
  split
  · refine Agrees.logDebug ?_ _ _
    exact hsend.modifyConn id fun _ => rfl
  · exact hsend

variable (io) in
omit h in
/-- The meter does not look at the hint. -/
theorem meter {conn conn' : Conn} (hconn : SameConn cfg full conn conn') :
    (Server.meter cfg io conn').1 = (Server.meter cfg io conn).1 ∧
      SameConn cfg full (Server.meter cfg io conn).2 (Server.meter cfg io conn').2 := by
  have hmeter : ∀ c : Conn, Server.meter cfg io (c.unhinted (keepsIntro cfg full)) =
      ((Server.meter cfg io c).1, (Server.meter cfg io c).2.unhinted (keepsIntro cfg full)) := by
    intro c
    unfold Server.meter Server.openWindow Conn.unhinted
    dsimp only
    split_ifs <;> rfl
  constructor
  · exact hconn.read (fun c => (Server.meter cfg io c).1) fun c => by rw [hmeter]
  · exact hconn.change (fun c => (Server.meter cfg io c).2) fun c => by rw [hmeter]

variable (io) in
theorem meteredRelay (id : ConnId) {conn conn' : Conn} (hconn : SameConn cfg full conn conn')
    (dest : ConnId) (payload : Option JsVal) :
    Agrees cfg full (s.meteredRelay cfg io id conn dest payload)
      (t.meteredRelay cfg io id conn' dest payload) := by
  obtain ⟨hverdict, hcounted⟩ := meter io hconn
  have hmetered := h.replace id hcounted
  unfold Server.meteredRelay
  dsimp only
  rw [hverdict]
  split
  · exact h.relaySignal io id dest payload
  · split
    · exact hmetered.relaySignal io id dest payload
    · have htotal := hmetered.update
        (fun u => { u with signalRateLimitedTotal := u.signalRateLimitedTotal + 1 })
        (fun u => { u with signalRateLimitedTotal := u.signalRateLimitedTotal + 1 }) fun _ => rfl
      split
      · exact htotal.logInfo _ _
      · exact htotal

variable (io) in
theorem onSignal (id : ConnId) {conn conn' : Conn} (hconn : SameConn cfg full conn conn') (msg : JsVal) :
    Agrees cfg full (s.onSignal cfg io id conn msg) (t.onSignal cfg io id conn' msg) := by
  have hadm := hconn.read Conn.admitted fun _ => rfl
  unfold Server.onSignal
  rw [h.node, hadm]
  split
  · exact h.logErr _ _
  · rename_i dest _
    have hrelay : Agrees cfg full
        (if !s.connections.has dest then s.logDebug cfg (js "signal-drop-unknown-to")
            [(js "connId", .str id), (js "to", .str dest)]
          else s.meteredRelay cfg io id conn dest (msg.field (js "payload")))
        (if !t.connections.has dest then t.logDebug cfg (js "signal-drop-unknown-to")
            [(js "connId", .str id), (js "to", .str dest)]
          else t.meteredRelay cfg io id conn' dest (msg.field (js "payload"))) := by
      rw [h.has]
      split
      · exact h.logDebug _ _
      · exact h.meteredRelay io id hconn _ _
    dsimp only
    by_cases hdoor : conn.admitted = true ∧ cfg.node.isReservedId dest = true
    · rw [if_pos hdoor]
      split
      · exact h.withNode _
      · exact hrelay
    · rw [if_neg hdoor]
      exact hrelay

variable (io) in
theorem onFrame (id : ConnId) {conn conn' : Conn} (hconn : SameConn cfg full conn conn') (msg : JsVal) :
    Agrees cfg full (s.onFrame cfg io id conn msg).1 (t.onFrame cfg io id conn' msg).1 := by
  unfold Server.onFrame
  dsimp only
  split_ifs
  · exact h.onPeerListRequest io id hconn
  · exact h.onPing io id msg
  · exact h.onTurnRefresh io id
  · exact h.onAxona io id msg
  · exact h.onSignal io id hconn msg
  · exact (h.tryLog _ _ _).2

variable (io) in
/-- On an admitted connection a client-hello is a frame of unknown type. -/
theorem onFrame_hello (id : ConnId) (conn conn' : Conn) {msg msg' : JsVal} (hmsg : SameButClaim msg msg') :
    Agrees cfg full (s.onFrame cfg io id conn msg).1 (t.onFrame cfg io id conn' msg').1 := by
  have hunknown : ∀ name : JsString, name ≠ js "client-hello" →
      ¬JsVal.asString (msg.field (js "type")) = some name := by
    intro name hne hname
    rw [hmsg.hello] at hname
    exact hne (Option.some.inj hname).symm
  have htype := hmsg.field (js "type") (by decide)
  unfold Server.onFrame
  dsimp only
  rw [htype]
  rw [if_neg (hunknown _ (by decide)), if_neg (hunknown _ (by decide)), if_neg (hunknown _ (by decide)),
    if_neg (hunknown _ (by decide)), if_neg (hunknown _ (by decide)), if_neg (hunknown _ (by decide)),
    if_neg (hunknown _ (by decide)), if_neg (hunknown _ (by decide)), if_neg (hunknown _ (by decide)),
    if_neg (hunknown _ (by decide))]
  exact (h.tryLog _ _ _).2

end Agrees

/-! ### Messages -/

theorem SameButClaim.refl {msg : JsVal}
    (hello : JsVal.asString (msg.field (js "type")) = some (js "client-hello")) : SameButClaim msg msg :=
  ⟨Iff.rfl, fun _ _ => rfl, hello⟩

theorem SameButClaim.read {msg msg' : JsVal} (h : SameButClaim msg msg') :
    JsVal.read (some msg') (js "type") = JsVal.read (some msg) (js "type") := by
  have htype := h.field (js "type") (by decide)
  rcases @read_some msg (js "type") with ⟨hnull, hread⟩ | hread
  · rw [hnull, h.null.mpr hnull]
  · rcases @read_some msg' (js "type") with ⟨hnull', -⟩ | hread'
    · rw [hnull', h.null.mp hnull']
    · rw [hread, hread', htype]

/-- Two payloads of a socket: one and the same, or two client-hellos that differ in the claim. -/
inductive Inbound.SameButClaim : Inbound → Inbound → Prop
  | same (data : Inbound) : SameButClaim data data
  | hello {json json' : JsVal} (h : Server.SameButClaim json.revive json'.revive) :
      SameButClaim (.text (.ok json)) (.text (.ok json'))

/-- The introduction a client-hello leads to reaches an anchor older than the cohort. -/
def helloReaches (cfg : Config) (io : Io) (s : Server) (id : ConnId) (conn : Conn) (msg : JsVal) : Bool :=
  let read := Conn.ofHello { conn with lastSeenAt := io.now } msg
  (greet io s id conn msg).reaches cfg read ((greet io s id conn msg).introductions cfg io id read)

/-- The introductions of two client-hellos reach an older anchor alike. -/
def ReachAlike (cfg : Config) (io : Io) (s t : Server) (id : ConnId) (data data' : Inbound) : Prop :=
  ∀ conn conn' json json', data = .text (.ok json) → data' = .text (.ok json') →
    Introduces cfg s id conn json → t.connections.get id = some conn' →
      helloReaches cfg io t id conn' json'.revive = helloReaches cfg io s id conn json.revive

namespace Agrees

variable {cfg : Config} {full : Bool} {io : Io} {s t : Server} (h : Agrees cfg full s t)

include h

variable (io) in
theorem onMessage_hello (id : ConnId) {json json' : JsVal}
    (hmsg : SameButClaim json.revive json'.revive)
    (hreach : keepsIntro cfg full = true →
      ReachAlike cfg io s t id (.text (.ok json)) (.text (.ok json'))) :
    Agrees cfg full (s.onMessage cfg io id (.text (.ok json))).1
      (t.onMessage cfg io id (.text (.ok json'))).1 := by
  unfold Server.onMessage
  rcases h.get_cases id with ⟨hs, ht⟩ | ⟨conn, conn', hs, ht, hconn⟩
  · rw [hs, ht]
    exact h
  · have hseen : SameConn cfg full { conn with lastSeenAt := io.now } { conn' with lastSeenAt := io.now } :=
      hconn.change (fun c => { c with lastSeenAt := io.now }) fun _ => rfl
    have hadm := hconn.read Conn.admitted fun _ => rfl
    have htouched := h.replace id hseen
    rw [hs, ht]
    dsimp only
    rw [hmsg.read]
    cases hread : JsVal.read (some json.revive) (js "type") with
    | error e => exact htouched
    | ok type =>
        dsimp only
        by_cases hadmitted : conn.admitted = true
        · rw [if_pos hadmitted, if_pos (hadm.trans hadmitted)]
          exact htouched.onFrame_hello io id _ _ hmsg
        · have hadmitted' : ¬conn'.admitted = true := fun htrue => hadmitted (hadm.symm.trans htrue)
          rw [if_neg hadmitted, if_neg hadmitted']
          split
          · exact (htouched.tryLog _ _ _).2
          · refine htouched.onClientHello io id hseen hmsg fun hkept hpass hfull => ?_
            have hpending : s.admission id = some false := by
              rw [admission, hs]
              exact congrArg some (Bool.eq_false_of_not_eq_true hadmitted)
            have hintro : Introduces cfg s id conn json :=
              ⟨⟨hpending, json, rfl, hmsg.hello, hpass⟩, hs, hfull⟩
            exact hreach hkept conn conn' json json' rfl rfl hintro ht

variable (io) in
theorem onMessage (id : ConnId) {data data' : Inbound} (hdata : data.SameButClaim data')
    (hreach : keepsIntro cfg full = true → ReachAlike cfg io s t id data data') :
    Agrees cfg full (s.onMessage cfg io id data).1 (t.onMessage cfg io id data').1 := by
  cases hdata with
  | hello hmsg => exact h.onMessage_hello io id hmsg hreach
  | same data =>
      by_cases hhello : ∃ json, data = .text (.ok json) ∧
          JsVal.asString (json.revive.field (js "type")) = some (js "client-hello")
      · obtain ⟨json, rfl, htype⟩ := hhello
        exact h.onMessage_hello io id (SameButClaim.refl htype) hreach
      · unfold Server.onMessage
        rcases h.get_cases id with ⟨hs, ht⟩ | ⟨conn, conn', hs, ht, hconn⟩
        · rw [hs, ht]
          exact h
        · have hseen : SameConn cfg full { conn with lastSeenAt := io.now }
              { conn' with lastSeenAt := io.now } :=
            hconn.change (fun c => { c with lastSeenAt := io.now }) fun _ => rfl
          have hadm := hconn.read Conn.admitted fun _ => rfl
          have htouched := h.replace id hseen
          rw [hs, ht]
          cases data with
          | binary bytes => exact htouched.logDebug _ _
          | text parsed =>
              cases parsed with
              | error err => exact htouched.logErr _ _
              | ok json =>
                  dsimp only
                  rcases @read_some json.revive (js "type") with ⟨-, hread⟩ | hread
                  · rw [hread]
                    exact htouched
                  · rw [hread]
                    dsimp only
                    by_cases hadmitted : conn.admitted = true
                    · rw [if_pos hadmitted, if_pos (hadm.trans hadmitted)]
                      exact htouched.onFrame io id hseen _
                    · have hadmitted' : ¬conn'.admitted = true := fun htrue =>
                        hadmitted (hadm.symm.trans htrue)
                      have htype : JsVal.asString (json.revive.field (js "type")) ≠
                          some (js "client-hello") := fun htype => hhello ⟨json, rfl, htype⟩
                      rw [if_neg hadmitted, if_neg hadmitted', if_pos htype, if_pos htype]
                      exact (htouched.tryLog _ _ _).2

/-! ### Connections come and go -/

variable (io) in
theorem onConnection (id : ConnId) :
    Agrees cfg full (s.onConnection cfg io id) (t.onConnection cfg io id) := by
  have hopened : ∀ conn : Conn, Agrees cfg full { s with connections := s.connections.set id conn }
      { t with connections := t.connections.set id conn } := by
    intro conn
    refine h.update (fun u => { u with connections := u.connections.set id conn })
      (fun u => { u with
        connections := u.connections.set id (conn.unhinted (keepsIntro cfg full)) }) fun u => ?_
    unfold compared
    dsimp only
    rw [JsMap.set_rename_refl]
  have hsize : ∀ conn : Conn, (t.connections.set id conn).size = (s.connections.set id conn).size :=
    fun conn => (hopened conn).size
  unfold Server.onConnection
  dsimp only
  rw [hsize]
  exact (((hopened _).logInfo _ _).sendTo cfg io id (.versionGate cfg.minPeerVersion io.now)).2

theorem stallTaintedSince (sinceTs : Int) : t.stallTaintedSince sinceTs = s.stallTaintedSince sinceTs := by
  unfold Server.stallTaintedSince
  rw [h.lastStallEndAt]

variable (io) in
theorem stallPending : t.stallPending io = s.stallPending io := by
  unfold Server.stallPending
  rw [h.lastHeartbeatAt]

variable (io) in
theorem onHelloTimeout (id : ConnId) :
    Agrees cfg full (s.onHelloTimeout cfg io id) (t.onHelloTimeout cfg io id) := by
  unfold Server.onHelloTimeout
  rw [h.stallPending io]
  rcases h.get_cases id with ⟨hs, ht⟩ | ⟨conn, conn', hs, ht, hconn⟩
  · rw [hs, ht]
    exact h
  · have hadm := hconn.read Conn.admitted fun _ => rfl
    have hretried := hconn.read Conn.helloRetried fun _ => rfl
    have hsince := hconn.read Conn.since fun _ => rfl
    rw [hs, ht]
    dsimp only
    rw [hadm, hretried, hsince, h.stallTaintedSince]
    split
    · exact h
    · split
      · have hretry := h.modifyConn id (g := fun c => { c with helloRetried := true }) fun _ => rfl
        rw [hretry.lastStallMs]
        exact hretry.logInfo _ _
      · have hexpired := h.modifyConn id (g := fun c => { c with helloTimer := false }) fun _ => rfl
        exact (hexpired.logErr _ _).wsClose io _ _ _

variable (io) in
theorem onTurnRelease (id : ConnId) : Agrees cfg full (s.onTurnRelease io id) (t.onTurnRelease io id) := by
  unfold Server.onTurnRelease
  rw [h.has]
  split
  · have hreleased := h.modifyConn id (g := fun c => { c with releaseTimer := false }) fun _ => rfl
    exact hreleased.wsClose io _ _ _
  · exact h

variable (io) in
theorem onClose (id : ConnId) (code : Nat) (reason : JsString) :
    Agrees cfg full (s.onClose cfg io id code reason) (t.onClose cfg io id code reason) := by
  have hdeparted : t.departedNodeId id = s.departedNodeId id := h.connNodeHex id
  have hremoved : Agrees cfg full
      { s with
        connections := s.connections.delete id
        node := s.node.handleConnClosed cfg.node io.kernel id }
      { t with
        connections := t.connections.delete id
        node := t.node.handleConnClosed cfg.node io.kernel id } := by
    have hremove := h.update
      (fun u => { u with
        connections := u.connections.delete id
        node := u.node.handleConnClosed cfg.node io.kernel id })
      (fun u => { u with
        connections := u.connections.delete id
        node := u.node.handleConnClosed cfg.node io.kernel id }) fun u => by
      unfold compared
      dsimp only
      rw [JsMap.delete_rename_refl]
    exact hremove
  obtain ⟨hcount, htold⟩ := hremoved.broadcast io (.peerLeft id (s.departedNodeId id) io.now) none
  have hsize : (t.connections.delete id).size = (s.connections.delete id).size := hremoved.size
  unfold Server.onClose
  rcases h.get_cases id with ⟨hs, ht⟩ | ⟨conn, conn', hs, ht, hconn⟩
  · rw [hs, ht]
    exact h
  · have hsince := hconn.read Conn.since fun _ => rfl
    have hpings := hconn.read Conn.pings fun _ => rfl
    have hpongs := hconn.read Conn.pongs fun _ => rfl
    have hsignals := hconn.read Conn.signalsRelayed fun _ => rfl
    rw [hs, ht]
    dsimp only
    rw [hdeparted, hcount, hsize, hsince, hpings, hpongs, hsignals]
    exact htold.logInfo _ _

/-! ### The heartbeat and the sweep -/

variable (io) in
theorem onHeartbeat : Agrees cfg full (s.onHeartbeat cfg io) (t.onHeartbeat cfg io) := by
  have hbeat := h.update (fun u => { u with lastHeartbeatAt := io.now })
    (fun u => { u with lastHeartbeatAt := io.now }) fun _ => rfl
  unfold Server.onHeartbeat
  dsimp only
  rw [h.lastHeartbeatAt, h.size]
  split
  · refine Agrees.logErr ?_ _ _
    exact hbeat.update
      (fun u => { u with
        stallCount := u.stallCount + 1
        lastStallMs := io.now - s.lastHeartbeatAt - 1000
        lastStallEndAt := io.now
        maxStallMs := max u.maxStallMs (io.now - s.lastHeartbeatAt - 1000) })
      (fun u => { u with
        stallCount := u.stallCount + 1
        lastStallMs := io.now - s.lastHeartbeatAt - 1000
        lastStallEndAt := io.now
        maxStallMs := max u.maxStallMs (io.now - s.lastHeartbeatAt - 1000) }) fun _ => rfl
  · exact hbeat

variable (io) in
theorem kickUnbound {e e' : ConnId × Conn} (he : SameEntry cfg full e e') :
    Agrees cfg full (s.kickUnbound cfg io e) (t.kickUnbound cfg io e') := by
  have hsince := he.2.read Conn.since fun _ => rfl
  have hversion := he.2.read Conn.peerVersion fun _ => rfl
  have hpongs := he.2.read Conn.pongs fun _ => rfl
  have hcounted := h.update (fun u => { u with unboundKicked := u.unboundKicked + 1 })
    (fun u => { u with unboundKicked := u.unboundKicked + 1 }) fun _ => rfl
  unfold Server.kickUnbound
  dsimp only
  rw [he.1, hsince, hversion, hpongs]
  have hclosed := (hcounted.logInfo (js "unbound-kick") [(js "connId", .str e.1),
    (js "ageMs", .int (io.now - e.2.since)), (js "peerVersion", .ofString? e.2.peerVersion),
    (js "pongs", .int e.2.pongs)]).wsClose io e.1 unauthenticated
      (js "no identity bound within " ++ intToString 10 cfg.unboundKickMs ++ js " ms of admission")
  split
  · exact hclosed.logErr _ _
  · exact hclosed

variable (io) in
theorem kickIdle {e e' : ConnId × Conn} (he : SameEntry cfg full e e') :
    Agrees cfg full (s.kickIdle cfg io e) (t.kickIdle cfg io e') := by
  have hseen := he.2.read Conn.lastSeenAt fun _ => rfl
  have hpings := he.2.read Conn.pings fun _ => rfl
  unfold Server.kickIdle
  rw [he.1, hseen, hpings]
  exact (h.logInfo _ _).say rfl

omit h in
/-- The same kick, entry by entry. -/
theorem foldl_alike {kick : Server → ConnId × Conn → Server}
    (hkick : ∀ {u w : Server} {e e' : ConnId × Conn}, Agrees cfg full u w → SameEntry cfg full e e' →
      Agrees cfg full (kick u e) (kick w e')) {es es' : List (ConnId × Conn)}
    (hes : List.Forall₂ (SameEntry cfg full) es es') {u w : Server} (h : Agrees cfg full u w) :
    Agrees cfg full (es.foldl kick u) (es'.foldl kick w) := by
  induction hes generalizing u w with
  | nil => exact h
  | cons he _ ih =>
      rw [List.foldl_cons, List.foldl_cons]
      exact ih (hkick h he)

variable (io) in
theorem sweepIdleConnections :
    Agrees cfg full (s.sweepIdleConnections cfg io) (t.sweepIdleConnections cfg io) := by
  have hidle : ∀ e e', SameEntry cfg full e e' → isIdle cfg io e' = isIdle cfg io e := by
    intro e e' he
    have hseen := he.2.read Conn.lastSeenAt fun _ => rfl
    unfold isIdle
    rw [hseen]
  have hunbound : ∀ e e', SameEntry cfg full e e' →
      (!isIdle cfg io e' && t.isUnbound cfg io e') = (!isIdle cfg io e && s.isUnbound cfg io e) := by
    intro e e' he
    have hadm := he.2.read Conn.admitted fun _ => rfl
    have hsince := he.2.read Conn.since fun _ => rfl
    rw [hidle e e' he]
    unfold isUnbound
    rw [he.1, hadm, hsince, h.node]
  unfold Server.sweepIdleConnections
  dsimp only
  rw [h.stallTaintedSince, h.stallPending io, h.lastStallMs]
  split
  · exact h.logInfo _ _
  · have hkicked := foldl_alike (fun hu he => hu.kickUnbound io he) (filter_alike h.entries hunbound) h
    exact foldl_alike (fun hu he => hu.kickIdle io he) (filter_alike h.entries hidle) hkicked

end Agrees

end Server

/-! ### One event -/

/-- Two events: one and the same, or two messages of one socket that differ in the claim. -/
inductive Event.SameButClaim : Event → Event → Prop
  | same (e : Event) : SameButClaim e e
  | message (id : ConnId) {data data' : Server.Inbound} (h : data.SameButClaim data') :
      SameButClaim (.message id data) (.message id data')

namespace Server

/-- Where both events are messages of one socket, their introductions reach an older anchor alike. -/
def ReachAlikeAt (cfg : Config) (io : Io) (s t : Server) (e e' : Event) : Prop :=
  ∀ id data data', e = .message id data → e' = .message id data' → ReachAlike cfg io s t id data data'

namespace Agrees

variable {cfg : Config} {full : Bool} {io : Io} {s t : Server} (h : Agrees cfg full s t)

include h

theorem step {e e' : Event} (he : e.SameButClaim e')
    (hreach : keepsIntro cfg full = true → ReachAlikeAt cfg io s t e e') :
    Agrees cfg full (s.step cfg io e) (t.step cfg io e') := by
  cases he with
  | message id hdata => exact h.onMessage io id hdata fun hkept => hreach hkept id _ _ rfl rfl
  | same e =>
      unfold Server.step
      cases e with
      | connect id => exact h.onConnection io id
      | message id data => exact h.onMessage io id (.same data) fun hkept => hreach hkept id _ _ rfl rfl
      | closed id code reason => exact h.onClose io id code reason
      | helloTimeout id => exact h.onHelloTimeout io id
      | turnRelease id => exact h.onTurnRelease io id
      | maybeGraduate => exact h.maybeGraduate io
      | heartbeat => exact h.onHeartbeat io
      | sweep => exact h.sweepIdleConnections io
      | requestTimeout promise =>
          exact h.update
            (fun u => { u with node := { u.node with transport := u.node.transport.timeout promise } })
            (fun u => { u with node := { u.node with transport := u.node.transport.timeout promise } })
            fun _ => rfl
      | helloBuilt i hello => exact h.withNodeOf fun n => n.helloBuilt i hello
      | verified i res => exact h.withNodeOf fun n => n.verified cfg.node io.kernel i res
      | ackBuilt i ack => exact h.withNodeOf fun n => n.ackBuilt i ack
      | answered i ok body => exact h.withNodeOf fun n => n.answered i ok body
      | kernel act =>
          dsimp only
          rw [h.isConnOpen]
          exact h.withNodeOf fun n => n.act s.isConnOpen act
      | meshUp =>
          exact h.update (fun u => { u with node := { u.node with mesh := true } })
            (fun u => { u with node := { u.node with mesh := true } }) fun _ => rfl
      | doorSink key payload =>
          dsimp only
          rw [h.isConnOpen]
          exact h.withNodeOf fun n => (n, Node.doorSink cfg.node s.isConnOpen key payload)
      | doorBind nodeId token input =>
          exact h.withNodeOf fun n => (n.bindPolicy cfg.node io.now input nodeId token).2
      | routeToDoor nodeId token => exact h.withNodeOf fun n => n.onRouteToDoor cfg.node nodeId token

end Agrees

end Server

end AxonaBridge
