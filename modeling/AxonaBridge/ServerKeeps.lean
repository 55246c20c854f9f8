import AxonaBridge.ServerOpaque
import AxonaBridge.ServerRecord

/-!
# What an event leaves alone

Most of what a handler does is of no concern to a given relation between a state and a later one: it
sends, closes and logs, moves the node, counts, and stamps the connection. `Overlooks` says that of a
relation once, and every handler whose remaining steps the relation admits then keeps it.
-/

open JsText

namespace AxonaBridge

/-- Nothing but counts, timers, the mesh that was reported and the record of introductions differs. -/
def Conn.Aside (c c' : Conn) : Prop :=
  c' = { c with
    pings := c'.pings, pongs := c'.pongs
    signalsRelayed := c'.signalsRelayed, helloTimer := c'.helloTimer
    helloRetried := c'.helloRetried, releaseTimer := c'.releaseTimer, meshBound := c'.meshBound
    meshBoundAt := c'.meshBoundAt, anchorUses := c'.anchorUses, intro := c'.intro }

/-- Nothing but the output, the node, the stalls and counts that say nothing of a release differs. -/
def Server.Aside (s t : Server) : Prop :=
  t = { s with
    node := t.node, nurseryIntros := t.nurseryIntros, nurseryFellBack := t.nurseryFellBack
    turnRefreshOnlyTotal := t.turnRefreshOnlyTotal
    signalRateLimitedTotal := t.signalRateLimitedTotal, gateHeldTotal := t.gateHeldTotal
    cohortOnlyGraduated := t.cohortOnlyGraduated, lastHeartbeatAt := t.lastHeartbeatAt
    lastStallEndAt := t.lastStallEndAt, lastStallMs := t.lastStallMs, maxStallMs := t.maxStallMs
    stallCount := t.stallCount, out := t.out }

namespace Server

variable {cfg : Config} {io : Io} {s t u : Server} {R : Server → Server → Prop}
  {T : ConnId → Conn → Conn → Prop}

/-- The relation does not look at what is aside of a state or a connection, nor at the sampling of the
registry, nor at a change of a connection that `T` lets through. -/
structure Overlooks (cfg : Config) (R : Server → Server → Prop) (T : ConnId → Conn → Conn → Prop) :
    Prop where
  refl (s : Server) : R s s
  trans {s t u : Server} : R s t → R t u → R s u
  aside {s t : Server} : Server.Aside s t → R s t
  sample (s : Server) (io : Io) (id : ConnId) : R s (s.graduatedSample cfg io id).2
  touch (s : Server) (id : ConnId) (f : Conn → Conn) :
    (∀ c, s.connections.get id = some c → T id c (f c)) → R s (s.modifyConn id f)
  conn (id : ConnId) {c c' : Conn} : Conn.Aside c c' → T id c c'
  hello (id : ConnId) (c : Conn) (msg : JsVal) : c.admitted = false → T id c (Conn.ofHello c msg)
  admission (id : ConnId) (c : Conn) :
    c.admitted = false → T id c { c with helloTimer := false, admitted := true }

namespace Overlooks

variable (h : Overlooks cfg R T)
include h

theorem foldl {α : Type} (f : Server → α → Server) (as : List α) (hf : ∀ a ∈ as, ∀ s, R s (f s a))
    (s : Server) : R s (as.foldl f s) := by
  induction as generalizing s with
  | nil => exact h.refl s
  | cons a as ih =>
      rw [List.foldl_cons]
      exact h.trans (hf a List.mem_cons_self s) (ih (fun b hb => hf b (List.mem_cons_of_mem _ hb)) _)

/-! ### Logging, sending, closing -/

theorem log (s : Server) (row : LogRow) : R s (s.log cfg row) := by
  unfold Server.log
  split
  · exact h.refl s
  · exact h.aside rfl

theorem logInfo (s : Server) (event : JsString) (fields : List (JsString × LogVal)) :
    R s (s.logInfo cfg event fields) := h.log s _

theorem logErr (s : Server) (event : JsString) (fields : List (JsString × LogVal)) :
    R s (s.logErr cfg event fields) := h.log s _

theorem logDebug (s : Server) (event : JsString) (fields : List (JsString × LogVal)) :
    R s (s.logDebug cfg event fields) := h.log s _

theorem tryLog (s : Server) (level : LogLevel) (event : JsString) (fields : List (JsString × JsVal)) :
    R s (s.tryLog cfg level event fields).1 := by
  unfold Server.tryLog
  split
  · exact h.refl s
  · split
    · exact h.log s _
    · exact h.refl s

theorem wsSend (s : Server) (connId : ConnId) (frame : Frame) : R s (s.wsSend io connId frame).2 := by
  unfold Server.wsSend
  split
  · exact h.refl s
  · exact h.aside rfl

theorem wsClose (s : Server) (connId : ConnId) (code : Nat) (reason : JsString) :
    R s (s.wsClose io connId code reason) := h.aside rfl

theorem sendTo (s : Server) (peerId : ConnId) (msg : Frame) : R s (s.sendTo cfg io peerId msg).2 := by
  unfold Server.sendTo
  dsimp only
  split
  · exact h.refl s
  · split
    · exact h.wsSend s _ _
    · exact h.trans (h.wsSend s _ _) (h.logErr _ _ _)

theorem broadcast (s : Server) (msg : Frame) (exceptId : Option ConnId) :
    R s (s.broadcast cfg io msg exceptId).2 := by
  rw [broadcast_eq]
  have hone : ∀ (acc : Nat × Server) (e : ConnId × Conn),
      R acc.2 (broadcastOne cfg io msg exceptId acc e).2 := by
    intro acc e
    unfold broadcastOne
    dsimp only
    split
    · exact h.refl acc.2
    · split
      · exact h.wsSend acc.2 _ _
      · exact h.trans (h.wsSend acc.2 _ _) (h.logErr _ _ _)
  have hall : ∀ (entries : List (ConnId × Conn)) (acc : Nat × Server),
      R acc.2 (entries.foldl (broadcastOne cfg io msg exceptId) acc).2 := by
    intro entries
    induction entries with
    | nil => exact fun acc => h.refl acc.2
    | cons e entries ih => exact fun acc => h.trans (hone acc e) (ih _)
  exact hall _ (0, s)

theorem perform (s : Server) (o : NodeOut) : R s (s.perform cfg io o) := by
  cases o with
  | send connId payload => exact h.sendTo s _ _
  | signal connId sender payload => exact h.sendTo s _ _
  | close connId reason =>
      unfold Server.perform
      dsimp only
      split
      · exact h.wsClose s _ _ _
      · exact h.refl s
  | log row => exact h.log s row

theorem withNode (s : Server) (r : Node × List NodeOut) : R s (s.withNode cfg io r) :=
  h.trans (h.aside rfl : R s { s with node := r.1 }) (h.foldl _ _ (fun o _ s => h.perform s o) _)

theorem stamp (s : Server) (id : ConnId) {f : Conn → Conn} (hf : ∀ c, Conn.Aside c (f c)) :
    R s (s.modifyConn id f) := h.touch s id f fun c _ => h.conn id (hf c)

theorem heard (s : Server) {id : ConnId} {conn : Conn} (hget : s.connections.get id = some conn)
    (hseen : T id conn { conn with lastSeenAt := io.now }) :
    R s (s.modifyConn id fun _ => { conn with lastSeenAt := io.now }) := by
  refine h.touch s id _ fun c hc => ?_
  rw [hget] at hc
  cases hc
  exact hseen

/-! ### Introductions -/

theorem introduce (s : Server) (id : ConnId) (newRegion : Option JsString) :
    R s (s.introduce cfg io id newRegion).2 := by
  unfold Server.introduce
  split
  · dsimp only
    refine h.trans (h.foldl _ _ (fun aid _ s => ?_) s) (h.aside rfl)
    exact h.stamp s aid fun _ => rfl
  · exact h.refl s

theorem sendPeerList (s : Server) (id : ConnId) (conn : Conn) (peers : List ConnId) :
    R s (s.sendPeerList cfg io id conn peers).2 := by
  unfold Server.sendPeerList
  dsimp only
  refine h.trans (h.sample s io id) (h.trans ?_ (h.sendTo _ _ _))
  exact h.stamp _ id fun _ => rfl

theorem releaseLater (s : Server) (id : ConnId) (conn : Conn) : R s (s.releaseLater cfg id conn) := by
  unfold Server.releaseLater
  dsimp only
  have hcounted : R s { s with turnRefreshOnlyTotal := s.turnRefreshOnlyTotal + 1 } := h.aside rfl
  exact h.trans hcounted (h.trans (h.logInfo _ _ _) (h.stamp _ id fun _ => rfl))

theorem announce (s : Server) (id : ConnId) (conn : Conn) : R s (s.announce cfg io id conn) := by
  unfold Server.announce
  dsimp only
  exact h.trans (h.introduce s id _) (h.trans (h.sendPeerList _ id _ _)
    (h.trans (h.broadcast _ _ _) (h.trans (h.logInfo _ _ _) (h.withNode _ _))))

theorem admitConnection (s : Server) {id : ConnId} {conn : Conn}
    (hadm : ∀ c, s.connections.get id = some c → c.admitted = false) :
    R s (s.admitConnection cfg io id conn) := by
  unfold Server.admitConnection
  dsimp only
  have hadmit : R s (s.modifyConn id fun c => { c with helloTimer := false, admitted := true }) :=
    h.touch s id _ fun c hc => h.admission id c (hadm c hc)
  split
  · exact h.trans hadmit (h.trans (h.sendTo _ _ _) (h.releaseLater _ id conn))
  · exact h.trans hadmit (h.trans (h.sendTo _ _ _) (h.announce _ id conn))

theorem refuse (s : Server) (id : ConnId) (r : Refusal) : R s (s.refuse cfg io id r).1 := by
  have hlog := h.tryLog s .error r.event r.fields
  unfold Server.refuse
  split
  · rename_i s' e heq
    rwa [heq] at hlog
  · rename_i s' heq
    rw [heq] at hlog
    split
    · exact hlog
    · exact h.trans hlog (h.wsClose _ _ _ _)

theorem onClientHello (s : Server) {id : ConnId} {conn : Conn} (hget : s.connections.get id = some conn)
    (hadm : conn.admitted = false) (msg : JsVal) : R s (s.onClientHello cfg io id conn msg).1 := by
  have hhello : R s (s.modifyConn id fun _ => Conn.ofHello conn msg) := by
    refine h.touch s id _ fun c hc => ?_
    rw [hget] at hc
    cases hc
    exact h.hello id conn msg hadm
  unfold Server.onClientHello
  dsimp only
  split
  · exact h.trans hhello (h.refuse _ _ _)
  · dsimp only
    refine h.trans (h.trans hhello (h.logInfo _ (js "client-hello-admitted") _))
      (h.admitConnection _ fun c hc => ?_)
    rw [connections_logInfo, get_modifyConn, if_pos rfl, hget] at hc
    cases hc
    exact hadm
  · exact hhello

/-! ### Frames of an admitted connection -/

theorem onPeerListRequest (s : Server) (id : ConnId) (conn : Conn) :
    R s (s.onPeerListRequest cfg io id conn) := by
  unfold Server.onPeerListRequest
  dsimp only
  exact h.trans (h.sendPeerList s id _ _) (h.logInfo _ _ _)

theorem sendPong (s : Server) (id : ConnId) (msg : JsVal) : R s (s.sendPong cfg io id msg) := by
  have hpong : ∀ t : Server, R t (t.modifyConn id fun c => { c with pongs := c.pongs + 1 }) := fun t =>
    h.stamp t id fun _ => rfl
  unfold Server.sendPong
  dsimp only
  split
  · exact h.logErr s _ _
  · split
    · exact h.trans (h.wsSend s _ _) (h.trans (hpong _) (h.logDebug _ _ _))
    · exact h.logErr s _ _

theorem onPing (s : Server) {id : ConnId} {conn : Conn} (hget : s.connections.get id = some conn)
    (msg : JsVal)
    (hreleases : ∀ m, reportedMeshBound msg = some m →
      ReleaseDue cfg io s id { conn with meshBound := some m, meshBoundAt := io.now } →
        ∀ t c, R t (t.releaseSocket cfg io id c)) : R s (s.onPing cfg io id msg) := by
  have hcounted : R s (s.modifyConn id fun c => { c with pings := c.pings + 1 }) := h.stamp s id fun _ => rfl
  unfold Server.onPing
  dsimp only
  cases hreported : reportedMeshBound msg with
  | none => exact h.trans hcounted (h.sendPong _ _ _)
  | some m =>
      have hstamped : ∀ t : Server,
          R t (t.modifyConn id fun c => { c with meshBound := some m, meshBoundAt := io.now }) := fun t =>
        h.stamp t id fun _ => rfl
      have hnow : ((s.modifyConn id fun c => { c with pings := c.pings + 1 }).modifyConn id
          fun c => { c with meshBound := some m, meshBoundAt := io.now }).connections.get id =
            some { conn with pings := conn.pings + 1, meshBound := some m, meshBoundAt := io.now } := by
        rw [get_modifyConn, if_pos rfl, get_modifyConn, if_pos rfl, hget]
        rfl
      dsimp only
      rw [maybeCloseBootstrapSocket_eq, hnow]
      dsimp only
      split
      · rename_i hdue
        rw [if_pos rfl]
        exact h.trans hcounted (h.trans (hstamped _) (hreleases m hreported hdue _ _))
      · rw [if_neg Bool.false_ne_true]
        exact h.trans hcounted (h.trans (hstamped _) (h.sendPong _ _ _))

theorem onTurnRefresh (s : Server) (id : ConnId) : R s (s.onTurnRefresh cfg io id) := by
  unfold Server.onTurnRefresh
  dsimp only
  split
  · exact h.trans (h.sendTo s _ _) (h.logDebug _ _ _)
  · exact h.logDebug s _ _

theorem onAxona (s : Server) (id : ConnId) (msg : JsVal) : R s (s.onAxona cfg io id msg).1 := by
  unfold Server.onAxona
  split
  · split
    · exact h.withNode s _
    · exact h.refl s
  · exact h.refl s

theorem relaySignal (s : Server) (id dest : ConnId) (payload : Option JsVal) :
    R s (s.relaySignal cfg io id dest payload) := by
  have hcounted : ∀ t : Server,
      R t (t.modifyConn id fun c => { c with signalsRelayed := c.signalsRelayed + 1 }) := fun t =>
    h.stamp t id fun _ => rfl
  unfold Server.relaySignal
  dsimp only
  split
  · exact h.trans (h.sendTo s _ _) (h.trans (hcounted _) (h.logDebug _ _ _))
  · exact h.sendTo s _ _

theorem meteredRelay (s : Server) {id : ConnId} {conn : Conn} (hget : s.connections.get id = some conn)
    (hmeter : T id conn (meter cfg io conn).2) (dest : ConnId) (payload : Option JsVal) :
    R s (s.meteredRelay cfg io id conn dest payload) := by
  have hcounted : R s (s.modifyConn id fun _ => (meter cfg io conn).2) := by
    refine h.touch s id _ fun c hc => ?_
    rw [hget] at hc
    cases hc
    exact hmeter
  unfold Server.meteredRelay
  dsimp only
  split
  · exact h.relaySignal s _ _ _
  · split
    · exact h.trans hcounted (h.relaySignal _ _ _ _)
    · have hdropped : ∀ t : Server, R t { t with signalRateLimitedTotal := t.signalRateLimitedTotal + 1 } :=
        fun t => h.aside rfl
      split
      · exact h.trans hcounted (h.trans (hdropped _) (h.logInfo _ _ _))
      · exact h.trans hcounted (hdropped _)

theorem onSignal (s : Server) {id : ConnId} {conn : Conn} (hget : s.connections.get id = some conn)
    (msg : JsVal)
    (hmeter : ∀ dest, JsVal.asString (msg.field (js "to")) = some dest → s.connections.has dest = true →
      T id conn (meter cfg io conn).2) : R s (s.onSignal cfg io id conn msg) := by
  unfold Server.onSignal
  split
  · exact h.logErr s _ _
  · rename_i dest hdest
    have hrelay : ∀ door : Bool × Node × List NodeOut,
        R s (if door.1 then s.withNode cfg io door.2
          else if !s.connections.has dest then s.logDebug cfg (js "signal-drop-unknown-to")
            [(js "connId", .str id), (js "to", .str dest)]
          else s.meteredRelay cfg io id conn dest (msg.field (js "payload"))) := by
      intro door
      split_ifs with hdoor hhas
      · exact h.withNode s _
      · exact h.logDebug s _ _
      · exact h.meteredRelay s hget (hmeter dest hdest (by simpa using hhas)) _ _
    exact hrelay _

/-- What a message does besides the stamp of its arrival. -/
theorem onMessage_heard {s : Server} {id : ConnId} {conn : Conn} (hget : s.connections.get id = some conn)
    (data : Inbound)
    (hmeter : ∀ json dest, data = .text (.ok json) → Receives s id conn json (js "signal") →
      JsVal.asString (json.revive.field (js "to")) = some dest → s.connections.has dest = true →
        T id { conn with lastSeenAt := io.now } (meter cfg io { conn with lastSeenAt := io.now }).2)
    (hreleases : ∀ json, data = .text (.ok json) → Releases cfg io s id json →
      ∀ t c, R t (t.releaseSocket cfg io id c)) :
    R (s.modifyConn id fun _ => { conn with lastSeenAt := io.now }) (s.onMessage cfg io id data).1 := by
  have hget' := @get_heard io s id conn hget
  unfold Server.onMessage
  rw [hget]
  dsimp only
  split
  · exact h.logDebug _ _ _
  · exact h.logErr _ _ _
  · rename_i json
    rcases @read_some json.revive (js "type") with ⟨-, hread⟩ | hread
    · rw [hread]
      exact h.refl _
    · rw [hread]
      dsimp only
      split
      · rename_i hadm
        unfold Server.onFrame
        dsimp only
        split_ifs with hlist hping hturn haxona hsignal
        · exact h.onPeerListRequest _ _ _
        · refine h.onPing _ hget' _ fun m hm hdue => hreleases json rfl ?_
          exact ⟨conn, m, ⟨hget, hadm, hping⟩, hm, hdue⟩
        · exact h.onTurnRefresh _ _
        · exact h.onAxona _ _ _
        · refine h.onSignal _ hget' _ fun dest hdest hhas => ?_
          rw [modifyConn, JsMap.has_modify] at hhas
          exact hmeter json dest rfl ⟨hget, hadm, hsignal⟩ hdest hhas
        · exact h.tryLog _ _ _ _
      · rename_i hadm
        split
        · exact h.tryLog _ _ _ _
        · exact h.onClientHello _ hget' (by simpa using hadm) _

theorem onMessage (s : Server) (id : ConnId) (data : Inbound)
    (hseen : ∀ conn, s.connections.get id = some conn → T id conn { conn with lastSeenAt := io.now })
    (hmeter : ∀ conn json dest, data = .text (.ok json) → Receives s id conn json (js "signal") →
      JsVal.asString (json.revive.field (js "to")) = some dest → s.connections.has dest = true →
        T id { conn with lastSeenAt := io.now } (meter cfg io { conn with lastSeenAt := io.now }).2)
    (hreleases : ∀ json, data = .text (.ok json) → Releases cfg io s id json →
      ∀ t c, R t (t.releaseSocket cfg io id c)) :
    R s (s.onMessage cfg io id data).1 := by
  cases hget : s.connections.get id with
  | none =>
      unfold Server.onMessage
      rw [hget]
      exact h.refl s
  | some conn =>
      exact h.trans (h.heard s hget (hseen conn hget)) (h.onMessage_heard hget data (hmeter conn) hreleases)

/-- A ping that rule 4 releases its connection on does nothing else of note before. -/
theorem onMessage_of_releases {id : ConnId} {json : JsVal} (hreleases : Releases cfg io s id json)
    (hseen : ∀ conn, T id conn { conn with lastSeenAt := io.now }) :
    ∃ t c, R s t ∧ t.node = s.node ∧
      (s.onMessage cfg io id (.text (.ok json))).1 = t.releaseSocket cfg io id c := by
  obtain ⟨conn, m, hreceives, hm, hdue⟩ := hreleases
  have hheard : R s (s.modifyConn id fun _ => { conn with lastSeenAt := io.now }) :=
    h.heard s hreceives.get (hseen conn)
  have hcounted : ∀ t : Server, R t (t.modifyConn id fun c => { c with pings := c.pings + 1 }) := fun t =>
    h.stamp t id fun _ => rfl
  have hstamped : ∀ t : Server,
      R t (t.modifyConn id fun c => { c with meshBound := some m, meshBoundAt := io.now }) := fun t =>
    h.stamp t id fun _ => rfl
  have hnow : (((s.modifyConn id fun _ => { conn with lastSeenAt := io.now }).modifyConn id
      fun c => { c with pings := c.pings + 1 }).modifyConn id
        fun c => { c with meshBound := some m, meshBoundAt := io.now }).connections.get id =
          some { conn with
            lastSeenAt := io.now, pings := conn.pings + 1, meshBound := some m, meshBoundAt := io.now } := by
    rw [get_modifyConn, if_pos rfl, get_modifyConn, if_pos rfl, get_heard hreceives.get]
    rfl
  have hreached := h.trans hheard (h.trans (hcounted _) (hstamped _))
  refine ⟨_, { conn with
    lastSeenAt := io.now, pings := conn.pings + 1, meshBound := some m, meshBoundAt := io.now },
    hreached, rfl, ?_⟩
  rw [onMessage_of_receives hreceives]
  unfold Server.onFrame
  dsimp only
  rw [hreceives.type, if_neg (by decide), if_pos rfl]
  unfold Server.onPing
  dsimp only
  rw [hm]
  dsimp only
  rw [maybeCloseBootstrapSocket_eq, hnow]
  dsimp only
  split
  · rw [if_pos rfl]
  · rename_i hnot
    exact absurd hdue hnot

/-! ### Connections come and go, and the sweeps -/

theorem onConnection (s : Server) (id : ConnId)
    (hconnect : ∀ conn : Conn, R s { s with connections := s.connections.set id conn }) :
    R s (s.onConnection cfg io id) := by
  unfold Server.onConnection
  dsimp only
  exact h.trans (hconnect _) (h.trans (h.logInfo _ _ _) (h.sendTo _ _ _))

theorem onClose (s : Server) (id : ConnId) (code : Nat) (reason : JsString)
    (hclosed : R s { s with connections := s.connections.delete id }) :
    R s (s.onClose cfg io id code reason) := by
  unfold Server.onClose
  split
  · exact h.refl s
  · dsimp only
    have hleft : ∀ node, R s { s with connections := s.connections.delete id, node := node } := fun node =>
      h.trans hclosed (h.aside rfl)
    exact h.trans (hleft _) (h.trans (h.broadcast _ _ _) (h.logInfo _ _ _))

theorem onHelloTimeout (s : Server) (id : ConnId) : R s (s.onHelloTimeout cfg io id) := by
  have hgrace : R s (s.modifyConn id fun c => { c with helloRetried := true }) :=
    h.stamp s id fun _ => rfl
  have hspent : R s (s.modifyConn id fun c => { c with helloTimer := false }) :=
    h.stamp s id fun _ => rfl
  unfold Server.onHelloTimeout
  split
  · exact h.refl s
  · split
    · exact h.refl s
    · split
      · exact h.trans hgrace (h.logInfo _ _ _)
      · exact h.trans hspent (h.trans (h.logErr _ _ _) (h.wsClose _ _ _ _))

theorem onTurnRelease (s : Server) (id : ConnId) : R s (s.onTurnRelease io id) := by
  have hspent : R s (s.modifyConn id fun c => { c with releaseTimer := false }) :=
    h.stamp s id fun _ => rfl
  unfold Server.onTurnRelease
  split
  · exact h.trans hspent (h.wsClose _ _ _ _)
  · exact h.refl s

theorem onHeartbeat (s : Server) : R s (s.onHeartbeat cfg io) := by
  have hbeat : R s { s with lastHeartbeatAt := io.now } := h.aside rfl
  have hstall : R s { s with
      lastHeartbeatAt := io.now, stallCount := s.stallCount + 1
      lastStallMs := io.now - s.lastHeartbeatAt - 1000, lastStallEndAt := io.now
      maxStallMs := max s.maxStallMs (io.now - s.lastHeartbeatAt - 1000) } := h.aside rfl
  unfold Server.onHeartbeat
  dsimp only
  split
  · exact h.trans hstall (h.logErr _ _ _)
  · exact hbeat

theorem kickIdle (s : Server) (e : ConnId × Conn) : R s (s.kickIdle cfg io e) := by
  unfold Server.kickIdle
  dsimp only
  exact h.trans (h.logInfo s _ _) (h.aside rfl)

theorem sweepIdleConnections (s : Server)
    (hkick : ∀ e ∈ s.connections.entries, isIdle cfg io e = false → s.isUnbound cfg io e = true →
      ∀ t, R t (t.kickUnbound cfg io e)) : R s (s.sweepIdleConnections cfg io) := by
  unfold Server.sweepIdleConnections
  split
  · exact h.logInfo s _ _
  · dsimp only
    have hunbound := h.foldl (fun s e => s.kickUnbound cfg io e)
      (s.connections.entries.filter fun e => !isIdle cfg io e && s.isUnbound cfg io e) (fun e he => ?_) s
    · exact h.trans hunbound (h.foldl (fun s e => s.kickIdle cfg io e) _ (fun e _ t => h.kickIdle t e) _)
    · obtain ⟨hmem, htest⟩ := List.mem_filter.mp he
      rw [Bool.and_eq_true, Bool.not_eq_true'] at htest
      exact hkick e hmem htest.1 htest.2

theorem maybeGraduate (s : Server)
    (hpick : ∀ pick, GraduationDue cfg io s → s.selection cfg io = some pick →
      ∀ t c admitted, R t (t.graduate cfg io pick c admitted)) : R s (s.maybeGraduate cfg io) := by
  have hheld : ∀ held, R s { s with gateHeldTotal := held } := fun held => h.aside rfl
  rcases maybeGraduate_cases cfg io s with ⟨pick, c, held, hdue, hselected, -, heq⟩ | ⟨-, held, heq⟩
  · rw [heq]
    exact h.trans (hheld held) (hpick pick hdue hselected _ _ _)
  · rw [heq]
    exact hheld held

end Overlooks

/-- What a relation has to admit of an event, besides what it overlooks. -/
def Admissible (cfg : Config) (R : Server → Server → Prop) (T : ConnId → Conn → Conn → Prop) (io : Io)
    (s : Server) : Event → Prop
  | .connect id => ∀ conn : Conn, R s { s with connections := s.connections.set id conn }
  | .closed id _ _ => R s { s with connections := s.connections.delete id }
  | .message id data =>
      (∀ conn, s.connections.get id = some conn → T id conn { conn with lastSeenAt := io.now }) ∧
      (∀ conn json dest, data = .text (.ok json) → Receives s id conn json (js "signal") →
        JsVal.asString (json.revive.field (js "to")) = some dest → s.connections.has dest = true →
          T id { conn with lastSeenAt := io.now } (meter cfg io { conn with lastSeenAt := io.now }).2) ∧
      ∀ json, data = .text (.ok json) → Releases cfg io s id json →
        ∀ t c, R t (t.releaseSocket cfg io id c)
  | .sweep => ∀ e ∈ s.connections.entries, isIdle cfg io e = false → s.isUnbound cfg io e = true →
      ∀ t, R t (t.kickUnbound cfg io e)
  | .maybeGraduate => ∀ pick, GraduationDue cfg io s → s.selection cfg io = some pick →
      ∀ t c admitted, R t (t.graduate cfg io pick c admitted)
  | _ => True

/-- **What an event leaves alone.** -/
theorem Overlooks.step (h : Overlooks cfg R T) {e : Event} (he : Admissible cfg R T io s e) :
    R s (s.step cfg io e) := by
  cases e with
  | connect id => exact h.onConnection s id he
  | message id data => exact h.onMessage s id data he.1 he.2.1 he.2.2
  | closed id code reason => exact h.onClose s id code reason he
  | helloTimeout id => exact h.onHelloTimeout s id
  | turnRelease id => exact h.onTurnRelease s id
  | maybeGraduate => exact h.maybeGraduate s he
  | heartbeat => exact h.onHeartbeat s
  | sweep => exact h.sweepIdleConnections s he
  | requestTimeout promise => exact h.aside rfl
  | meshUp => exact h.aside rfl
  | _ => exact h.withNode s _

/-! ### One connection -/

/-- A relation of what the table has of a connection before and after that does not look at what is aside
of it, nor at its hello and admission. -/
structure Looks (Q : Option Conn → Option Conn → Prop) : Prop where
  refl (o : Option Conn) : Q o o
  trans {o o' o'' : Option Conn} : Q o o' → Q o' o'' → Q o o''
  aside {c c' : Conn} : Conn.Aside c c' → Q (some c) (some c')
  hello (c : Conn) (msg : JsVal) : c.admitted = false → Q (some c) (some (Conn.ofHello c msg))
  admission (c : Conn) :
    c.admitted = false → Q (some c) (some { c with helloTimer := false, admitted := true })

namespace Looks

variable {Q : Option Conn → Option Conn → Prop} (h : Looks Q) {id : ConnId}
include h

theorem of_connections (hsame : t.connections = s.connections) :
    Q (s.connections.get id) (t.connections.get id) := by
  rw [hsame]
  exact h.refl _

theorem overlooks (id : ConnId) :
    Overlooks cfg (fun s t => Q (s.connections.get id) (t.connections.get id))
      fun id' c c' => id' = id → Q (some c) (some c') where
  refl s := h.refl _
  trans := h.trans
  aside {s t} haside := h.of_connections (by rw [haside])
  sample s io id' := by
    refine h.of_connections ?_
    unfold graduatedSample
    split <;> rfl
  touch s id' f hf := by
    rw [get_modifyConn]
    split
    · rename_i hid
      subst hid
      cases hc : s.connections.get id with
      | none => exact h.refl none
      | some c => exact hf c hc rfl
    · exact h.refl _
  conn id' {_ _} haside _ := h.aside haside
  hello id' c msg hadm _ := h.hello c msg hadm
  admission id' c hadm _ := h.admission c hadm

/-- Apart from its opening, its close, its meter and the stamp of what it sends an event only does to a
connection what is not looked at. -/
theorem step {e : Event} (hfresh : e ≠ .connect id)
    (hseen : ∀ conn data, e = .message id data → s.connections.get id = some conn →
      Q (some conn) (some { conn with lastSeenAt := io.now }))
    (hclosed : ∀ code reason, e = .closed id code reason → Q (s.connections.get id) none)
    (hmeter : ∀ conn json dest, e = .message id (.text (.ok json)) → Receives s id conn json (js "signal") →
      JsVal.asString (json.revive.field (js "to")) = some dest → s.connections.has dest = true →
        Q (some { conn with lastSeenAt := io.now })
          (some (meter cfg io { conn with lastSeenAt := io.now }).2)) :
    Q (s.connections.get id) ((s.step cfg io e).connections.get id) := by
  refine (h.overlooks id).step ?_
  cases e with
  | connect id' =>
      intro conn
      dsimp only
      rw [JsMap.get_set_of_ne _ _ fun hid => hfresh (by rw [hid])]
      exact h.refl _
  | closed id' code reason =>
      change Q _ ((s.connections.delete id').get id)
      by_cases hid : id = id'
      · subst hid
        rw [JsMap.get_delete_self]
        exact hclosed code reason rfl
      · rw [JsMap.get_delete_of_ne _ hid]
        exact h.refl _
  | message id' data =>
      refine ⟨fun conn hget hid => ?_, fun conn json dest hdata hreceives hdest hhas hid => ?_,
        fun json _ _ t c => h.of_connections (by simp [releaseSocket])⟩
      · subst hid
        exact hseen conn data rfl hget
      · subst hdata hid
        exact hmeter conn json dest rfl hreceives hdest hhas
  | sweep => exact fun e _ _ _ t => h.of_connections (connections_kickUnbound e)
  | maybeGraduate => exact fun pick _ _ t c admitted => h.of_connections (graduate_keeps pick c admitted).1
  | _ => trivial

end Looks

end Server

end AxonaBridge
