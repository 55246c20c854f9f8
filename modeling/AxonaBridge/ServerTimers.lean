import AxonaBridge.ServerCloses

/-!
# The timers of a connection

A connection that is not admitted yet has a timer that waits for its hello, one that was admitted for a
credential has a timer that lets it go. An event winds the timers of a connection when it opens, admits
or closes it and when they fire, and at no other time: what an admitted connection sends only stamps it.
-/

open JsText

namespace AxonaBridge

/-- A connection without its stamps: the counts, the meter, what it reported of its mesh, and what it was
introduced to. -/
def Conn.settled (c : Conn) : Conn :=
  { c with
    lastSeenAt := 0, pings := 0, pongs := 0, signalsRelayed := 0, meshBound := none, meshBoundAt := 0
    anchorUses := 0, intro := none, sigWinStart := none, sigWinCount := 0, sigWinLogged := false
    signalsRateLimited := 0 }

/-- The connection an event opens, or a timer of which fires. -/
def Event.times : Event → Option ConnId
  | .connect id => some id
  | .helloTimeout id => some id
  | .turnRelease id => some id
  | _ => none

namespace Server

variable {cfg : Config} {io : Io} {s s' : Server} {id : ConnId} {conn : Conn}

/-- What the table has of a connection, without the stamps. -/
def settled (s : Server) (id : ConnId) : Option Conn := (s.connections.get id).map Conn.settled

theorem settled_congr (h : s'.connections = s.connections) : s'.settled = s.settled := by
  funext id
  rw [settled, settled, h]

/-- A change of a connection that shows without its stamps. -/
theorem settled_change {connId : ConnId} {f g : Conn → Conn}
    (hf : ∀ c, s.connections.get connId = some c → (f c).settled = g c.settled) (id : ConnId) :
    (s.modifyConn connId f).settled id =
      if id = connId then (s.settled connId).map g else s.settled id := by
  rw [settled, get_modifyConn]
  split
  · rw [settled, Option.map_map, Option.map_map]
    cases hget : s.connections.get connId with
    | none => rfl
    | some c => exact congrArg some (hf c hget)
  · rfl

/-- A change of a connection that only stamps it. -/
theorem settled_stamp {connId : ConnId} {f : Conn → Conn}
    (hf : ∀ c, s.connections.get connId = some c → (f c).settled = c.settled) :
    (s.modifyConn connId f).settled = s.settled := by
  funext id
  rw [settled_change (g := fun c => c) hf, Option.map_id']
  split
  · rename_i hid
    rw [hid]
  · rfl

theorem settled_overwrite {c : Conn} (hget : s.connections.get id = some conn)
    (h : c.settled = conn.settled) : (s.modifyConn id fun _ => c).settled = s.settled :=
  settled_stamp fun c' hc' => by
    cases hget.symm.trans hc'
    exact h

/-! ### Frames of an admitted connection -/

theorem settled_introduce (newRegion : Option JsString) :
    (s.introduce cfg io id newRegion).2.settled = s.settled := by
  unfold introduce
  split
  · dsimp only
    refine foldl_keeps Server.settled _ ?_ _ _
    exact fun s aid => settled_stamp fun _ _ => rfl
  · rfl

theorem settled_sendPeerList (peers : List ConnId) :
    (s.sendPeerList cfg io id conn peers).2.settled = s.settled := by
  unfold sendPeerList
  dsimp only
  rw [settled_congr (connections_sendTo _ _), recordIntroduction, settled_stamp]
  · exact settled_congr (connections_graduatedSample id)
  · exact fun _ _ => rfl

theorem settled_onPeerListRequest : (s.onPeerListRequest cfg io id conn).settled = s.settled := by
  unfold onPeerListRequest
  dsimp only
  rw [settled_congr (connections_logInfo _ _), settled_sendPeerList]

theorem settled_maybeCloseBootstrapSocket :
    (s.maybeCloseBootstrapSocket cfg io id).2.settled = s.settled := by
  refine settled_congr ?_
  unfold maybeCloseBootstrapSocket
  split
  · rfl
  · dsimp only
    split
    · simp
    · rfl

theorem settled_sendPong (msg : JsVal) : (s.sendPong cfg io id msg).settled = s.settled := by
  unfold sendPong
  dsimp only
  split
  · exact settled_congr (connections_logErr _ _)
  · split
    · rw [settled_congr (connections_logDebug _ _), settled_stamp]
      · exact settled_congr (connections_wsSend _ _)
      · exact fun _ _ => rfl
    · exact settled_congr (connections_logErr _ _)

theorem settled_onPing (msg : JsVal) : (s.onPing cfg io id msg).settled = s.settled := by
  unfold onPing
  dsimp only
  split
  · rw [settled_sendPong, settled_stamp]
    exact fun _ _ => rfl
  · split
    · rw [settled_maybeCloseBootstrapSocket, settled_stamp, settled_stamp]
      · exact fun _ _ => rfl
      · exact fun _ _ => rfl
    · rw [settled_sendPong, settled_maybeCloseBootstrapSocket, settled_stamp, settled_stamp]
      · exact fun _ _ => rfl
      · exact fun _ _ => rfl

theorem settled_onTurnRefresh : (s.onTurnRefresh cfg io id).settled = s.settled := by
  unfold onTurnRefresh
  dsimp only
  rw [settled_congr (connections_logDebug _ _)]
  split
  · exact settled_congr (connections_sendTo _ _)
  · rfl

theorem settled_onAxona (msg : JsVal) : (s.onAxona cfg io id msg).1.settled = s.settled := by
  unfold onAxona
  split
  · split
    · exact settled_congr (connections_withNode _)
    · rfl
  · rfl

theorem settled_relaySignal (dest : ConnId) (payload : Option JsVal) :
    (s.relaySignal cfg io id dest payload).settled = s.settled := by
  unfold relaySignal
  dsimp only
  split
  · rw [settled_congr (connections_logDebug _ _), settled_stamp]
    · exact settled_congr (connections_sendTo _ _)
    · exact fun _ _ => rfl
  · exact settled_congr (connections_sendTo _ _)

theorem settled_meter : (meter cfg io conn).2.settled = conn.settled := by
  have hopen : (openWindow cfg io conn).settled = conn.settled := by
    unfold openWindow
    split <;> rfl
  unfold meter
  dsimp only
  split <;> exact hopen

theorem settled_meteredRelay (hget : s.connections.get id = some conn) (dest : ConnId)
    (payload : Option JsVal) : (s.meteredRelay cfg io id conn dest payload).settled = s.settled := by
  have hmeter : (s.modifyConn id fun _ => (meter cfg io conn).2).settled = s.settled :=
    settled_overwrite hget settled_meter
  unfold meteredRelay
  dsimp only
  split
  · exact settled_relaySignal _ _
  · split
    · exact (settled_relaySignal _ _).trans hmeter
    · split
      · exact (settled_congr (connections_logInfo _ _)).trans hmeter
      · exact hmeter

theorem settled_onSignal (hget : s.connections.get id = some conn) (msg : JsVal) :
    (s.onSignal cfg io id conn msg).settled = s.settled := by
  unfold onSignal
  split
  · exact settled_congr (connections_logErr _ _)
  · dsimp only
    have hrelay : ∀ (door : Bool × Node × List NodeOut) (dest : ConnId) (payload : Option JsVal),
        (if door.1 then s.withNode cfg io door.2
          else if !s.connections.has dest then s.logDebug cfg (js "signal-drop-unknown-to")
            [(js "connId", .str id), (js "to", .str dest)]
          else s.meteredRelay cfg io id conn dest payload).settled = s.settled := by
      intro door dest payload
      split_ifs
      · exact settled_congr (connections_withNode _)
      · exact settled_congr (connections_logDebug _ _)
      · exact settled_meteredRelay hget _ _
    exact hrelay _ _ _

/-- What an admitted connection sends stamps connections at most. -/
theorem settled_onFrame (hget : s.connections.get id = some conn) (msg : JsVal) :
    (s.onFrame cfg io id conn msg).1.settled = s.settled := by
  unfold onFrame
  dsimp only
  split_ifs
  · exact settled_onPeerListRequest
  · exact settled_onPing msg
  · exact settled_onTurnRefresh
  · exact settled_onAxona msg
  · exact settled_onSignal hget msg
  · exact settled_congr (connections_tryLog _ _ _)

/-! ### Client-hellos -/

theorem settled_announce : (s.announce cfg io id conn).settled = s.settled := by
  unfold announce
  dsimp only
  rw [settled_congr (connections_withNode _), settled_congr (connections_logInfo _ _),
    settled_congr (connections_broadcast _ _), settled_sendPeerList, settled_introduce]

theorem settled_refuse (r : Refusal) : (s.refuse cfg io id r).1.settled = s.settled := by
  have hlog : (s.tryLog cfg .error r.event r.fields).1.connections = s.connections :=
    connections_tryLog .error r.event r.fields
  unfold refuse
  split
  · rename_i s' e h
    rw [h] at hlog
    exact settled_congr hlog
  · rename_i s' h
    rw [h] at hlog
    split
    · exact settled_congr hlog
    · exact settled_congr hlog

/-- An admission disarms the timer of the hello, and arms the one of the release for a credential. -/
def admittedConn (refresh : Bool) (c : Conn) : Conn :=
  { c with helloTimer := false, admitted := true, releaseTimer := refresh || c.releaseTimer }

theorem settled_admitConnection (connId : ConnId) :
    (s.admitConnection cfg io id conn).settled connId =
      if connId = id then (s.settled id).map (admittedConn conn.turnRefreshOnly)
      else s.settled connId := by
  have hadmitted := @settled_change s id (fun c => { c with helloTimer := false, admitted := true })
    (fun c => { c with helloTimer := false, admitted := true }) fun _ _ => rfl
  unfold admitConnection
  dsimp only
  split
  · rename_i hrefresh
    unfold releaseLater
    dsimp only
    rw [settled_change (g := fun c => { c with releaseTimer := true }) fun _ _ => rfl,
      settled_congr (connections_logInfo _ _)]
    change (if connId = id then Option.map _ ((sendTo cfg io _ id _).2.settled id)
      else (sendTo cfg io _ id _).2.settled connId) = _
    rw [settled_congr (connections_sendTo _ _), hadmitted, hadmitted, if_pos rfl]
    split
    · rw [Option.map_map, hrefresh]
      rfl
    · rfl
  · rename_i hfull
    rw [Bool.not_eq_true] at hfull
    rw [settled_announce, settled_congr (connections_sendTo _ _), hadmitted, hfull]
    rfl

/-- A client-hello makes this of its connection. -/
inductive Greets (msg : JsVal) : (Conn → Conn) → Prop
  | refused : Greets msg (Conn.ofHello · msg)
  | admitted : Greets msg fun c => admittedConn (Conn.ofHello c msg).turnRefreshOnly (Conn.ofHello c msg)

theorem settled_onClientHello (hget : s.connections.get id = some conn) (msg : JsVal) :
    ∃ g, Greets msg g ∧ ∀ connId, (s.onClientHello cfg io id conn msg).1.settled connId =
      if connId = id then (s.settled id).map g else s.settled connId := by
  have hhello := @settled_change s id (fun _ => Conn.ofHello conn msg) (Conn.ofHello · msg) fun c hc => by
    cases hget.symm.trans hc
    rfl
  unfold onClientHello
  dsimp only
  split
  · exact ⟨_, .refused, fun connId => by rw [settled_refuse, hhello]⟩
  · refine ⟨_, .admitted, fun connId => ?_⟩
    rw [settled_admitConnection, settled_congr (connections_logInfo _ _), hhello, hhello, if_pos rfl]
    split
    · rw [Option.map_map]
      rfl
    · rfl
  · exact ⟨_, .refused, hhello⟩

theorem settled_onMessage (data : Inbound) :
    (s.onMessage cfg io id data).1.settled = s.settled ∨
      ∃ conn msg g, s.connections.get id = some conn ∧ conn.admitted = false ∧ Greets msg g ∧
        ∀ connId, (s.onMessage cfg io id data).1.settled connId =
          if connId = id then (s.settled id).map g else s.settled connId := by
  unfold onMessage
  split
  · exact Or.inl rfl
  · rename_i conn hget
    have hget' := @get_heard io s id conn hget
    have htouch : (s.modifyConn id fun _ => { conn with lastSeenAt := io.now }).settled = s.settled :=
      settled_overwrite hget rfl
    dsimp only
    split
    · refine Or.inl ?_
      rw [settled_congr (connections_logDebug _ _)]
      exact htouch
    · refine Or.inl ?_
      rw [settled_congr (connections_logErr _ _)]
      exact htouch
    · rename_i json
      rcases @read_some json.revive (js "type") with ⟨-, hread⟩ | hread
      · rw [hread]
        exact Or.inl htouch
      · rw [hread]
        dsimp only
        split
        · exact Or.inl ((settled_onFrame hget' _).trans htouch)
        · rename_i hadm
          split
          · refine Or.inl ?_
            rw [settled_congr (connections_tryLog _ _ _)]
            exact htouch
          · obtain ⟨g, hg, hsettled⟩ := @settled_onClientHello cfg io _ id _ hget' json.revive
            rw [htouch] at hsettled
            exact Or.inr ⟨conn, json.revive, g, hget, Bool.eq_false_iff.mpr hadm, hg, hsettled⟩

/-! ### One event -/

/-- What an event that leads to `t` makes of a connection, but for its stamps. -/
inductive Winds (t : Server) (id : ConnId) : Event → Option Conn → Option Conn → Prop
  | same {e : Event} {o : Option Conn} (h : e.times ≠ some id) : Winds t id e o o
  | absent {e : Event} (hconnect : e ≠ .connect id) : Winds t id e none none
  | opened {o : Option Conn} (now : Int) :
      Winds t id (.connect id) o (some { since := now, lastSeenAt := 0, helloTimer := true })
  | closed {o : Option Conn} (code : Nat) (reason : JsString) : Winds t id (.closed id code reason) o none
  | greeted {c : Conn} (data : Inbound) (hpending : c.admitted = false) {msg : JsVal} {g : Conn → Conn}
      (hg : Greets msg g) : Winds t id (.message id data) (some c) (some (g c))
  | late {c : Conn} (hadm : c.admitted = true) : Winds t id (.helloTimeout id) (some c) (some c)
  | grace {c : Conn} (hpending : c.admitted = false) (hfirst : c.helloRetried = false) :
      Winds t id (.helloTimeout id) (some c) (some { c with helloRetried := true })
  | expired {c : Conn} (hpending : c.admitted = false) (hclose : t.CloseCalled id) :
      Winds t id (.helloTimeout id) (some c) (some { c with helloTimer := false })
  | released {c : Conn} (hclose : t.CloseCalled id) :
      Winds t id (.turnRelease id) (some c) (some { c with releaseTimer := false })

theorem closeCalled_wsClose (code : Nat) (reason : JsString) : (s.wsClose io id code reason).CloseCalled id :=
  ⟨_, List.mem_append_right _ (List.mem_singleton_self _), decide_eq_true rfl⟩

theorem settled_of_get (hget : s.connections.get id = some conn) : s.settled id = some conn.settled := by
  rw [settled, hget]
  rfl

variable {t : Server} {e : Event} {connId : ConnId}

/-- An event that is about one connection alone. -/
theorem Winds.of_change {g : Conn → Conn}
    (h : ∀ id, t.settled id = if id = connId then (s.settled connId).map g else s.settled id)
    (htimes : ∀ id, id ≠ connId → e.times ≠ some id)
    (hself : Winds t connId e (s.settled connId) ((s.settled connId).map g)) (id : ConnId) :
    Winds t id e (s.settled id) (t.settled id) := by
  rw [h]
  split
  · rename_i hid
    rw [hid]
    exact hself
  · rename_i hid
    exact .same (htimes id hid)

/-- An event that leaves the table alone is about no timer, or about one that is not there. -/
theorem Winds.of_settled_eq (h : t.settled = s.settled) (htimes : ∀ id, id ≠ connId → e.times ≠ some id)
    (hself : Winds t connId e (s.settled connId) (s.settled connId)) (id : ConnId) :
    Winds t id e (s.settled id) (t.settled id) :=
  have hunchanged : ∀ id, t.settled id =
      if id = connId then (s.settled connId).map (fun c => c) else s.settled id :=
    fun id => by
      rw [h, Option.map_id']
      split
      · rename_i hid
        rw [hid]
      · rfl
  .of_change hunchanged htimes (by rw [Option.map_id']; exact hself) id

theorem winds_onHelloTimeout (connId id : ConnId) :
    Winds (s.onHelloTimeout cfg io connId) id (.helloTimeout connId) (s.settled id)
      ((s.onHelloTimeout cfg io connId).settled id) := by
  have htimes : ∀ id, id ≠ connId → (Event.helloTimeout connId).times ≠ some id := fun id hne heq =>
    hne (Option.some.inj heq).symm
  unfold onHelloTimeout
  split
  · rename_i hget
    refine Winds.of_settled_eq rfl htimes ?_ id
    rw [settled, hget]
    exact .absent fun h => by cases h
  · rename_i c hget
    split
    · rename_i hadm
      refine Winds.of_settled_eq rfl htimes ?_ id
      rw [settled_of_get hget]
      exact .late hadm
    · rename_i hadm
      rw [Bool.not_eq_true] at hadm
      split
      · rename_i hgrace
        rw [Bool.and_eq_true, Bool.not_eq_true'] at hgrace
        refine Winds.of_change (g := fun c => { c with helloRetried := true }) (fun id => ?_) htimes ?_ id
        · dsimp only
          rw [settled_congr (connections_logInfo _ _)]
          exact settled_change (g := fun c => { c with helloRetried := true }) (fun _ _ => rfl) id
        · rw [settled_of_get hget]
          exact .grace hadm hgrace.1
      · refine Winds.of_change (g := fun c => { c with helloTimer := false }) (fun id => ?_) htimes ?_ id
        · dsimp only
          rw [settled_congr (connections_wsClose _ _ _), settled_congr (connections_logErr _ _)]
          exact settled_change (g := fun c => { c with helloTimer := false }) (fun _ _ => rfl) id
        · rw [settled_of_get hget]
          exact .expired hadm (closeCalled_wsClose _ _)

theorem winds_onTurnRelease (connId id : ConnId) :
    Winds (s.onTurnRelease io connId) id (.turnRelease connId) (s.settled id)
      ((s.onTurnRelease io connId).settled id) := by
  have htimes : ∀ id, id ≠ connId → (Event.turnRelease connId).times ≠ some id := fun id hne heq =>
    hne (Option.some.inj heq).symm
  unfold onTurnRelease
  split
  · rename_i hhas
    obtain ⟨c, hget⟩ := Option.isSome_iff_exists.mp hhas
    refine Winds.of_change (g := fun c => { c with releaseTimer := false }) (fun id => ?_) htimes ?_ id
    · dsimp only
      rw [settled_congr (connections_wsClose _ _ _)]
      exact settled_change (g := fun c => { c with releaseTimer := false }) (fun _ _ => rfl) id
    · rw [settled_of_get hget]
      exact .released (closeCalled_wsClose _ _)
  · rename_i hno
    refine Winds.of_settled_eq rfl htimes ?_ id
    rw [settled, Option.not_isSome_iff_eq_none.mp hno]
    exact .absent fun h => by cases h

/-- **What one event makes of the timers of a connection.** -/
theorem winds_step (cfg : Config) (io : Io) (s : Server) (e : Event) (id : ConnId) :
    Winds (s.step cfg io e) id e (s.settled id) ((s.step cfg io e).settled id) := by
  have hsame : ∀ {t : Server} {e : Event}, t.connections = s.connections → e.times = none →
      Winds t id e (s.settled id) (t.settled id) := by
    intro t e h htimes
    rw [settled_congr h]
    exact .same (htimes ▸ fun heq => by cases heq)
  cases e with
  | connect connId =>
      have hopened : ∀ id, (s.onConnection cfg io connId).settled id =
          if id = connId then some { since := io.now, lastSeenAt := 0, helloTimer := true }
          else s.settled id := by
        intro id
        unfold onConnection
        dsimp only
        rw [settled_congr (connections_sendTo _ _), settled_congr (connections_logInfo _ _), settled,
          JsMap.get_set]
        split <;> rfl
      change Winds _ id _ _ ((s.onConnection cfg io connId).settled id)
      rw [hopened]
      split
      · rename_i hid
        rw [hid]
        exact .opened io.now
      · rename_i hid
        exact .same fun heq => hid (Option.some.inj heq).symm
  | message connId data =>
      rcases @settled_onMessage cfg io s connId data with heq | ⟨c, msg, g, hget, hpending, hg, hsettled⟩
      · change Winds _ id _ _ ((s.onMessage cfg io connId data).1.settled id)
        rw [heq]
        exact .same fun heq => by cases heq
      · refine Winds.of_change (g := g) hsettled (fun _ _ heq => by cases heq) ?_ id
        rw [settled_of_get hget]
        exact .greeted (c := c.settled) data hpending hg
  | closed connId code reason =>
      have hclosed : (s.onClose cfg io connId code reason).settled id =
          if id = connId then none else s.settled id := by
        rw [settled, connections_onClose, JsMap.get_delete]
        split <;> rfl
      change Winds _ id _ _ ((s.onClose cfg io connId code reason).settled id)
      rw [hclosed]
      split
      · rename_i hid
        rw [hid]
        exact .closed code reason
      · exact .same fun heq => by cases heq
  | helloTimeout connId => exact winds_onHelloTimeout connId id
  | turnRelease connId => exact winds_onTurnRelease connId id
  | maybeGraduate => exact hsame maybeGraduate_keeps.1 rfl
  | heartbeat => exact hsame connections_onHeartbeat rfl
  | sweep => exact hsame connections_sweepIdleConnections rfl
  | requestTimeout promise => exact hsame rfl rfl
  | meshUp => exact hsame rfl rfl
  | _ => exact hsame (connections_withNode _) rfl

end Server

end AxonaBridge
