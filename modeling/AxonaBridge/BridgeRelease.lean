import AxonaBridge.BridgeAllowlist
import AxonaBridge.BridgeDiscipline
import AxonaBridge.NodeProofs
import AxonaBridge.ServerOpaque

/-!
# The sockets that bound channels free

The socket and the door channel of a connection live and die apart. Rule 4 frees the socket on the mark
of its channel. The bind policy and a switch of route set the mark and the close of the socket clears
it; what ends the channel, the retire that makes room for a newcomer among it, leaves it set.
-/

open JsText

namespace AxonaBridge

namespace Node

variable {cfg : NodeConfig} {k : Kernel} {n : Node} {connId : ConnId}

/-! ### The marks of the channels that have bound -/

theorem doorChannelBound_sendHello (c : ConnId) (nonce : JsString) :
    (n.sendHello c nonce).1.doorChannelBound = n.doorChannelBound := by
  unfold sendHello
  split
  · rfl
  · dsimp only
    split <;> rfl

theorem doorChannelBound_verifyPeerHello (sender : Sender) (body : Option JsVal) (label : HelloLabel) :
    (n.verifyPeerHello sender body label).1.doorChannelBound = n.doorChannelBound := by
  cases sender with
  | node nodeId => rfl
  | conn c =>
      unfold verifyPeerHello
      dsimp only
      split <;> rfl

theorem doorChannelBound_verified (i : Nat) (res : AuthResult) :
    (n.verified cfg k i res).1.doorChannelBound = n.doorChannelBound := by
  unfold verified
  split
  · rfl
  · rename_i v hv
    cases res with
    | refused reason => rfl
    | ok nodeId =>
        dsimp only
        split
        · rfl
        · split
          · rfl
          · exact (Quiet.completeHandshake v.connId _).bound

theorem doorChannelBound_handleNotification (isConnOpen : ConnId → Bool) (sender : Sender)
    (msg : JsVal) :
    (n.handleNotification cfg k isConnOpen sender msg).1.doorChannelBound = n.doorChannelBound := by
  unfold handleNotification
  dsimp only
  split
  · rfl
  · split_ifs
    · exact (Quiet.runActs isConnOpen k.acts).bound
    · exact doorChannelBound_verifyPeerHello _ _ _
    · exact doorChannelBound_verifyPeerHello _ _ _
    · exact (Quiet.reinforce _).bound
    · exact (Quiet.introduce _ _ _).bound
    · exact (Quiet.introduce _ _ _).bound
    · rfl

theorem doorChannelBound_handleAxonaFrame (isConnOpen : ConnId → Bool) (c : ConnId) (payload : JsVal) :
    (n.handleAxonaFrame cfg k isConnOpen c payload).1.doorChannelBound = n.doorChannelBound := by
  unfold handleAxonaFrame
  dsimp only
  split
  · rfl
  · rfl
  · exact (Quiet.handleRequest isConnOpen c _).bound
  · exact doorChannelBound_handleNotification isConnOpen _ _

/-- The close of a socket sets no mark. -/
theorem mem_of_mem_handleConnClosed {c : ConnId}
    (h : connId ∈ (n.handleConnClosed cfg k c).doorChannelBound) : connId ∈ n.doorChannelBound := by
  unfold handleConnClosed at h
  dsimp only at h
  rw [(Quiet.peerDied _).bound] at h
  dsimp only at h
  split at h
  · exact List.mem_of_mem_filter h
  · exact h

/-- The bind policy marks the channel it lets through. -/
theorem of_mem_bindPolicy {now : Int} {input : BindInput} {nodeId : NodeId} {token : JsString}
    (h : connId ∈ (n.bindPolicy cfg now input nodeId token).2.1.doorChannelBound) :
    connId ∈ n.doorChannelBound ∨
      (cfg.ownDoorKey token = some connId ∧ (n.bindPolicy cfg now input nodeId token).1 = .bound) := by
  unfold bindPolicy at h ⊢
  cases hkey : cfg.ownDoorKey token with
  | none =>
      rw [hkey] at h
      exact Or.inl h
  | some c =>
      rw [hkey] at h
      dsimp only at h ⊢
      by_cases hhit : (n.sbRetired.hasIdentity (idToHex nodeId) now).1 = true
      · rw [if_pos hhit] at h
        exact Or.inl h
      · rw [if_neg hhit] at h ⊢
        have hroom := (@Quiet.makeRoom cfg
          { n with sbRetired := (n.sbRetired.hasIdentity (idToHex nodeId) now).2 } now input c
            (idToHex nodeId)).bound
        split at h
        · exact Or.inl h
        · exact Or.inl h
        · split at h
          · rename_i n' out hmade
            rw [hmade] at hroom
            dsimp only at h hroom
            rw [hroom] at h
            split at h
            · exact Or.inl h
            · rcases List.mem_append.mp h with h | h
              · exact Or.inl h
              · exact Or.inr ⟨by rw [List.mem_singleton.mp h], rfl⟩
          · exact Or.inl (hroom ▸ h)

/-- A switch of route marks the channel it leads to. -/
theorem of_mem_onRouteToDoor {nodeId : NodeId} {token : JsString}
    (h : connId ∈ (n.onRouteToDoor cfg nodeId token).1.doorChannelBound) :
    connId ∈ n.doorChannelBound ∨ cfg.ownDoorKey token = some connId := by
  unfold onRouteToDoor at h
  split at h
  · exact Or.inl h
  · rename_i c hkey
    split at h
    · exact Or.inl h
    · rcases List.mem_append.mp h with h | h
      · exact Or.inl h
      · exact Or.inr (by rw [hkey, List.mem_singleton.mp h])

end Node

/-- The connection whose channel an event binds, under a door key of this epoch. -/
def Server.channelBinds (cfg : Config) (io : Io) (s : Server) : Event → Option ConnId
  | .doorBind nodeId token input =>
      if (s.node.bindPolicy cfg.node io.now input nodeId token).1 = .bound then cfg.node.ownDoorKey token
      else none
  | .routeToDoor _ token => cfg.node.ownDoorKey token
  | _ => none

/-- The connection whose channel is retired to make room for the one that binds. -/
def Server.channelRetires (cfg : Config) (io : Io) (s : Server) : Event → Option ConnId
  | .doorBind nodeId token input =>
      if (s.node.bindPolicy cfg.node io.now input nodeId token).1 = .bound ∧ 0 < cfg.node.cap ∧
          cfg.node.cap < input.openCounted then
        input.victim.bind cfg.node.ownDoorKey
      else none
  | _ => none

namespace Server

variable {cfg : Config} {io : Io} {s : Server} {connId id : ConnId} {json : JsVal}

/-- A channel is marked by the event that binds it. -/
theorem of_mem_doorChannelBound_step {e : Event}
    (h : connId ∈ (s.step cfg io e).node.doorChannelBound) :
    connId ∈ s.node.doorChannelBound ∨ s.channelBinds cfg io e = some connId := by
  have hnode := nodeStep cfg io s e
  generalize (s.step cfg io e).node = n at hnode h
  cases hnode with
  | same e => exact Or.inl h
  | hello hadmits => exact Or.inl (Node.doorChannelBound_sendHello _ _ ▸ h)
  | axona hid hcarries => exact Or.inl (Node.doorChannelBound_handleAxonaFrame _ _ _ ▸ h)
  | signal data payload hid => exact Or.inl ((Node.Quiet.deliverDoorSignal _ _ _).bound ▸ h)
  | closed code reason hhas => exact Or.inl (Node.mem_of_mem_handleConnClosed h)
  | requestTimeout promise => exact Or.inl h
  | meshUp => exact Or.inl h
  | helloBuilt i hello => exact Or.inl ((Node.Quiet.helloBuilt i hello).bound ▸ h)
  | verified i res => exact Or.inl (Node.doorChannelBound_verified i res ▸ h)
  | ackBuilt i ack => exact Or.inl ((Node.Quiet.ackBuilt i ack).bound ▸ h)
  | answered i ok body => exact Or.inl ((Node.Quiet.answered i ok body).bound ▸ h)
  | kernel act => exact Or.inl ((Node.Quiet.act s.isConnOpen act).bound ▸ h)
  | doorBind nodeId token input =>
      refine (Node.of_mem_bindPolicy h).imp_right ?_
      rintro ⟨hkey, hbound⟩
      exact (if_pos hbound).trans hkey
  | routeToDoor nodeId token => exact Node.of_mem_onRouteToDoor h

/-- A ping that meets the tests of rule 4 has its connection closed. -/
theorem added_of_releases (h : Releases cfg io s id json) :
    ∃ reason threw, Added s (s.onMessage cfg io id (.text (.ok json))).1 (.close id graduated reason threw) := by
  obtain ⟨conn, m, hreceives, hm, hdue⟩ := h
  have hstep : (s.onMessage cfg io id (.text (.ok json))).1 =
      (s.modifyConn id fun _ => { conn with lastSeenAt := io.now }).onPing cfg io id json.revive := by
    rw [onMessage_of_receives hreceives]
    unfold onFrame
    dsimp only
    rw [hreceives.type]
    rfl
  obtain ⟨t, hout, -, -, hcase⟩ := @onPing_cases cfg io _ id _ (get_heard hreceives.get) json.revive
  rcases hcase with ⟨m', -, -, c, hreleased⟩ | ⟨hnot, -⟩
  · obtain ⟨reason, threw, hclose⟩ := @added_releaseSocket cfg io t id c
    refine ⟨reason, threw, ?_⟩
    rw [hstep, hreleased]
    exact hclose.after (P := fun _ _ => True) (Emits.of_out_eq hout)
  · exact absurd hdue (hnot m hm)

/-- Rule 4 releases a connection on a ping that has it closed with 4200. -/
theorem releases_iff_closed : Releases cfg io s id json ↔
    JsVal.asString (json.revive.field (js "type")) = some (js "ping") ∧ ∃ reason threw,
      Added s (s.onMessage cfg io id (.text (.ok json))).1 (.close id graduated reason threw) := by
  constructor
  · intro h
    refine ⟨?_, added_of_releases h⟩
    obtain ⟨conn, m, hreceives, -⟩ := h
    exact hreceives.type
  · rintro ⟨htype, reason, threw, hadded⟩
    exact releases_of_added htype hadded

end Server

/-! ### Sockets and channels -/

/-- The bridge, the connections whose door channel of this epoch is open and bound to an identity, and
those whose channel has ended since it was last bound. -/
structure DoorBridge where
  bridge : Bridge
  alive : List ConnId := []
  ended : List ConnId := []

/-- An event of the bridge, or the end of a bound channel: it dies, the mesh retires it, or the kernel
takes its identity from it. -/
inductive DoorBridge.Event where
  | bridge (e : Io × AxonaBridge.Event)
  | channelEnds (connId : ConnId)

namespace DoorBridge

def bindChannel (d : DoorBridge) (connId : ConnId) : DoorBridge :=
  { d with
    alive := if connId ∈ d.alive then d.alive else d.alive ++ [connId]
    ended := d.ended.filter (· ≠ connId) }

def endChannel (d : DoorBridge) (connId : ConnId) : DoorBridge :=
  { d with
    alive := d.alive.filter (· ≠ connId)
    ended := if connId ∈ d.ended then d.ended else d.ended ++ [connId] }

/-- The newcomer is bound before room is made for it. The close of a socket leaves its channel open. -/
def step (cfg : Config) (d : DoorBridge) : Event → DoorBridge
  | .bridge e =>
      let binds := d.bridge.server.channelBinds cfg e.1 e.2
      let retires := d.bridge.server.channelRetires cfg e.1 e.2
      let d := { d with bridge := d.bridge.step cfg e }
      let d := binds.elim d d.bindChannel
      retires.elim d d.endChannel
  | .channelEnds connId => d.endChannel connId

def Enabled (cfg : Config) (d : DoorBridge) : Event → Prop
  | .bridge e => d.bridge.Enabled cfg e
  | .channelEnds connId => connId ∈ d.alive

def system (cfg : Config) (reportBound : Bool) : System DoorBridge Event where
  init := { bridge := Bridge.init cfg reportBound }
  enabled := Enabled cfg
  step := step cfg

/-- Rule 4 closes a connection: the ping that arrives on it has it closed with 4200. -/
def Frees (cfg : Config) (d : DoorBridge) : Event → ConnId → Prop
  | .bridge e, id => ∃ json, e.2 = .message id (.text (.ok json)) ∧
      JsVal.asString (json.revive.field (js "type")) = some (js "ping") ∧ ∃ reason threw,
        Server.Added d.bridge.server (d.bridge.step cfg e).server
          (.close id graduated reason threw)
  | .channelEnds _, _ => False

/-- What rule 4 closes has its channel alive and bound. -/
def FreesBound (cfg : Config) (d : DoorBridge) (e : Event) : Prop :=
  ∀ id, Frees cfg d e id → id ∈ d.alive

/-- No ping that meets the tests of rule 4 comes on a connection whose bound channel has ended. -/
def PingsBound (cfg : Config) (d : DoorBridge) : Event → Prop
  | .bridge e => ∀ id json, e.2 = .message id (.text (.ok json)) →
      Server.Releases cfg e.1 d.bridge.server id json → id ∉ d.ended
  | .channelEnds _ => True

variable {cfg : Config} {d : DoorBridge} {connId id : ConnId}

theorem frees_iff {e : Io × AxonaBridge.Event} :
    Frees cfg d (.bridge e) id ↔ ∃ json, e.2 = .message id (.text (.ok json)) ∧
      Server.Releases cfg e.1 d.bridge.server id json := by
  refine exists_congr fun json => and_congr_right fun hevent => ?_
  rw [Bridge.server_step_of_event hevent]
  exact Server.releases_iff_closed.symm

/-! ### The marks along a run -/

/-- A marked channel is alive or has ended, and no channel is both. -/
structure Accounts (d : DoorBridge) : Prop where
  marked : ∀ c ∈ d.bridge.server.node.doorChannelBound, c ∈ d.alive ∨ c ∈ d.ended
  apart : ∀ c ∈ d.alive, c ∉ d.ended

theorem mem_alive_bindChannel : id ∈ (d.bindChannel connId).alive ↔ id ∈ d.alive ∨ id = connId := by
  unfold bindChannel
  dsimp only
  split
  · rename_i hmem
    exact ⟨Or.inl, fun h => h.elim (fun h => h) fun h => h ▸ hmem⟩
  · rw [List.mem_append, List.mem_singleton]

theorem mem_ended_bindChannel : id ∈ (d.bindChannel connId).ended ↔ id ∈ d.ended ∧ id ≠ connId := by
  simp [bindChannel]

theorem mem_alive_endChannel : id ∈ (d.endChannel connId).alive ↔ id ∈ d.alive ∧ id ≠ connId := by
  simp [endChannel]

theorem mem_ended_endChannel : id ∈ (d.endChannel connId).ended ↔ id ∈ d.ended ∨ id = connId := by
  unfold endChannel
  dsimp only
  split
  · rename_i hmem
    exact ⟨Or.inl, fun h => h.elim (fun h => h) fun h => h ▸ hmem⟩
  · rw [List.mem_append, List.mem_singleton]

theorem Accounts.endChannel (h : d.Accounts) (connId : ConnId) : (d.endChannel connId).Accounts where
  marked c hc := by
    rw [mem_alive_endChannel, mem_ended_endChannel]
    by_cases hid : c = connId
    · exact Or.inr (Or.inr hid)
    · exact (h.marked c hc).imp (fun halive => ⟨halive, hid⟩) Or.inl
  apart c hc := by
    rw [mem_alive_endChannel] at hc
    rw [mem_ended_endChannel, not_or]
    exact ⟨h.apart c hc.1, hc.2⟩

/-- A bind accounts for one more mark. -/
theorem accounts_bindChannel
    (hmarked : ∀ c ∈ d.bridge.server.node.doorChannelBound, (c ∈ d.alive ∨ c ∈ d.ended) ∨ c = connId)
    (hapart : ∀ c ∈ d.alive, c ∉ d.ended) : (d.bindChannel connId).Accounts where
  marked c hc := by
    rw [mem_alive_bindChannel, mem_ended_bindChannel]
    by_cases hid : c = connId
    · exact Or.inl (Or.inr hid)
    · exact ((hmarked c hc).resolve_right hid).imp Or.inl fun hended => ⟨hended, hid⟩
  apart c hc := by
    rw [mem_alive_bindChannel] at hc
    rw [mem_ended_bindChannel, not_and, not_not]
    exact fun hended => hc.resolve_left fun halive => hapart c halive hended

theorem Accounts.step (h : d.Accounts) (e : Event) : (d.step cfg e).Accounts := by
  cases e with
  | channelEnds connId => exact h.endChannel connId
  | bridge e =>
      have hmarks : ∀ c ∈ (d.bridge.step cfg e).server.node.doorChannelBound,
          (c ∈ d.alive ∨ c ∈ d.ended) ∨ d.bridge.server.channelBinds cfg e.1 e.2 = some c :=
        fun c hc => (Server.of_mem_doorChannelBound_step hc).imp_left (h.marked c)
      have hbinds : ((d.bridge.server.channelBinds cfg e.1 e.2).elim
          ({ d with bridge := d.bridge.step cfg e } : DoorBridge)
            ({ d with bridge := d.bridge.step cfg e } : DoorBridge).bindChannel).Accounts := by
        cases hc : d.bridge.server.channelBinds cfg e.1 e.2 with
        | none =>
            refine ⟨fun c hmem => (hmarks c hmem).resolve_right ?_, h.apart⟩
            rw [hc]
            exact fun heq => by cases heq
        | some connId =>
            refine accounts_bindChannel (fun c hmem => (hmarks c hmem).imp_right fun heq => ?_) h.apart
            rw [hc] at heq
            exact (Option.some.inj heq).symm
      unfold DoorBridge.step
      dsimp only
      cases d.bridge.server.channelRetires cfg e.1 e.2 with
      | none => exact hbinds
      | some victim => exact hbinds.endChannel victim

/-- In a state whose marks are accounted for, rule 4 is right about a channel unless it has ended. -/
theorem freesBound_iff (h : d.Accounts) (e : Event) : FreesBound cfg d e ↔ PingsBound cfg d e := by
  cases e with
  | channelEnds connId => exact iff_of_true (fun _ hfrees => hfrees.elim) trivial
  | bridge e =>
      constructor
      · exact fun hbound id json hevent hreleases =>
          h.apart id (hbound id (frees_iff.mpr ⟨json, hevent, hreleases⟩))
      · intro hpings id hfrees
        obtain ⟨json, hevent, hreleases⟩ := frees_iff.mp hfrees
        have hmark : id ∈ d.bridge.server.node.doorChannelBound := by
          obtain ⟨conn, m, -, -, hdue⟩ := hreleases
          exact hdue.2.2.1
        exact (h.marked id hmark).resolve_right (hpings id json hevent hreleases)

/-- **Release on a bound channel.** Along a run of sockets and channels from the start, whatever rule 4
closes has its door channel alive and bound exactly when no ping that meets its tests comes on a
connection whose channel has ended since it was last bound. -/
theorem freesBound_along_iff (cfg : Config) (reportBound : Bool) {es : List Event}
    (hes : (system cfg reportBound).Valid (system cfg reportBound).init es) :
    (system cfg reportBound).Along (FreesBound cfg) (system cfg reportBound).init es ↔
      (system cfg reportBound).Along (PingsBound cfg) (system cfg reportBound).init es := by
  refine System.along_congr_of_invariant (I := Accounts) (fun d e h _ => freesBound_iff h e)
    (fun d e h _ _ => h.step e) ⟨?_, ?_⟩ hes
  · exact fun c hc => absurd hc List.not_mem_nil
  · exact fun c hc => absurd hc List.not_mem_nil

/-- A bridge with its door open and one channel under its cap. -/
def oneChannel : Config := { node := { id := 1, epoch := js "0a1b2c3d", sb := some {}, cap := 1 } }

/-- A connection sends its first signal to the bridge. -/
def negotiates (connId : ConnId) : Event :=
  .bridge ({}, .message connId (.text (.ok (.obj [(js "type", .str (js "signal")),
    (js "to", .str (js "c-self-0a1b2c3d")), (js "payload", .obj [])]))))

/-- A connection reports a mesh of four channels. -/
def reports (connId : ConnId) : Event :=
  .bridge ({}, .message connId (.text (.ok (.obj [(js "type", .str (js "ping")),
    (js "meshBound", .num (.ofInt 4))]))))

/-- Two connections negotiate a channel with the bridge. The first binds. -/
def oneBinds : List Event :=
  [.bridge ({}, .connect (js "c1")), .bridge ({}, .message (js "c1") Bridge.currentHello),
    .bridge ({}, .connect (js "c2")), .bridge ({}, .message (js "c2") Bridge.currentHello),
    .bridge ({}, .meshUp), negotiates (js "c1"), negotiates (js "c2"),
    .bridge ({}, .doorBind 7 (js "d0a1b2c3d:c1") { preflight := .ok (true, js "room") })]

/-- The second binds, and the first is retired to make room for it. -/
def nextBinds : Event :=
  .bridge ({}, .doorBind 8 (js "d0a1b2c3d:c2")
    { preflight := .ok (true, js "room")
      openCounted := 2
      victim := some (js "d0a1b2c3d:c1")
      victimId := some 7 })

theorem valid_oneBinds :
    (system oneChannel false).Valid (system oneChannel false).init (oneBinds ++ [nextBinds]) := by
  have hkey : oneChannel.node.ownDoorKey (js "d0a1b2c3d:c1") = some (js "c1") := by decide +kernel
  have hkey' : oneChannel.node.ownDoorKey (js "d0a1b2c3d:c2") = some (js "c2") := by decide +kernel
  refine ⟨?_, ?_, ?_, ?_, trivial, ?_, ?_, fun c hc => ?_, fun c hc => ?_, trivial⟩
  · change js "c1" = mintConnId 1
    decide +kernel
  · change JsMap.has _ _ = true
    decide +kernel
  · change js "c2" = mintConnId 2
    decide +kernel
  · change JsMap.has _ _ = true
    decide +kernel
  · change JsMap.has _ _ = true
    decide +kernel
  · change JsMap.has _ _ = true
    decide +kernel
  · rw [hkey] at hc
    cases hc
    decide +kernel
  · rw [hkey'] at hc
    cases hc
    decide +kernel

/-- The report on the first connection has it closed, before the second has bound and after. -/
theorem frees_reports {es : List Event} (hes : es = oneBinds ∨ es = oneBinds ++ [nextBinds]) :
    Frees oneChannel ((system oneChannel false).after (system oneChannel false).init es)
      (reports (js "c1")) (js "c1") := by
  have hdue : (((system oneChannel false).after (system oneChannel false).init
      es).bridge.server.connections.get (js "c1")).any (fun conn => conn.admitted &&
        Server.ReleaseDue oneChannel {} ((system oneChannel false).after
          (system oneChannel false).init es).bridge.server (js "c1")
            { conn with meshBound := some 4, meshBoundAt := 0 }) = true := by
    rcases hes with rfl | rfl
    · decide +kernel
    · decide +kernel
  obtain ⟨conn, hget, hdue⟩ := Option.any_eq_true _ _ |>.mp hdue
  rw [Bool.and_eq_true, decide_eq_true_eq] at hdue
  exact frees_iff.mpr ⟨_, rfl, conn, 4, ⟨hget, hdue.1, by decide +kernel⟩, by decide +kernel, hdue.2⟩

theorem freesBound_oneBinds :
    Frees oneChannel ((system oneChannel false).after (system oneChannel false).init oneBinds)
        (reports (js "c1")) (js "c1") ∧
      js "c1" ∈ ((system oneChannel false).after (system oneChannel false).init oneBinds).alive := by
  have hes : (system oneChannel false).Valid (system oneChannel false).init
      (oneBinds ++ [reports (js "c1")]) := by
    refine System.along_append.mpr ⟨(System.along_append.mp valid_oneBinds).1, ?_, trivial⟩
    change JsMap.has _ _ = true
    decide +kernel
  have hopen : (system oneChannel false).Along (fun d _ => d.ended = []) (system oneChannel false).init
      (oneBinds ++ [reports (js "c1")]) := by
    decide +kernel
  have hpings : (system oneChannel false).Along (PingsBound oneChannel) (system oneChannel false).init
      (oneBinds ++ [reports (js "c1")]) := by
    refine hopen.mono fun d e hended => ?_
    cases e with
    | channelEnds connId => trivial
    | bridge e =>
        intro id json _ _
        rw [hended]
        exact List.not_mem_nil
  have hfrees := frees_reports (Or.inl rfl)
  have hbound := (freesBound_along_iff oneChannel false hes).mpr hpings
  exact ⟨hfrees, (System.along_append.mp hbound).2.1 _ hfrees⟩

/-- A connection whose channel was retired to make room for another is closed because its channel is
bound. -/
theorem not_freesBound_nextBinds :
    (system oneChannel false).Valid (system oneChannel false).init
        (oneBinds ++ [nextBinds] ++ [reports (js "c1")]) ∧
      ¬(system oneChannel false).Along (FreesBound oneChannel) (system oneChannel false).init
        (oneBinds ++ [nextBinds] ++ [reports (js "c1")]) := by
  constructor
  · refine System.along_append.mpr ⟨valid_oneBinds, ?_, trivial⟩
    change JsMap.has _ _ = true
    decide +kernel
  · intro h
    have halive := (System.along_append.mp h).2.1 _ (frees_reports (Or.inr rfl))
    revert halive
    decide +kernel

end DoorBridge

end AxonaBridge
