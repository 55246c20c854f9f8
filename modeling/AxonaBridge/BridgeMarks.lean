import AxonaBridge.BridgeRelease

/-!
# The marks of the channels that have bound

A mark is set by the bind policy and by a switch of route, whenever the kernel calls them, and cleared by
the close of the socket. A channel that binds after its socket closed leaves a mark that nothing clears.
-/

open JsText

namespace AxonaBridge

namespace Node

variable {cfg : NodeConfig} {k : Kernel} {n : Node} {connId : ConnId} {now : Int} {input : BindInput}
  {nodeId : NodeId} {token : JsString}

/-- The policy lets a bind under a door key of this epoch through: the identity is not in cooldown, the
gate admits it, and at the cap the budget allows a retire and the mesh names an incumbent. -/
def BindDue (cfg : NodeConfig) (now : Int) (n : Node) (input : BindInput) (nodeId : NodeId) : Prop :=
  (n.sbRetired.hasIdentity (idToHex nodeId) now).1 = false ∧
    (∃ how, input.preflight = .ok (true, how)) ∧
    (0 < cfg.cap ∧ cfg.cap < input.openCounted →
      (n.sbBudget.ok now).1 = true ∧ input.victim.isSome = true)

theorem makeRoom_bound_iff {idHex : JsString} :
    (n.makeRoom cfg now input connId idHex).1 = .bound ↔
      (0 < cfg.cap ∧ cfg.cap < input.openCounted →
        (n.sbBudget.ok now).1 = true ∧ input.victim.isSome = true) := by
  unfold makeRoom
  by_cases hfull : 0 < cfg.cap ∧ cfg.cap < input.openCounted
  · rw [if_pos hfull]
    dsimp only
    cases hok : (n.sbBudget.ok now).1 with
    | false => simp [refuseBind, hfull]
    | true => cases input.victim <;> simp [refuseBind, hfull]
  · rw [if_neg hfull]
    simp [hfull]

theorem bindPolicy_bound_iff : (n.bindPolicy cfg now input nodeId token).1 = .bound ↔
    (∃ c, cfg.ownDoorKey token = some c) ∧ n.BindDue cfg now input nodeId := by
  unfold bindPolicy BindDue
  cases cfg.ownDoorKey token with
  | none => simp
  | some c =>
      dsimp only
      cases hhit : (n.sbRetired.hasIdentity (idToHex nodeId) now).1 with
      | true => simp [refuseBind]
      | false =>
          cases input.preflight with
          | error err => simp [refuseBind]
          | ok pre =>
              obtain ⟨_ | _, how⟩ := pre
              · simp [refuseBind]
              · have hroom := @makeRoom_bound_iff cfg
                  { n with sbRetired := (n.sbRetired.hasIdentity (idToHex nodeId) now).2 } c now input
                  (idToHex nodeId)
                rw [if_neg Bool.false_ne_true]
                generalize makeRoom cfg { n with
                  sbRetired := (n.sbRetired.hasIdentity (idToHex nodeId) now).2 } now input c
                  (idToHex nodeId) = made at hroom ⊢
                obtain ⟨_ | why | _, m, out⟩ := made <;> simpa using hroom

/-! ### Where signals were handed to the mesh -/

theorem negotiated_sendHello (c : ConnId) (nonce : JsString) :
    (n.sendHello c nonce).1.negotiated = n.negotiated := by
  unfold sendHello
  split
  · rfl
  · dsimp only
    split <;> rfl

theorem negotiated_helloBuilt (i : Nat) (hello : Except JsString JsVal) :
    (n.helloBuilt i hello).1.negotiated = n.negotiated := by
  unfold helloBuilt
  split
  · rfl
  · cases hello <;> rfl

theorem negotiated_ackBuilt (i : Nat) (ack : Except JsString JsVal) :
    (n.ackBuilt i ack).1.negotiated = n.negotiated := by
  unfold ackBuilt
  split
  · rfl
  · cases ack <;> rfl

theorem negotiated_completeHandshake (c : ConnId) (peerNodeId : NodeId) :
    (n.completeHandshake cfg k c peerNodeId).1.negotiated = n.negotiated := by
  unfold completeHandshake
  split
  · rfl
  · dsimp only
    split
    · rfl
    · dsimp only
      split <;> rfl

theorem negotiated_act (isConnOpen : ConnId → Bool) (a : KernelAct) :
    (n.act isConnOpen a).1.negotiated = n.negotiated := by
  cases a with
  | notify nodeId type body =>
      unfold act
      dsimp only
      split
      · rfl
      · split
        · rfl
        · split
          · rfl
          · split <;> rfl
  | _ => rfl

theorem negotiated_runActs (isConnOpen : ConnId → Bool) (as : List KernelAct) :
    (n.runActs isConnOpen as).1.negotiated = n.negotiated := by
  induction as generalizing n with
  | nil => rfl
  | cons a as ih => exact ih.trans (negotiated_act isConnOpen a)

theorem negotiated_handleRequest (isConnOpen : ConnId → Bool) (c : ConnId) (msg : JsVal) :
    (n.handleRequest cfg k isConnOpen c msg).1.negotiated = n.negotiated := by
  unfold handleRequest
  dsimp only
  split
  · split
    · exact negotiated_runActs isConnOpen k.acts
    · rfl
  · split <;> rfl

theorem negotiated_answered (i : Nat) (ok : Bool) (body : Option JsVal) :
    (n.answered i ok body).1.negotiated = n.negotiated := by
  unfold answered
  split <;> rfl

theorem negotiated_verified (i : Nat) (res : AuthResult) :
    (n.verified cfg k i res).1.negotiated = n.negotiated := by
  unfold verified
  split
  · rfl
  · cases res with
    | refused reason => rfl
    | ok nodeId =>
        dsimp only
        split
        · rfl
        · split
          · rfl
          · exact negotiated_completeHandshake _ _

theorem negotiated_verifyPeerHello (sender : Sender) (body : Option JsVal) (label : HelloLabel) :
    (n.verifyPeerHello sender body label).1.negotiated = n.negotiated := by
  cases sender with
  | node nodeId => rfl
  | conn c =>
      unfold verifyPeerHello
      dsimp only
      split <;> rfl

theorem negotiated_reinforce (body : Option JsVal) : (n.reinforce k body).1.negotiated = n.negotiated := by
  unfold reinforce
  split <;> rfl

theorem negotiated_introduce (name addedBy : JsString) (body : Option JsVal) :
    (n.introduce cfg k name addedBy body).negotiated = n.negotiated := by
  unfold Node.introduce
  split
  · split <;> rfl
  · rfl

theorem negotiated_handleNotification (isConnOpen : ConnId → Bool) (sender : Sender) (msg : JsVal) :
    (n.handleNotification cfg k isConnOpen sender msg).1.negotiated = n.negotiated := by
  unfold handleNotification
  dsimp only
  split
  · rfl
  · split_ifs
    · exact negotiated_runActs isConnOpen k.acts
    · exact negotiated_verifyPeerHello _ _ _
    · exact negotiated_verifyPeerHello _ _ _
    · exact negotiated_reinforce _
    · exact negotiated_introduce _ _ _
    · exact negotiated_introduce _ _ _
    · rfl

theorem negotiated_handleAxonaFrame (isConnOpen : ConnId → Bool) (c : ConnId) (payload : JsVal) :
    (n.handleAxonaFrame cfg k isConnOpen c payload).1.negotiated = n.negotiated := by
  unfold handleAxonaFrame
  dsimp only
  split
  · rfl
  · rfl
  · exact negotiated_handleRequest isConnOpen c _
  · exact negotiated_handleNotification isConnOpen _ _

theorem negotiated_handleConnClosed (c : ConnId) :
    (n.handleConnClosed cfg k c).negotiated = n.negotiated := by
  unfold handleConnClosed peerDied
  dsimp only
  split
  · split <;> rfl
  · rfl

/-! ### What sets a mark and what clears one -/

theorem doorChannelBound_bindPolicy :
    ((n.bindPolicy cfg now input nodeId token).1 ≠ .bound ∧
        (n.bindPolicy cfg now input nodeId token).2.1.doorChannelBound = n.doorChannelBound) ∨
      ∃ c, cfg.ownDoorKey token = some c ∧ (n.bindPolicy cfg now input nodeId token).1 = .bound ∧
        (n.bindPolicy cfg now input nodeId token).2.1.doorChannelBound =
          if c ∈ n.doorChannelBound then n.doorChannelBound else n.doorChannelBound ++ [c] := by
  unfold bindPolicy
  cases cfg.ownDoorKey token with
  | none => exact Or.inl ⟨BindVerdict.noConfusion, rfl⟩
  | some c =>
      dsimp only
      cases (n.sbRetired.hasIdentity (idToHex nodeId) now).1 with
      | true => exact Or.inl ⟨BindVerdict.noConfusion, rfl⟩
      | false =>
          rw [if_neg Bool.false_ne_true]
          cases input.preflight with
          | error err => exact Or.inl ⟨BindVerdict.noConfusion, rfl⟩
          | ok pre =>
              obtain ⟨_ | _, how⟩ := pre
              · exact Or.inl ⟨BindVerdict.noConfusion, rfl⟩
              · have hroom := (@Quiet.makeRoom cfg
                  { n with sbRetired := (n.sbRetired.hasIdentity (idToHex nodeId) now).2 } now input c
                  (idToHex nodeId)).bound
                dsimp only
                generalize makeRoom cfg { n with
                  sbRetired := (n.sbRetired.hasIdentity (idToHex nodeId) now).2 } now input c
                  (idToHex nodeId) = made at hroom ⊢
                obtain ⟨_ | why | _, m, out⟩ := made
                · exact Or.inl ⟨BindVerdict.noConfusion, hroom⟩
                · exact Or.inl ⟨BindVerdict.noConfusion, hroom⟩
                · dsimp only at hroom
                  exact Or.inr ⟨c, rfl, rfl, by dsimp only; rw [hroom]⟩

theorem doorChannelBound_onRouteToDoor {c : ConnId} (hkey : cfg.ownDoorKey token = some c) :
    (n.onRouteToDoor cfg nodeId token).1.doorChannelBound =
      if c ∈ n.doorChannelBound then n.doorChannelBound else n.doorChannelBound ++ [c] := by
  unfold onRouteToDoor
  rw [hkey]
  dsimp only
  split <;> rfl

theorem doorChannelBound_handleConnClosed (c : ConnId) :
    (n.handleConnClosed cfg k c).doorChannelBound =
      if cfg.sb.isSome then n.doorChannelBound.filter (· ≠ c) else n.doorChannelBound := by
  unfold handleConnClosed
  exact (Quiet.peerDied _).bound

end Node

namespace Server

variable {cfg : Config} {io : Io} {s : Server} {c connId : ConnId} {e : Event}

/-- The connection under whose door key a channel binds is let through. -/
theorem channelBinds_iff : s.channelBinds cfg io e = some c ↔
    (∃ nodeId token input, e = .doorBind nodeId token input ∧ cfg.node.ownDoorKey token = some c ∧
      s.node.BindDue cfg.node io.now input nodeId) ∨
      ∃ nodeId token, e = .routeToDoor nodeId token ∧ cfg.node.ownDoorKey token = some c := by
  cases e with
  | doorBind nodeId token input =>
      have hiff := @Node.bindPolicy_bound_iff cfg.node s.node io.now input nodeId token
      rw [channelBinds]
      constructor
      · intro h
        split at h
        · rename_i hbound
          exact Or.inl ⟨nodeId, token, input, rfl, h, (hiff.mp hbound).2⟩
        · cases h
      · rintro (⟨_, _, _, heq, hkey, hdue⟩ | ⟨_, _, heq, -⟩)
        · cases heq
          rw [if_pos (hiff.mpr ⟨⟨c, hkey⟩, hdue⟩), hkey]
        · cases heq
  | routeToDoor nodeId token =>
      constructor
      · exact fun h => Or.inr ⟨nodeId, token, rfl, h⟩
      · rintro (⟨_, _, _, heq, -⟩ | ⟨_, _, heq, hkey⟩)
        · cases heq
        · cases heq
          exact hkey
  | _ => simp [channelBinds]

/-- A step keeps the marks, or sets the one of the channel that binds, or clears those of the socket that
closes. -/
theorem doorChannelBound_step :
    (s.step cfg io e).node.doorChannelBound = s.node.doorChannelBound ∨
      (∃ c, s.channelBinds cfg io e = some c ∧ (s.step cfg io e).node.doorChannelBound =
        if c ∈ s.node.doorChannelBound then s.node.doorChannelBound
        else s.node.doorChannelBound ++ [c]) ∨
      ∃ id code reason, e = .closed id code reason ∧ (s.step cfg io e).node.doorChannelBound =
        if cfg.node.sb.isSome then s.node.doorChannelBound.filter (· ≠ id)
        else s.node.doorChannelBound := by
  have hnode := nodeStep cfg io s e
  generalize (s.step cfg io e).node = n at hnode ⊢
  cases hnode with
  | same e => exact Or.inl rfl
  | hello hadmits => exact Or.inl (Node.doorChannelBound_sendHello _ _)
  | axona hid hcarries => exact Or.inl (Node.doorChannelBound_handleAxonaFrame _ _ _)
  | signal data payload hid => exact Or.inl (Node.Quiet.deliverDoorSignal _ _ _).bound
  | closed code reason hhas =>
      exact Or.inr (Or.inr ⟨_, code, reason, rfl, Node.doorChannelBound_handleConnClosed _⟩)
  | requestTimeout promise => exact Or.inl rfl
  | meshUp => exact Or.inl rfl
  | helloBuilt i hello => exact Or.inl (Node.Quiet.helloBuilt i hello).bound
  | verified i res => exact Or.inl (Node.doorChannelBound_verified i res)
  | ackBuilt i ack => exact Or.inl (Node.Quiet.ackBuilt i ack).bound
  | answered i ok body => exact Or.inl (Node.Quiet.answered i ok body).bound
  | kernel act => exact Or.inl (Node.Quiet.act s.isConnOpen act).bound
  | doorBind nodeId token input =>
      rcases @Node.doorChannelBound_bindPolicy cfg.node s.node io.now input nodeId token with
        ⟨-, hsame⟩ | ⟨c, hkey, hbound, hmarks⟩
      · exact Or.inl hsame
      · exact Or.inr (Or.inl ⟨c, (if_pos hbound).trans hkey, hmarks⟩)
  | routeToDoor nodeId token =>
      cases hkey : cfg.node.ownDoorKey token with
      | none => exact Or.inl (by rw [Node.onRouteToDoor, hkey])
      | some c => exact Or.inr (Or.inl ⟨c, hkey, Node.doorChannelBound_onRouteToDoor hkey⟩)

/-- With the flag off no signal is handed to the mesh. -/
theorem negotiated_step (hoff : cfg.node.sb = none)
    (hkey : ∀ token c, e.doorToken = some token → cfg.node.ownDoorKey token ≠ some c) :
    (s.step cfg io e).node.negotiated = s.node.negotiated := by
  have hnode := nodeStep cfg io s e
  generalize (s.step cfg io e).node = n at hnode ⊢
  cases hnode with
  | same e => rfl
  | hello hadmits => exact Node.negotiated_sendHello _ _
  | axona hid hcarries => exact Node.negotiated_handleAxonaFrame _ _ _
  | signal data payload hid =>
      rw [Node.deliverDoorSignal, if_pos (Or.inl (by rw [hoff]; rfl))]
  | closed code reason hhas => exact Node.negotiated_handleConnClosed _
  | requestTimeout promise => rfl
  | meshUp => rfl
  | helloBuilt i hello => exact Node.negotiated_helloBuilt i hello
  | verified i res => exact Node.negotiated_verified i res
  | ackBuilt i ack => exact Node.negotiated_ackBuilt i ack
  | answered i ok body => exact Node.negotiated_answered i ok body
  | kernel act => exact Node.negotiated_act s.isConnOpen act
  | doorBind nodeId token input =>
      have hnone : cfg.node.ownDoorKey token = none :=
        Option.eq_none_iff_forall_ne_some.mpr fun c => hkey token c rfl
      rw [Node.bindPolicy, hnone]
  | routeToDoor nodeId token =>
      have hnone : cfg.node.ownDoorKey token = none :=
        Option.eq_none_iff_forall_ne_some.mpr fun c => hkey token c rfl
      rw [Node.onRouteToDoor, hnone]

theorem mem_doorChannelBound_of_channelBinds (h : s.channelBinds cfg io e = some c) :
    c ∈ (s.step cfg io e).node.doorChannelBound := by
  have hset : ∀ l : List ConnId, c ∈ if c ∈ l then l else l ++ [c] := fun l => by
    split
    · assumption
    · exact List.mem_append_right _ (List.mem_singleton_self c)
  rcases channelBinds_iff.mp h with ⟨nodeId, token, input, rfl, hkey, hdue⟩ | ⟨nodeId, token, rfl, hkey⟩
  · rw [step, node_withNode]
    rcases @Node.doorChannelBound_bindPolicy cfg.node s.node io.now input nodeId token with
      ⟨hnot, -⟩ | ⟨c', hkey', -, hmarks⟩
    · exact absurd (Node.bindPolicy_bound_iff.mpr ⟨⟨c, hkey⟩, hdue⟩) hnot
    · rw [hkey] at hkey'
      cases hkey'
      rw [hmarks]
      exact hset _
  · rw [step, node_withNode, Node.doorChannelBound_onRouteToDoor hkey]
    exact hset _

theorem connections_of_channelBinds (h : s.channelBinds cfg io e = some c) :
    (s.step cfg io e).connections = s.connections := by
  rcases channelBinds_iff.mp h with ⟨_, _, _, rfl, -⟩ | ⟨_, _, rfl, -⟩ <;>
    rw [step, connections_withNode]

end Server

namespace Bridge

variable {cfg : Config} {reportBound : Bool} {b : Bridge} {e : Io × Event} {es : List (Io × Event)}
  {c : ConnId}

/-- Every mark is that of a connection at the door. -/
def MarksOpen (b : Bridge) : Prop :=
  ∀ c ∈ b.server.node.doorChannelBound, b.server.connections.has c = true

/-- A bind that the policy lets through, and a switch of route, under a door key of this epoch, comes
while the connection of the key is at the door. -/
def BindsOpen (cfg : Config) (b : Bridge) (e : Io × Event) : Prop :=
  match e.2 with
  | .doorBind nodeId token input => ∀ c, cfg.node.ownDoorKey token = some c →
      b.server.node.BindDue cfg.node e.1.now input nodeId → b.server.connections.has c = true
  | .routeToDoor _ token => ∀ c, cfg.node.ownDoorKey token = some c →
      b.server.connections.has c = true
  | _ => True

theorem bindsOpen_iff : BindsOpen cfg b e ↔
    ∀ c, b.server.channelBinds cfg e.1 e.2 = some c → b.server.connections.has c = true := by
  obtain ⟨io, e⟩ := e
  simp only [Server.channelBinds_iff]
  cases e with
  | doorBind nodeId token input =>
      constructor
      · rintro h c (⟨_, _, _, heq, hkey, hdue⟩ | ⟨_, _, heq, -⟩)
        · cases heq
          exact h c hkey hdue
        · cases heq
      · exact fun h c hkey hdue => h c (Or.inl ⟨nodeId, token, input, rfl, hkey, hdue⟩)
  | routeToDoor nodeId token =>
      constructor
      · rintro h c (⟨_, _, _, heq, -⟩ | ⟨_, _, heq, hkey⟩)
        · cases heq
        · cases heq
          exact h c hkey
      · exact fun h c hkey => h c (Or.inr ⟨nodeId, token, rfl, hkey⟩)
  | _ => simp [BindsOpen]

/-- The marks are distinct, and with the flag off there are none. -/
structure DistinctMarks (cfg : Config) (b : Bridge) : Prop where
  nodup : b.server.node.doorChannelBound.Nodup
  flagOff : cfg.node.sb = none →
    b.server.node.negotiated = [] ∧ b.server.node.doorChannelBound = []

/-- With the flag off no event is about a door key of this epoch. -/
theorem ownDoorKey_ne (h : b.server.node.negotiated = []) (he : b.Enabled cfg e) {token : JsString}
    (htoken : e.2.doorToken = some token) : cfg.node.ownDoorKey token ≠ some c := by
  intro hkey
  have hsink : b.SinkEnabled cfg token := by
    obtain ⟨io, e⟩ := e
    cases e with
    | doorSink key payload =>
        cases htoken
        exact he
    | doorBind nodeId token' input =>
        cases htoken
        exact he
    | routeToDoor nodeId token' =>
        cases htoken
        exact he
    | _ => cases htoken
  have hmem := hsink c hkey
  rw [h] at hmem
  exact absurd hmem List.not_mem_nil

theorem DistinctMarks.step (h : b.DistinctMarks cfg) (he : b.Enabled cfg e) : (b.step cfg e).DistinctMarks cfg := by
  constructor
  · change (b.server.step cfg e.1 e.2).node.doorChannelBound.Nodup
    rcases @Server.doorChannelBound_step cfg e.1 b.server e.2 with
      hsame | ⟨c, -, hset⟩ | ⟨id, code, reason, -, hclosed⟩
    · rw [hsame]
      exact h.nodup
    · rw [hset]
      split
      · exact h.nodup
      · rename_i hnot
        refine List.nodup_append.mpr ⟨h.nodup, List.nodup_singleton c, fun a ha d hd had => hnot ?_⟩
        rwa [← List.mem_singleton.mp hd, ← had]
    · rw [hclosed]
      split
      · exact h.nodup.filter _
      · exact h.nodup
  · intro hoff
    obtain ⟨hnegotiated, hmarks⟩ := h.flagOff hoff
    have hkey : ∀ token c, e.2.doorToken = some token → cfg.node.ownDoorKey token ≠ some c :=
      fun token c htoken => ownDoorKey_ne hnegotiated he htoken
    refine ⟨(Server.negotiated_step hoff hkey).trans hnegotiated, ?_⟩
    change (b.server.step cfg e.1 e.2).node.doorChannelBound = []
    rcases @Server.doorChannelBound_step cfg e.1 b.server e.2 with
      hsame | ⟨c, hbinds, -⟩ | ⟨id, code, reason, -, hclosed⟩
    · rw [hsame, hmarks]
    · rcases Server.channelBinds_iff.mp hbinds with ⟨_, _, _, heq, hown, -⟩ | ⟨_, _, heq, hown⟩
      · exact absurd hown (hkey _ c (by rw [heq]; rfl))
      · exact absurd hown (hkey _ c (by rw [heq]; rfl))
    · rw [hclosed, hmarks, hoff]
      rfl

theorem marksOpen_step (hmarked : b.DistinctMarks cfg) (he : b.Enabled cfg e) (hopen : b.MarksOpen)
    (hbinds : BindsOpen cfg b e) : (b.step cfg e).MarksOpen := by
  intro c hc
  change c ∈ (b.server.step cfg e.1 e.2).node.doorChannelBound at hc
  change (b.server.step cfg e.1 e.2).connections.has c = true
  by_cases hclosed : ∃ code reason, e.2 = .closed c code reason
  · -- The close of a socket clears its mark.
    obtain ⟨code, reason, heq⟩ := hclosed
    have hhas : b.server.connections.has c = true := by
      have := he
      rw [Enabled, heq] at this
      exact this
    rw [heq, Server.step, Server.node_onClose hhas, Node.doorChannelBound_handleConnClosed] at hc
    split at hc
    · exact absurd rfl (of_decide_eq_true (List.mem_filter.mp hc).2)
    · rename_i hoff
      rw [(hmarked.flagOff (Option.not_isSome_iff_eq_none.mp hoff)).2] at hc
      exact absurd hc List.not_mem_nil
  · have hkept : c ∈ b.server.node.doorChannelBound →
        (b.server.step cfg e.1 e.2).connections.has c = true := fun hmark =>
      Server.has_step (hopen c hmark) fun code reason heq => hclosed ⟨code, reason, heq⟩
    rcases Server.of_mem_doorChannelBound_step hc with hmark | hbind
    · exact hkept hmark
    · rw [Server.connections_of_channelBinds hbind]
      exact bindsOpen_iff.mp hbinds c hbind

theorem bindsOpen_of_marksOpen (h : (b.step cfg e).MarksOpen) : BindsOpen cfg b e := by
  refine bindsOpen_iff.mpr fun c hbind => ?_
  rw [← Server.connections_of_channelBinds hbind]
  exact h c (Server.mem_doorChannelBound_of_channelBinds hbind)

theorem marked_init : (init cfg reportBound).DistinctMarks cfg := ⟨List.nodup_nil, fun _ => ⟨rfl, rfl⟩⟩

/-- Marks of connections at the door are no more than these. -/
theorem length_marks_le (hmarked : b.DistinctMarks cfg) (hopen : b.MarksOpen) :
    b.server.node.doorChannelBound.length ≤ b.server.connections.size := by
  have hsub : b.server.node.doorChannelBound ⊆ b.server.connections.keys := fun c hc =>
    JsMap.has_eq_true_iff.mp (hopen c hc)
  have hle := hmarked.nodup.length_le_of_subset hsub
  rwa [JsMap.keys, List.length_map] at hle

/-- The marks are those of connections at the door, and no more than these, in every state of a run
exactly when every bind and every switch of route that sets one comes while its connection is there. -/
theorem marks_open_iff (hes : (system cfg reportBound).Valid (init cfg reportBound) es) :
    (∀ fs gs, es = fs ++ gs →
      MarksOpen ((system cfg reportBound).after (init cfg reportBound) fs) ∧
        ((system cfg reportBound).after (init cfg reportBound) fs).server.node.doorChannelBound.length ≤
          ((system cfg reportBound).after (init cfg reportBound) fs).server.connections.size) ↔
      (system cfg reportBound).Along (BindsOpen cfg) (init cfg reportBound) es := by
  constructor
  · intro h
    refine System.along_iff_split.mpr fun fs e gs hsplit => ?_
    have hafter := (h (fs ++ [e]) gs (by rw [hsplit, List.append_assoc, List.singleton_append])).1
    rw [System.after_append] at hafter
    exact bindsOpen_of_marksOpen hafter
  · rintro h fs gs rfl
    have hrun : (system cfg reportBound).Along (fun b e => b.Enabled cfg e ∧ BindsOpen cfg b e)
        (init cfg reportBound) fs :=
      System.along_and.mpr ⟨(System.along_append.mp hes).1, (System.along_append.mp h).1⟩
    have hI := hrun.invariant (I := fun b => b.DistinctMarks cfg ∧ b.MarksOpen)
      (fun b e hb he => ⟨hb.1.step he.1, marksOpen_step hb.1 he.1 hb.2 he.2⟩)
      ⟨marked_init, fun c hc => absurd hc List.not_mem_nil⟩
    exact ⟨hI.2, length_marks_le hI.1 hI.2⟩

/-- A connection has its channel negotiated, and the channel binds. -/
def bindsOne : List (Io × Event) :=
  [({}, .connect (js "c1")), ({}, .message (js "c1") currentHello), ({}, .meshUp),
    ({}, .message (js "c1") (.text (.ok (.obj [(js "type", .str (js "signal")),
      (js "to", .str (js "c-self-0a1b2c3d")), (js "payload", .obj [])]))))]

def bindNow : Io × Event :=
  ({}, .doorBind 7 (js "d0a1b2c3d:c1") { preflight := .ok (true, js "room") })

def closesOne : Io × Event := ({}, .closed (js "c1") 1000 [])

theorem valid_bindsOne : (system DoorBridge.oneChannel false).Valid (init DoorBridge.oneChannel false)
    bindsOne := by
  refine ⟨?_, ?_, trivial, ?_, trivial⟩
  · change js "c1" = mintConnId 1
    decide +kernel
  · change JsMap.has _ _ = true
    decide +kernel
  · change JsMap.has _ _ = true
    decide +kernel

theorem ownDoorKey_bindNow :
    DoorBridge.oneChannel.node.ownDoorKey (js "d0a1b2c3d:c1") = some (js "c1") := by
  decide +kernel

theorem sinkEnabled_bindNow {fs : List (Io × Event)}
    (h : js "c1" ∈ ((system DoorBridge.oneChannel false).after (init DoorBridge.oneChannel false)
      fs).server.node.negotiated) :
    ((system DoorBridge.oneChannel false).after (init DoorBridge.oneChannel false) fs).Enabled
      DoorBridge.oneChannel bindNow := by
  intro c hc
  rw [ownDoorKey_bindNow] at hc
  cases hc
  exact h

theorem marks_open_bindsOne :
    MarksOpen ((system DoorBridge.oneChannel false).after (init DoorBridge.oneChannel false)
        (bindsOne ++ [bindNow])) ∧
      ((system DoorBridge.oneChannel false).after (init DoorBridge.oneChannel false)
        (bindsOne ++ [bindNow])).server.node.doorChannelBound = [js "c1"] := by
  have hes : (system DoorBridge.oneChannel false).Valid (init DoorBridge.oneChannel false)
      (bindsOne ++ [bindNow]) :=
    System.along_append.mpr ⟨valid_bindsOne, sinkEnabled_bindNow (by decide +kernel), trivial⟩
  have hbinds : (system DoorBridge.oneChannel false).Along (BindsOpen DoorBridge.oneChannel)
      (init DoorBridge.oneChannel false) (bindsOne ++ [bindNow]) := by
    refine System.along_append.mpr ⟨⟨trivial, trivial, trivial, trivial, trivial⟩, ?_, trivial⟩
    intro c hc _
    rw [ownDoorKey_bindNow] at hc
    cases hc
    decide +kernel
  exact ⟨((marks_open_iff hes).mpr hbinds _ [] (List.append_nil _).symm).1, by decide +kernel⟩

/-- The socket closes, and then the channel binds. -/
theorem marks_open_lateBind :
    (system DoorBridge.oneChannel false).Valid (init DoorBridge.oneChannel false)
        (bindsOne ++ [closesOne, bindNow]) ∧
      ((system DoorBridge.oneChannel false).after (init DoorBridge.oneChannel false)
        (bindsOne ++ [closesOne, bindNow])).server.node.doorChannelBound = [js "c1"] ∧
      ((system DoorBridge.oneChannel false).after (init DoorBridge.oneChannel false)
        (bindsOne ++ [closesOne, bindNow])).server.connections.size = 0 := by
  refine ⟨System.along_append.mpr ⟨valid_bindsOne, ?_, ?_, trivial⟩, by decide +kernel, by decide +kernel⟩
  · change JsMap.has _ _ = true
    decide +kernel
  · exact @sinkEnabled_bindNow (bindsOne ++ [closesOne]) (by decide +kernel)

end Bridge

end AxonaBridge
