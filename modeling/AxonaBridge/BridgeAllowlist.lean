import AxonaBridge.BridgeLifetime

/-!
# The closed-fleet allowlist

The socket's handshake asks the allowlist, where it has an entry, before it completes. The bind policy
of the door asks the cooldown, the gate, the cap and the budget, and not the allowlist.
-/

open JsText

namespace AxonaBridge

/-- The identity is an entry of the comma-separated list in `FLEET_ALLOWLIST`. -/
def NodeConfig.Lists (cfg : NodeConfig) (nodeId : JsString) : Prop :=
  ∃ list, cfg.fleetAllowlist = some list ∧ nodeId ∈ (split list 44).map trim

theorem NodeConfig.mem_allowed_iff {cfg : NodeConfig} {nodeId : JsString} (hne : nodeId ≠ []) :
    nodeId ∈ cfg.allowed ↔ cfg.Lists nodeId := by
  unfold NodeConfig.allowed NodeConfig.Lists
  split
  · rename_i hnone
    simp [hnone]
  · rename_i list hlist
    rw [List.mem_filter]
    constructor
    · exact fun h => ⟨list, hlist, h.1⟩
    · intro h
      obtain ⟨list', hlist', hmem⟩ := h
      rw [hlist] at hlist'
      cases hlist'
      exact ⟨hmem, by simpa using hne⟩

namespace Node

variable {cfg : NodeConfig} {k : Kernel} {n : Node}

/-- What the bind policy lets through: a bind under one of the door's own keys, of an identity that
is not in cooldown and that the gate admits, for which there is room or room can be made. -/
structure LetsThrough (cfg : NodeConfig) (n : Node) (now : Int) (input : BindInput) (nodeId : NodeId)
    (token : JsString) : Prop where
  door : (cfg.ownDoorKey token).isSome = true
  cooled : (n.sbRetired.hasIdentity (idToHex nodeId) now).1 = false
  gate : ∃ how, input.preflight = .ok (true, how)
  room : 0 < cfg.cap → cfg.cap < input.openCounted →
    (n.sbBudget.ok now).1 = true ∧ input.victim.isSome = true

theorem makeRoom_eq_bound_iff {now : Int} {input : BindInput} {connId : ConnId} {idHex : JsString} :
    (n.makeRoom cfg now input connId idHex).1 = .bound ↔
      (0 < cfg.cap → cfg.cap < input.openCounted →
        (n.sbBudget.ok now).1 = true ∧ input.victim.isSome = true) := by
  unfold makeRoom
  split
  · rename_i hfull
    dsimp only
    split
    · rename_i hspent
      refine iff_of_false (fun h => by cases h) fun h => ?_
      rw [(h hfull.1 hfull.2).1] at hspent
      cases hspent
    · rename_i hbudget
      have hok : (n.sbBudget.ok now).1 = true := by simpa using hbudget
      split
      · rename_i hvictim
        refine iff_of_false (fun h => by cases h) fun h => ?_
        have hsome := (h hfull.1 hfull.2).2
        rw [hvictim] at hsome
        cases hsome
      · rename_i victim hvictim
        exact iff_of_true rfl fun _ _ => ⟨hok, by rw [hvictim]; rfl⟩
  · rename_i hroom
    exact iff_of_true rfl fun hcap hopen => absurd ⟨hcap, hopen⟩ hroom

theorem bindPolicy_eq_bound_iff {now : Int} {input : BindInput} {nodeId : NodeId} {token : JsString} :
    (n.bindPolicy cfg now input nodeId token).1 = .bound ↔
      n.LetsThrough cfg now input nodeId token := by
  unfold bindPolicy
  split
  · rename_i hkey
    refine iff_of_false (fun h => by cases h) fun h => ?_
    have hdoor := h.door
    rw [hkey] at hdoor
    cases hdoor
  · rename_i connId hkey
    dsimp only
    split
    · rename_i hhit
      refine iff_of_false (fun h => by cases h) fun h => ?_
      rw [h.cooled] at hhit
      cases hhit
    · rename_i hcool
      have hcooled : (n.sbRetired.hasIdentity (idToHex nodeId) now).1 = false := by simpa using hcool
      split
      · rename_i err hpre
        refine iff_of_false (fun h => by cases h) fun h => ?_
        obtain ⟨how, hhow⟩ := h.gate
        cases hpre.symm.trans hhow
      · rename_i why hpre
        refine iff_of_false (fun h => by cases h) fun h => ?_
        obtain ⟨how, hhow⟩ := h.gate
        cases hpre.symm.trans hhow
      · rename_i how hpre
        have hroom := @makeRoom_eq_bound_iff cfg
          { n with sbRetired := (n.sbRetired.hasIdentity (idToHex nodeId) now).2 } now input connId
          (idToHex nodeId)
        have hiff : n.LetsThrough cfg now input nodeId token ↔
            (0 < cfg.cap → cfg.cap < input.openCounted →
              (n.sbBudget.ok now).1 = true ∧ input.victim.isSome = true) :=
          ⟨fun h => h.room, fun h => ⟨by rw [hkey]; rfl, hcooled, ⟨how, hpre⟩, h⟩⟩
        rw [hiff, ← hroom]
        split
        · rename_i n' out hmade
          rw [hmade]
        · exact Iff.rfl

end Node

namespace Bridge

variable {cfg : Config}

/-- Every identity admitted in this step is on the list: one a handshake of a socket completes with,
and one whose bind the door lets through. -/
def HoldsAllowlist (cfg : Config) (b : Bridge) (e : Io × Event) : Prop :=
  (∀ i nodeId connId, e.2 = .verified i (.ok nodeId) →
    b.server.node.helloByConnId.get connId ≠ some .complete →
      (b.step cfg e).server.node.helloByConnId.get connId = some .complete →
        cfg.node.Lists nodeId) ∧
  ∀ nodeId token input, e.2 = .doorBind nodeId token input →
    (b.server.node.bindPolicy cfg.node e.1.now input nodeId token).1 = .bound →
      cfg.node.Lists (idToHex nodeId)

/-- The list has an entry when a handshake of a socket completes, and the identity of a bind that
passes all checks of the door is on it. -/
def ChecksAllowlist (cfg : Config) (b : Bridge) (e : Io × Event) : Prop :=
  (∀ i res connId nodeId, e.2 = .verified i res →
    b.server.node.proven cfg.node i res = some (connId, nodeId) →
      b.server.node.helloByConnId.get connId ≠ some .complete → cfg.node.allowed ≠ []) ∧
  ∀ nodeId token input, e.2 = .doorBind nodeId token input →
    b.server.node.LetsThrough cfg.node e.1.now input nodeId token → cfg.node.Lists (idToHex nodeId)

/-- What is proven comes from a non-empty hexadecimal identity the code's own test admits. -/
theorem of_proven {n : Node} {i : Nat} {nodeId : JsString} {connId : ConnId} {peerNodeId : NodeId}
    (h : n.proven cfg.node i (.ok nodeId) = some (connId, peerNodeId)) :
    nodeId ≠ [] ∧ cfg.node.admits nodeId = true := by
  unfold Node.proven at h
  dsimp only at h
  split at h
  · cases h
  · split at h
    · rename_i hadmits
      obtain ⟨value, hvalue, -⟩ := Option.map_eq_some_iff.mp h
      refine ⟨fun hnil => ?_, hadmits⟩
      rw [hnil] at hvalue
      cases hvalue
    · cases h

/-- The handshakes a verification completes. -/
theorem hello_verified_iff {b : Bridge} {io : Io} {i : Nat} {res : Node.AuthResult} {connId : ConnId}
    (hnot : b.server.node.helloByConnId.get connId ≠ some .complete) :
    (b.step cfg (io, .verified i res)).server.node.helloByConnId.get connId = some .complete ↔
      ∃ nodeId, b.server.node.proven cfg.node i res = some (connId, nodeId) := by
  have hverified := @Node.bindings_verified cfg.node io.kernel b.server.node i res
  have hhello : (b.step cfg (io, .verified i res)).server.node.helloByConnId =
      (b.server.node.verified cfg.node io.kernel i res).1.bindings.hello := by
    rw [step, Server.step, Server.node_withNode]
    rfl
  rw [hhello, hverified]
  cases hproven : b.server.node.proven cfg.node i res with
  | none =>
      refine iff_of_false hnot fun h => ?_
      obtain ⟨nodeId, h⟩ := h
      cases h
  | some p =>
      obtain ⟨c, nodeId⟩ := p
      dsimp only
      unfold Bindings.complete
      split
      · rename_i hcomplete
        refine iff_of_false hnot fun h => ?_
        obtain ⟨nodeId', h⟩ := h
        cases h
        exact hnot hcomplete
      · dsimp only
        rw [JsMap.get_set]
        split
        · rename_i hc
          exact iff_of_true rfl ⟨nodeId, by rw [hc]⟩
        · rename_i hc
          refine iff_of_false hnot fun h => ?_
          obtain ⟨nodeId', h⟩ := h
          cases h
          exact hc rfl

theorem holdsAllowlist_iff {b : Bridge} {e : Io × Event} :
    b.HoldsAllowlist cfg e ↔ b.ChecksAllowlist cfg e := by
  obtain ⟨io, e⟩ := e
  refine and_congr ?_ ?_
  · constructor
    · intro h i res connId nodeId he hproven hnot
      cases res with
      | refused reason => cases hproven
      | ok nodeHex =>
          intro hnone
          cases he
          have hlists := h i nodeHex connId rfl hnot
            ((hello_verified_iff hnot).mpr ⟨nodeId, hproven⟩)
          rw [← NodeConfig.mem_allowed_iff (of_proven hproven).1, hnone] at hlists
          cases hlists
    · intro h i nodeHex connId he hnot hcomplete
      cases he
      obtain ⟨nodeId, hproven⟩ := (hello_verified_iff hnot).mp hcomplete
      have hentry := h i (.ok nodeHex) connId nodeId rfl hproven hnot
      obtain ⟨hne, hadmits⟩ := of_proven hproven
      rw [← NodeConfig.mem_allowed_iff hne]
      simpa [NodeConfig.admits, hentry] using hadmits
  · constructor
    · exact fun h nodeId token input he hthrough =>
        h nodeId token input he (Node.bindPolicy_eq_bound_iff.mpr hthrough)
    · exact fun h nodeId token input he hbound =>
        h nodeId token input he (Node.bindPolicy_eq_bound_iff.mp hbound)

/-- **The allowlist.** Along a run from the start every identity the bridge admits is on the list
exactly when the list has an entry whenever a handshake completes, and every identity that passes the
checks of the door is on it. -/
theorem holdsAllowlist_along_iff (cfg : Config) (reportBound : Bool) (es : List (Io × Event)) :
    (system cfg reportBound).Along (HoldsAllowlist cfg) (init cfg reportBound) es ↔
      (system cfg reportBound).Along (ChecksAllowlist cfg) (init cfg reportBound) es := by
  constructor
  · exact System.Along.mono fun b e h => holdsAllowlist_iff.mp h
  · exact System.Along.mono fun b e h => holdsAllowlist_iff.mpr h

/-- A bridge with its door open, for a fleet of one identity. -/
def closedFleet : Config :=
  { node := { id := 1, epoch := js "0a1b2c3d", sb := some {}, fleetAllowlist := some (js "7") } }

/-- A connection is admitted and negotiates a channel with the bridge, on which identity 9 binds. -/
def bindsAtDoor : List (Io × Event) :=
  [({}, .connect (js "c1")), ({}, .message (js "c1") presentHello), ({}, .meshUp),
    ({}, .message (js "c1") (.text (.ok (.obj [(js "type", .str (js "signal")),
      (js "to", .str (js "c-self-0a1b2c3d")), (js "payload", .obj [])])))),
    ({}, .doorBind 9 (js "d0a1b2c3d:c1") { preflight := .ok (true, js "room") })]

/-- The door lets in an identity that is not on the list. -/
theorem not_holdsAllowlist_bindsAtDoor :
    (system closedFleet false).Valid (init closedFleet false) bindsAtDoor ∧
      ¬(system closedFleet false).Along (HoldsAllowlist closedFleet) (init closedFleet false)
        bindsAtDoor := by
  have hkey : closedFleet.node.ownDoorKey (js "d0a1b2c3d:c1") = some (js "c1") := by decide +kernel
  refine ⟨⟨?_, ?_, trivial, ?_, fun connId hconn => ?_, trivial⟩, fun h => ?_⟩
  · change js "c1" = mintConnId 1
    decide +kernel
  · change JsMap.has _ _ = true
    decide +kernel
  · change JsMap.has _ _ = true
    decide +kernel
  · rw [hkey] at hconn
    cases hconn
    decide +kernel
  · obtain ⟨-, -, -, -, hlast, -⟩ := h
    have hlists := hlast.2 9 (js "d0a1b2c3d:c1") { preflight := .ok (true, js "room") } rfl
      (Node.bindPolicy_eq_bound_iff.mpr
        ⟨by rw [hkey]; rfl, by decide +kernel, ⟨_, rfl⟩, fun hcap => absurd hcap (by decide)⟩)
    obtain ⟨list, hlist, hmem⟩ := hlists
    cases hlist
    revert hmem
    decide +kernel

/-- A list without an entry lets everybody through. -/
example : ({ closedFleet.node with fleetAllowlist := some (js " , ") } : NodeConfig).admits (js "9") =
    true := by decide

end Bridge

end AxonaBridge
