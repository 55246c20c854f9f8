import AxonaBridge.BridgeBand
import AxonaBridge.BridgeRoles

/-!
# Whom the lists point at

A list is drawn up from the admitted connections of the table, and a connection stays there between the
call of close and its close event. Every list of a run points at connections that can be reached when
none that it is drawn from is being closed.
-/

open JsText

namespace AxonaBridge

namespace Server

variable {cfg : Config} {io : Io} {s : Server} {id connId : ConnId}

/-- The connections a newcomer's list is drawn from: those old enough to be anchors, where there are
enough of them, and all others otherwise. -/
def anchorPool (cfg : Config) (io : Io) (s : Server) (id : ConnId) : List ConnId :=
  let seasoned := (s.others id).filter fun e => cfg.anchorMinUptimeMs ≤ io.now - e.2.since
  if cfg.nurseryOn ∧ cfg.anchorMinPool ≤ seasoned.length then seasoned.map Prod.fst
  else s.admittedOthers id

theorem anchorPool_modifyConn (g : Conn → Conn) :
    (s.modifyConn id g).anchorPool cfg io id = s.anchorPool cfg io id := by
  unfold anchorPool
  rw [others_modifyConn, admittedOthers_modifyConn]

/-- The descriptor `selectAnchors` judges a connection by. -/
def anchorCandidate (s : Server) (e : ConnId × Conn) : AnchorSelect.Candidate where
  id := e.1
  admitted := e.2.admitted
  since := e.2.since
  anchorUses := e.2.anchorUses
  region := s.connRegion e.1

theorem admitted_anchorCandidates (o : AnchorSelect.Options) :
    AnchorSelect.admitted o (s.connections.entries.map s.anchorCandidate) =
      (s.others o.newId).map s.anchorCandidate := by
  unfold AnchorSelect.admitted others
  rw [List.filter_map]
  refine congrArg (List.map s.anchorCandidate) (List.filter_congr fun e _ => ?_)
  exact Bool.and_comm _ _

/-- A newcomer is introduced to connections of the pool. -/
theorem mem_anchorPool_of_mem_introduce {newRegion : Option JsString}
    (h : connId ∈ (s.introduce cfg io id newRegion).1) : connId ∈ s.anchorPool cfg io id := by
  cases hon : cfg.nurseryOn with
  | false =>
      unfold introduce at h
      unfold anchorPool
      rw [hon] at h ⊢
      exact h
  | true =>
      unfold introduce at h
      rw [if_pos hon] at h
      have hmem := AnchorSelect.mem_pool_of_mem_selectAnchors _ h
      have hadmitted := @admitted_anchorCandidates s
        { newId := id, newRegion, now := io.now, k := cfg.anchorK,
          minUptimeMs := cfg.anchorMinUptimeMs, minPool := cfg.anchorMinPool }
      change connId ∈ (AnchorSelect.pool _ (s.connections.entries.map s.anchorCandidate)).map _ at hmem
      unfold AnchorSelect.pool AnchorSelect.eligible at hmem
      rw [hadmitted, List.filter_map, List.length_map] at hmem
      unfold anchorPool
      split at hmem
      · rename_i hfew
        dsimp only
        rw [if_neg fun hmany => absurd hmany.2 (not_le.mpr hfew)]
        rw [List.map_map] at hmem
        exact hmem
      · rename_i hmany
        dsimp only
        rw [if_pos ⟨hon, not_lt.mp hmany⟩]
        rw [List.map_map] at hmem
        exact hmem

theorem mem_admittedOthers_of_mem_anchorPool (h : connId ∈ s.anchorPool cfg io id) :
    connId ∈ s.admittedOthers id := by
  unfold anchorPool at h
  dsimp only at h
  split at h
  · exact (List.filter_sublist.map _).subset h
  · exact h

/-- The newcomer's own entry is not in the pool, and its admission changes no other. -/
theorem anchorPool_greet (conn : Conn) (msg : JsVal) :
    (greet io s id conn msg).anchorPool cfg io id = s.anchorPool cfg io id := by
  unfold greet
  dsimp only
  rw [anchorPool_modifyConn, anchorPool_modifyConn, anchorPool_modifyConn]

end Server

namespace Bridge

variable {cfg : Config} {reportBound : Bool} {b : Bridge} {e : Io × Event}

/-- The lists a step sends name, after the bridge's own id, admitted connections that close has not been
called on. -/
def PointsAtReachable (cfg : Config) (b : Bridge) (e : Io × Event) : Prop :=
  ∀ id peers graduated serverT,
    Server.Sent b.server (b.step cfg e).server id (.peerList peers graduated serverT) →
      ∃ rest, (peers = rest ∨ peers = cfg.node.reservedId :: rest) ∧
        ∀ x ∈ rest, b.server.IsAdmitted x ∧ ¬b.server.CloseCalled x

/-- When a list is drawn up, close has been called on none of the connections it is drawn from. -/
structure DrawsFromLive (cfg : Config) (b : Bridge) (e : Io × Event) : Prop where
  introduction : ∀ id conn json, e.2 = .message id (.text (.ok json)) →
    Server.Introduces cfg b.server id conn json →
      ∀ x ∈ b.server.anchorPool cfg e.1 id, ¬b.server.CloseCalled x
  relisted : ∀ id conn json, e.2 = .message id (.text (.ok json)) →
    Server.Receives b.server id conn json (js "peer-list-request") →
      ∀ x ∈ b.server.admittedOthers id, ¬b.server.CloseCalled x

theorem pointsAtReachable_of_drawsFromLive (h : DrawsFromLive cfg b e) :
    PointsAtReachable cfg b e := by
  intro id peers graduated serverT hsent
  obtain ⟨conn, json, hevent, ⟨hintro, rfl⟩ | ⟨hreceives, rfl⟩⟩ := ((says_step b e).sent hsent).of_peerList
  · refine ⟨_, Server.withReserved_cases _ _, fun x hx => ?_⟩
    have hpool := Server.mem_anchorPool_of_mem_introduce (mem_of_mem_orderSameRegionFirst hx)
    rw [Server.anchorPool_greet] at hpool
    refine ⟨?_, h.introduction id conn json hevent hintro x hpool⟩
    exact Server.isAdmitted_of_mem_admittedOthers (Server.mem_admittedOthers_of_mem_anchorPool hpool)
  · refine ⟨_, Server.withReserved_cases _ _, fun x hx => ?_⟩
    exact ⟨Server.isAdmitted_of_mem_admittedOthers hx, h.relisted id conn json hevent hreceives x hx⟩

/-- **Whom the lists point at**, along every run in which close has been called on none of the
connections a list is drawn from. -/
theorem pointsAtReachable_along (cfg : Config) (reportBound : Bool) (es : List (Io × Event))
    (_hes : (system cfg reportBound).Valid (init cfg reportBound) es)
    (h : (system cfg reportBound).Along (DrawsFromLive cfg) (init cfg reportBound) es) :
    (system cfg reportBound).Along (PointsAtReachable cfg) (init cfg reportBound) es := by
  exact h.mono fun _ _ hlive => pointsAtReachable_of_drawsFromLive hlive

/-- Where nothing was closed every list is drawn from live connections. -/
theorem drawsFromLive_of_quiet (h : b.server.out.any (fun o => o.cutOff.isSome) = false) :
    DrawsFromLive cfg b e where
  introduction _ _ _ _ _ _ _ hclosed := Bool.false_ne_true (h.symm.trans hclosed.any_cutOff)
  relisted _ _ _ _ _ _ _ hclosed := Bool.false_ne_true (h.symm.trans hclosed.any_cutOff)

theorem pointsAtReachable_twoAdmitted :
    (system Server.plain false).Along (PointsAtReachable Server.plain) (init Server.plain false)
      twoAdmitted := by
  refine pointsAtReachable_along Server.plain false twoAdmitted valid_twoAdmitted ⟨?_, ?_, ?_, ?_, trivial⟩
  all_goals
    refine drawsFromLive_of_quiet ?_
    decide +kernel

/-- A client asks for the list of peers. -/
def peerListRequest : Server.Inbound := .text (.ok (.obj [(js "type", .str (js "peer-list-request"))]))

/-- The close of the first is under way when the second asks for its peers. -/
def asksWhileClosing : List (Io × Event) :=
  oneGraduates ++ [({ now := 41000 }, .message (js "c2") peerListRequest)]

theorem valid_asksWhileClosing : (system tight false).Valid (init tight false) asksWhileClosing :=
  valid_of_openRun (by decide +kernel)

/-- The second is pointed at the first, which the bridge is closing. -/
theorem not_pointsAtReachable_asksWhileClosing :
    (system tight false).Valid (init tight false) asksWhileClosing ∧
      ¬(system tight false).Along (PointsAtReachable tight) (init tight false) asksWhileClosing := by
  refine ⟨valid_asksWhileClosing, fun h => ?_⟩
  obtain ⟨-, hlast, -⟩ := System.along_append.mp h
  have hlisted : ((system tight false).after (init tight false) asksWhileClosing).server.out.any
      (Out.isListFor (js "c2") [js "c1"] 41000) = true := by decide +kernel
  have hnone : ((system tight false).after (init tight false) oneGraduates).server.out.any
      (Out.isListFor (js "c2") [js "c1"] 41000) = false := by decide +kernel
  obtain ⟨graduated, hsent⟩ := Server.exists_sent_of_any (@says_step tight _
    ({ now := 41000 }, .message (js "c2") peerListRequest)) (fun _ => Out.exists_of_isListFor) hnone hlisted
  obtain ⟨rest, hpeers, hrest⟩ := hlast _ _ _ _ hsent
  have hclosed : ((system tight false).after (init tight false) oneGraduates).server.CloseCalled
      (js "c1") := by decide +kernel
  have hne : js "c1" ≠ tight.node.reservedId := by decide +kernel
  refine (hrest (js "c1") ?_).2 hclosed
  rcases hpeers with hpeers | hpeers
  · exact hpeers ▸ List.mem_singleton_self _
  · exact absurd (List.cons.inj hpeers).1 hne

end Bridge

end AxonaBridge
