import AxonaBridge.Runs
import AxonaBridge.TransportModel

/-!
# One identity on several sockets

Sockets open, complete their handshake and close, in any order and any number of them for one
identity, with `closeConnection` never called. The forward map keeps the connection an identity
bound last, so the close of that connection takes the identity's only entry with it, whatever older
sockets are still open.
-/

open JsText

namespace AxonaBridge

namespace Transport

@[simp] theorem started_handleConnClosed (t : Transport) (connId : ConnId) :
    (t.handleConnClosed connId).1.started = t.started := by
  unfold handleConnClosed
  split <;> rfl

theorem nodeIdByConnId_handleConnClosed (t : Transport) (connId : ConnId) :
    (t.handleConnClosed connId).1.nodeIdByConnId = t.nodeIdByConnId.delete connId := by
  unfold handleConnClosed
  split <;> rfl

theorem connIdByNodeId_handleConnClosed (t : Transport) (connId : ConnId) :
    (t.handleConnClosed connId).1.connIdByNodeId = (t.unbindPeer connId).connIdByNodeId := by
  unfold handleConnClosed
  split <;> rfl

/-- Where the forward map names no connection the reverse map does not, unbinding a connection takes
the forward entries that name it, and no other. -/
theorem get_connIdByNodeId_unbindPeer {t : Transport} {connId : ConnId}
    (h : ∀ n, t.connIdByNodeId.get n = some connId → t.nodeIdByConnId.get connId = some n)
    (n : NodeId) :
    (t.unbindPeer connId).connIdByNodeId.get n =
      if t.connIdByNodeId.get n = some connId then none else t.connIdByNodeId.get n := by
  rw [unbindPeer, ← JsMap.get_unlink h n]
  cases t.nodeIdByConnId.get connId <;> rfl

theorem senderOf_eq_node_iff {t : Transport} {connId : ConnId} {nodeId : NodeId} :
    t.senderOf connId = .node nodeId ↔ t.nodeIdByConnId.get connId = some nodeId := by
  unfold senderOf
  split
  · rename_i hrev
    rw [hrev, Sender.node.injEq, Option.some.injEq]
  · rename_i hrev
    simp [hrev]

theorem isCurrent_iff_of_bound {t : Transport} {connId : ConnId} {nodeId : NodeId}
    (h : t.nodeIdByConnId.get connId = some nodeId) :
    t.isCurrent connId = true ↔ t.connIdByNodeId.get nodeId = some connId := by
  simp [isCurrent, h]

/-- A death is reported exactly of the identity whose current binding closes. -/
theorem died_iff {t : Transport} {connId : ConnId} {nodeId : NodeId} :
    (t.handleConnClosed connId).2 = some (.node nodeId) ↔
      t.nodeIdByConnId.get connId = some nodeId ∧ t.connIdByNodeId.get nodeId = some connId := by
  unfold handleConnClosed
  by_cases hcur : t.isCurrent connId = true
  · rw [if_pos hcur]
    simp only [Option.some.injEq, senderOf_eq_node_iff]
    exact ⟨fun h => ⟨h, (isCurrent_iff_of_bound h).mp hcur⟩, fun h => h.1⟩
  · rw [if_neg hcur]
    simp only [reduceCtorEq, false_iff, not_and]
    exact fun h hfor => hcur ((isCurrent_iff_of_bound h).mpr hfor)

end Transport

inductive SocketEvent where
  | opened (connId : ConnId)
  | handshake (connId : ConnId) (nodeId : NodeId)
  | closed (connId : ConnId)

/-- The transport with the sockets it serves. `proved` remembers what each connection has proved,
whatever the transport keeps of it. -/
structure Sockets where
  transport : Transport
  isOpen : List ConnId := []
  seen : List ConnId := []
  proved : JsMap ConnId NodeId := JsMap.empty

namespace Sockets

def step (s : Sockets) : SocketEvent → Sockets
  | .opened connId => { s with isOpen := s.isOpen ++ [connId], seen := s.seen ++ [connId] }
  | .handshake connId nodeId =>
      { s with
        transport := s.transport.bindPeer nodeId connId
        proved := s.proved.set connId nodeId }
  | .closed connId =>
      { s with
        transport := (s.transport.handleConnClosed connId).1
        isOpen := s.isOpen.filter (· ≠ connId) }

/-- Connection ids are never used again, and a connection completes one handshake at most. -/
def Enabled (s : Sockets) : SocketEvent → Prop
  | .opened connId => connId ≠ [] ∧ connId ∉ s.seen
  | .handshake connId _ => connId ∈ s.isOpen ∧ s.proved.get connId = none
  | .closed connId => connId ∈ s.isOpen

def system (reportBound : Bool) : System Sockets SocketEvent where
  init := { transport := { reportBound, started := true } }
  enabled := Enabled
  step := step

instance decidableEnabled (reportBound : Bool) (s : Sockets) :
    ∀ e, Decidable ((system reportBound).enabled s e)
  | .opened connId => inferInstanceAs (Decidable (connId ≠ [] ∧ connId ∉ s.seen))
  | .handshake connId _ => inferInstanceAs (Decidable (connId ∈ s.isOpen ∧ s.proved.get connId = none))
  | .closed connId => inferInstanceAs (Decidable (connId ∈ s.isOpen))

/-- An open connection that has proved `nodeId`. -/
def Holds (s : Sockets) (nodeId : NodeId) (connId : ConnId) : Prop :=
  connId ∈ s.isOpen ∧ s.proved.get connId = some nodeId

/-- The identity is reached over an open connection: the forward map names it, `isConnected` says
so, and `send` gets a request out on it. -/
def Reached (s : Sockets) (nodeId : NodeId) : Prop :=
  ∃ connId ∈ s.isOpen, s.transport.connIdFor nodeId = some connId ∧
    s.transport.isConnected (· ∈ s.isOpen) nodeId = true ∧
    ∃ id promise, (s.transport.send nodeId (· ∈ s.isOpen) false).2 = .requested connId id promise

/-- No open connection is an orphan: what it has proved is reached. -/
def NoOrphan (s : Sockets) : Prop := ∀ nodeId connId, s.Holds nodeId connId → s.Reached nodeId

/-- After the step no open connection is an orphan, and a death it reports leaves no open
connection of the dead identity. -/
def KeepsReached (s : Sockets) (e : SocketEvent) : Prop :=
  (s.step e).NoOrphan ∧
    ∀ connId nodeId, e = .closed connId →
      (s.transport.handleConnClosed connId).2 = some (.node nodeId) →
        ∀ other, ¬(s.step e).Holds nodeId other

/-- An identity's current connection closes only as the last open one of the identity. -/
def ClosesLast (s : Sockets) : SocketEvent → Prop
  | .closed connId => ∀ nodeId, s.Holds nodeId connId →
      s.transport.connIdFor nodeId = some connId →
        ∀ other, s.Holds nodeId other → other = connId
  | _ => True

/-- The two maps hold what the open connections have proved and nothing else. -/
structure Bound (s : Sockets) : Prop where
  started : s.transport.started = true
  nonempty : ∀ connId ∈ s.isOpen, connId ≠ []
  seen : ∀ connId ∈ s.isOpen, connId ∈ s.seen
  proved : ∀ connId nodeId, s.proved.get connId = some nodeId → connId ∈ s.seen
  reverse : ∀ connId nodeId, s.transport.nodeIdByConnId.get connId = some nodeId ↔
    s.Holds nodeId connId
  forward : ∀ nodeId connId, s.transport.connIdFor nodeId = some connId → s.Holds nodeId connId

/-- An identity is reached as soon as the forward map has it. -/
theorem reached_iff {s : Sockets} (hs : s.Bound) (nodeId : NodeId) :
    s.Reached nodeId ↔ ∃ connId, s.transport.connIdFor nodeId = some connId := by
  constructor
  · rintro ⟨connId, -, hfor, -⟩
    exact ⟨connId, hfor⟩
  · rintro ⟨connId, hfor⟩
    have hopen := (hs.forward nodeId connId hfor).1
    have hget : s.transport.connIdByNodeId.get nodeId = some connId := hfor
    refine ⟨connId, hopen, hfor, ?_, s.transport.nextId, s.transport.promises, ?_⟩
    · simp [Transport.isConnected, hfor, hopen]
    · simp [Transport.send, hs.started, hget, hs.nonempty connId hopen, hopen]

theorem holds_opened {s : Sockets} (hs : s.Bound) {connId : ConnId} (hnew : connId ∉ s.seen)
    (nodeId : NodeId) (c : ConnId) :
    (s.step (.opened connId)).Holds nodeId c ↔ s.Holds nodeId c := by
  constructor
  · rintro ⟨hopen, hproved⟩
    rcases List.mem_append.mp hopen with h | h
    · exact ⟨h, hproved⟩
    · rw [List.mem_singleton.mp h] at hproved
      exact absurd (hs.proved connId nodeId hproved) hnew
  · rintro ⟨hopen, hproved⟩
    exact ⟨List.mem_append_left _ hopen, hproved⟩

theorem holds_handshake {s : Sockets} {connId : ConnId} {nodeId : NodeId}
    (hopen : connId ∈ s.isOpen) (n : NodeId) (c : ConnId) :
    (s.step (.handshake connId nodeId)).Holds n c ↔
      if c = connId then n = nodeId else s.Holds n c := by
  simp only [Holds, step, JsMap.get_set]
  by_cases h : c = connId
  · simp [h, hopen, eq_comm]
  · simp [h]

theorem holds_closed {s : Sockets} {connId : ConnId} (n : NodeId) (c : ConnId) :
    (s.step (.closed connId)).Holds n c ↔ c ≠ connId ∧ s.Holds n c := by
  simp only [Holds, step, List.mem_filter, decide_eq_true_eq]
  tauto

/-- The close of a connection takes the forward entry that names it, and no other. -/
theorem connIdFor_closed {s : Sockets} (hs : s.Bound) {connId : ConnId} (n : NodeId) :
    (s.step (.closed connId)).transport.connIdFor n =
      if s.transport.connIdFor n = some connId then none else s.transport.connIdFor n := by
  simp only [step, Transport.connIdFor, Transport.connIdByNodeId_handleConnClosed]
  exact Transport.get_connIdByNodeId_unbindPeer
    (fun m hm => (hs.reverse connId m).mpr (hs.forward m connId hm)) n

theorem bound_opened {s : Sockets} (hs : s.Bound) {connId : ConnId} (he : s.Enabled (.opened connId)) :
    (s.step (.opened connId)).Bound := by
  refine ⟨hs.started, ?_, ?_, ?_, ?_, ?_⟩
  · intro c hc
    rcases List.mem_append.mp hc with h | h
    · exact hs.nonempty c h
    · exact List.mem_singleton.mp h ▸ he.1
  · intro c hc
    rcases List.mem_append.mp hc with h | h
    · exact List.mem_append_left _ (hs.seen c h)
    · exact List.mem_append_right _ h
  · intro c n h
    exact List.mem_append_left _ (hs.proved c n h)
  · intro c n
    rw [holds_opened hs he.2]
    exact hs.reverse c n
  · intro n c h
    rw [holds_opened hs he.2]
    exact hs.forward n c h

theorem bound_handshake {s : Sockets} (hs : s.Bound) {connId : ConnId} {nodeId : NodeId}
    (he : s.Enabled (.handshake connId nodeId)) : (s.step (.handshake connId nodeId)).Bound := by
  have hnot : ∀ n, ¬s.Holds n connId := fun n h => by
    have hproved := h.2
    rw [he.2] at hproved
    cases hproved
  refine ⟨hs.started, hs.nonempty, hs.seen, ?_, ?_, ?_⟩
  · intro c n h
    simp only [step, JsMap.get_set] at h
    split at h
    · rename_i hc
      exact hc ▸ hs.seen connId he.1
    · exact hs.proved c n h
  · intro c n
    rw [holds_handshake he.1]
    simp only [step, Transport.bindPeer, JsMap.get_set]
    split
    · rw [Option.some.injEq, eq_comm]
    · exact hs.reverse c n
  · intro n c h
    rw [holds_handshake he.1]
    simp only [step, Transport.connIdFor, Transport.bindPeer, JsMap.get_set] at h
    split at h
    · rename_i hn
      cases h
      simp [hn]
    · have hold := hs.forward n c h
      have hne : c ≠ connId := by
        rintro rfl
        exact hnot n hold
      rwa [if_neg hne]

theorem bound_closed {s : Sockets} (hs : s.Bound) (connId : ConnId) :
    (s.step (.closed connId)).Bound := by
  refine ⟨?_, ?_, ?_, hs.proved, ?_, ?_⟩
  · simp [step, hs.started]
  · exact fun c hc => hs.nonempty c (List.mem_of_mem_filter hc)
  · exact fun c hc => hs.seen c (List.mem_of_mem_filter hc)
  · intro c n
    rw [holds_closed]
    simp only [step, Transport.nodeIdByConnId_handleConnClosed, JsMap.get_delete]
    split
    · simp [*]
    · rw [hs.reverse c n]
      tauto
  · intro n c h
    rw [connIdFor_closed hs] at h
    rw [holds_closed]
    split at h
    · cases h
    · rename_i hne
      refine ⟨?_, hs.forward n c h⟩
      rintro rfl
      exact hne h

theorem bound_step {s : Sockets} (hs : s.Bound) {e : SocketEvent} (he : s.Enabled e) :
    (s.step e).Bound := by
  cases e with
  | opened connId => exact bound_opened hs he
  | handshake connId nodeId => exact bound_handshake hs he
  | closed connId => exact bound_closed hs connId

theorem died_iff {s : Sockets} (hs : s.Bound) {connId : ConnId} {nodeId : NodeId} :
    (s.transport.handleConnClosed connId).2 = some (.node nodeId) ↔
      s.Holds nodeId connId ∧ s.transport.connIdFor nodeId = some connId := by
  rw [Transport.died_iff, hs.reverse connId nodeId]
  rfl

theorem noOrphan_step {s : Sockets} (hs : s.Bound) (hno : s.NoOrphan) {e : SocketEvent}
    (he : s.Enabled e) (hlast : s.ClosesLast e) : (s.step e).NoOrphan := by
  have hs' := bound_step hs he
  intro nodeId connId hold
  rw [reached_iff hs']
  cases e with
  | opened c =>
      rw [holds_opened hs he.2] at hold
      exact (reached_iff hs nodeId).mp (hno nodeId connId hold)
  | handshake c n =>
      simp only [step, Transport.connIdFor, Transport.bindPeer, JsMap.get_set]
      by_cases hn : nodeId = n
      · exact ⟨c, if_pos hn⟩
      · simp only [if_neg hn]
        rw [holds_handshake he.1] at hold
        split at hold
        · exact absurd hold hn
        · exact (reached_iff hs nodeId).mp (hno nodeId connId hold)
  | closed c =>
      rw [holds_closed] at hold
      obtain ⟨d, hd⟩ := (reached_iff hs nodeId).mp (hno nodeId connId hold.2)
      refine ⟨d, ?_⟩
      rw [connIdFor_closed hs, if_neg, hd]
      intro hc
      -- the closed connection is the current one, so it was the last of its identity
      exact hold.1 (hlast nodeId (hs.forward nodeId c hc) hc connId hold.2)

theorem keepsReached_iff {s : Sockets} (hs : s.Bound) (hno : s.NoOrphan) {e : SocketEvent}
    (he : s.Enabled e) : s.KeepsReached e ↔ s.ClosesLast e := by
  constructor
  · rintro ⟨-, hdeath⟩
    cases e with
    | closed connId =>
        intro nodeId hold hcur other hother
        by_contra hne
        exact hdeath connId nodeId rfl ((died_iff hs).mpr ⟨hold, hcur⟩) other
          ((holds_closed nodeId other).mpr ⟨hne, hother⟩)
    | _ => trivial
  · intro hlast
    refine ⟨noOrphan_step hs hno he hlast, ?_⟩
    rintro connId nodeId rfl hdied other hother
    rw [holds_closed] at hother
    obtain ⟨hold, hcur⟩ := (died_iff hs).mp hdied
    exact hother.1 (hlast nodeId hold hcur other hother.2)

/-- **No orphan socket.** Along a run every state keeps its open handshake-complete connections
reached, and every death is of an identity with no open connection left, exactly when no identity's
current connection closes before an older one of it. -/
theorem keepsReached_along_iff (reportBound : Bool) (es : List SocketEvent)
    (hrun : (system reportBound).Valid (system reportBound).init es) :
    (system reportBound).Along KeepsReached (system reportBound).init es ↔
      (system reportBound).Along ClosesLast (system reportBound).init es := by
  refine System.along_congr_of_invariant (I := fun s => s.Bound ∧ s.NoOrphan) (C := Enabled)
    (fun s e hs he => keepsReached_iff hs.1 hs.2 he)
    (fun s e hs he hlast => ⟨bound_step hs.1 he, noOrphan_step hs.1 hs.2 he hlast⟩) ?_ hrun
  refine ⟨⟨rfl, ?_, ?_, ?_, ?_, ?_⟩, ?_⟩
  · intro c hc
    cases hc
  · intro c hc
    cases hc
  · intro c n h
    cases h
  · intro c n
    exact ⟨fun h => (by cases h), fun h => (by cases h.1)⟩
  · intro n c h
    cases h
  · intro n c h
    cases h.1

/-- An identity moves to a second socket and leaves the first one before it. -/
def movedAndClosed : List SocketEvent :=
  [.opened (js "c1"), .opened (js "c2"), .handshake (js "c1") 7, .handshake (js "c2") 7,
    .closed (js "c1"), .closed (js "c2")]

theorem valid_movedAndClosed : (system false).Valid (system false).init movedAndClosed := by
  decide

theorem keepsReached_along_movedAndClosed :
    (system false).Valid (system false).init movedAndClosed ∧
      ((system false).Along KeepsReached (system false).init movedAndClosed ↔
        (system false).Along ClosesLast (system false).init movedAndClosed) :=
  ⟨valid_movedAndClosed, keepsReached_along_iff false movedAndClosed valid_movedAndClosed⟩

/-- The newer of an identity's two sockets closes first. -/
def newerClosesFirst : List SocketEvent :=
  [.opened (js "c1"), .opened (js "c2"), .handshake (js "c1") 7, .handshake (js "c2") 7,
    .closed (js "c2")]

/-- The older socket is left open, handshake-complete and out of reach. -/
theorem not_keepsReached_newerClosesFirst :
    (system false).Valid (system false).init newerClosesFirst ∧
      ¬(system false).Along KeepsReached (system false).init newerClosesFirst := by
  refine ⟨by decide, ?_⟩
  · rintro ⟨-, -, -, -, ⟨hno, -⟩, -⟩
    obtain ⟨c, -, hfor, -⟩ := hno 7 (js "c1") ⟨by decide, by decide⟩
    have hnone : ((system false).after (system false).init newerClosesFirst).transport.connIdFor 7 =
        none := by decide
    exact absurd (hnone.symm.trans hfor) nofun

end Sockets

end AxonaBridge
