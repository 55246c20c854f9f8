import AxonaBridge.Runs
import AxonaBridge.TransportModel

/-!
# Who may answer a request

Runs of the transport on its own, under every interleaving of its operations, and what an inbound
`res` frame does to the request table. `handleResponse` looks its request up by the id in the frame
and by nothing else, so a request is safe from the frames of other connections exactly as long as no
other connection names its id.
-/

open JsText

namespace AxonaBridge

inductive TransportEvent where
  | start
  | stop
  | send (nodeId : NodeId) (isConnOpen : ConnId → Bool) (throws : Bool)
  | incoming (connId : ConnId) (payload : JsVal)
  | bindPeer (nodeId : NodeId) (connId : ConnId)
  | closeConnection (nodeId : NodeId)
  | supersedePeer (nodeId : NodeId)
  | connClosed (connId : ConnId)
  | timeout (promise : Nat)

namespace Transport

def step (t : Transport) : TransportEvent → Transport
  | .start => t.start
  | .stop => t.stop
  | .send nodeId isConnOpen throws => (t.send nodeId isConnOpen throws).1
  | .incoming connId payload => (t.handleIncoming connId payload).1
  | .bindPeer nodeId connId => t.bindPeer nodeId connId
  | .closeConnection nodeId => t.closeConnection nodeId
  | .supersedePeer nodeId => t.supersedePeer nodeId
  | .connClosed connId => (t.handleConnClosed connId).1
  | .timeout promise => t.timeout promise

/-- A timer fires only while it is armed; everything else may happen at any time. -/
def Enabled (t : Transport) : TransportEvent → Prop
  | .timeout promise => ∃ timer ∈ t.timers, timer.1 = promise
  | _ => True

/-- The transport under every interleaving of its operations. -/
def system (reportBound : Bool) : System Transport TransportEvent where
  init := { reportBound }
  enabled := Enabled
  step := step

/-! ### Promises are told apart by their names -/

/-- Every pending request has a promise of its own, handed out earlier. -/
structure PromisesDistinct (t : Transport) : Prop where
  lt : ∀ id p, t.pending.get id = some p → p.promise < t.promises
  inj : ∀ id id' p p', t.pending.get id = some p → t.pending.get id' = some p' →
    p.promise = p'.promise → id = id'

/-- An operation that hands out no promise and adds no request keeps them apart. -/
theorem PromisesDistinct.of_subset {t t' : Transport} (h : t.PromisesDistinct)
    (hsub : ∀ id p, t'.pending.get id = some p → t.pending.get id = some p)
    (hprom : t'.promises = t.promises) : t'.PromisesDistinct where
  lt id p hp := hprom ▸ h.lt id p (hsub id p hp)
  inj id id' p p' hp hp' := h.inj id id' p p' (hsub id p hp) (hsub id' p' hp')

theorem get_pending_delete {t : Transport} {id id' : Nat} {p : Pending}
    (h : (t.pending.delete id').get id = some p) : t.pending.get id = some p := by
  rw [JsMap.get_delete] at h
  split at h
  · cases h
  · exact h

theorem get_pending_filter {t : Transport} {test : Nat × Pending → Bool} {id : Nat} {p : Pending}
    (h : (t.pending.filter test).get id = some p) : t.pending.get id = some p := by
  rw [JsMap.get_filter, Option.filter_eq_some_iff] at h
  exact h.1

theorem promisesDistinct_send {t : Transport} (h : t.PromisesDistinct) (nodeId : NodeId)
    (isConnOpen : ConnId → Bool) (throws : Bool) :
    (t.send nodeId isConnOpen throws).1.PromisesDistinct := by
  -- the request goes under a promise above every other one
  have hset : ∀ connId id p,
      (t.pending.set t.nextId ⟨nodeId, t.promises, connId⟩).get id = some p →
        (id = t.nextId ∧ p.promise = t.promises) ∨ t.pending.get id = some p := by
    intro connId id p hp
    rw [JsMap.get_set] at hp
    split at hp
    · rename_i hid
      exact Or.inl ⟨hid, by cases hp; rfl⟩
    · exact Or.inr hp
  have hnew : ∀ connId, ∀ t' : Transport, t'.promises = t.promises + 1 →
      (∀ id p, t'.pending.get id = some p →
        (t.pending.set t.nextId ⟨nodeId, t.promises, connId⟩).get id = some p) →
      t'.PromisesDistinct := by
    intro connId t' hprom hsub
    constructor
    · intro id p hp
      rcases hset connId id p (hsub id p hp) with ⟨-, hpr⟩ | hold
      · omega
      · have := h.lt id p hold
        omega
    · intro id id' p p' hp hp' heq
      rcases hset connId id p (hsub id p hp) with ⟨hid, hpr⟩ | hold <;>
        rcases hset connId id' p' (hsub id' p' hp') with ⟨hid', hpr'⟩ | hold'
      · rw [hid, hid']
      · have := h.lt id' p' hold'
        omega
      · have := h.lt id p hold
        omega
      · exact h.inj id id' p p' hold hold' heq
  unfold send
  split
  · exact h
  · dsimp only
    split
    · exact h
    · rename_i connId _
      split
      · exact h
      · split
        · exact hnew connId _ rfl fun id p hp => get_pending_delete (t := { t with
            pending := t.pending.set t.nextId ⟨nodeId, t.promises, connId⟩ }) hp
        · exact hnew connId _ rfl fun _ _ hp => hp

theorem pending_handleResponse {t : Transport} {msg : JsVal} {id : Nat} {p : Pending}
    (h : (t.handleResponse msg).1.pending.get id = some p) : t.pending.get id = some p := by
  unfold handleResponse at h
  split at h
  · exact h
  · dsimp only at h
    split at h
    · exact get_pending_delete h
    · split at h <;> exact get_pending_delete h

@[simp] theorem promises_handleResponse (t : Transport) (msg : JsVal) :
    (t.handleResponse msg).1.promises = t.promises := by
  unfold handleResponse
  split
  · rfl
  · dsimp only
    split
    · rfl
    · split <;> rfl

theorem pending_handleIncoming {t : Transport} {connId : ConnId} {payload : JsVal} {id : Nat}
    {p : Pending} (h : (t.handleIncoming connId payload).1.pending.get id = some p) :
    t.pending.get id = some p := by
  unfold handleIncoming at h
  dsimp only at h
  split_ifs at h
  all_goals first | exact h | exact pending_handleResponse h

theorem promises_handleIncoming (t : Transport) (connId : ConnId) (payload : JsVal) :
    (t.handleIncoming connId payload).1.promises = t.promises := by
  unfold handleIncoming
  dsimp only
  split_ifs
  all_goals first | rfl | exact promises_handleResponse t payload

theorem promisesDistinct_step {t : Transport} (h : t.PromisesDistinct) (e : TransportEvent) :
    (t.step e).PromisesDistinct := by
  cases e with
  | start => exact h.of_subset (fun _ _ hp => hp) rfl
  | stop => exact h.of_subset (fun _ _ hp => get_pending_filter hp) rfl
  | send nodeId isConnOpen throws => exact promisesDistinct_send h nodeId isConnOpen throws
  | incoming connId payload =>
      exact h.of_subset (fun _ _ => pending_handleIncoming) (promises_handleIncoming t connId payload)
  | bindPeer nodeId connId => exact h.of_subset (fun _ _ hp => hp) rfl
  | closeConnection nodeId =>
      simp only [step, closeConnection]
      split
      · exact h
      · split
        · exact h
        · exact h.of_subset (fun _ _ hp => hp) rfl
  | supersedePeer nodeId => exact h.of_subset (fun _ _ hp => get_pending_filter hp) rfl
  | connClosed connId =>
      simp only [step, handleConnClosed]
      split
      · exact h.of_subset (fun _ _ hp => get_pending_filter hp) rfl
      · exact h.of_subset (fun _ _ hp => hp) rfl
  | timeout promise =>
      simp only [step, timeout]
      split
      · exact h
      · exact h.of_subset (fun _ _ hp => get_pending_delete hp) rfl

/-! ### The answers of a run -/

/-- The request is exactly as it was: its entry, its timer and its promise. -/
structure SameRequest (t t' : Transport) (id : Nat) (p : Pending) : Prop where
  entry : t'.pending.get id = some p
  timer : t'.timers.filter (fun timer => timer.1 = p.promise) =
    t.timers.filter fun timer => timer.1 = p.promise
  promise : t'.settled.filter (fun s => s.1 = p.promise) = t.settled.filter fun s => s.1 = p.promise

/-- The connection speaks for the peer a request was sent to: the request went out on it, or it is
bound to the identity the request is addressed to. -/
def SpeaksFor (t : Transport) (connId : ConnId) (p : Pending) : Prop :=
  connId = p.via ∨ t.nodeIdByConnId.get connId = some p.nodeId

/-- An inbound `res` frame touches no request that its connection does not speak for. -/
def AnswersItsOwn (t : Transport) : TransportEvent → Prop
  | .incoming connId payload => isRes payload →
      ∀ id p, t.pending.get id = some p → ¬t.SpeaksFor connId p →
        SameRequest t (t.step (.incoming connId payload)) id p
  | _ => True

/-- An inbound `res` frame that carries the id of a pending request comes over a connection that
speaks for the peer asked. -/
def NamesItsOwn (t : Transport) : TransportEvent → Prop
  | .incoming connId payload => isRes payload →
      ∀ id p, t.pendingFor payload = some (id, p) → t.SpeaksFor connId p
  | _ => True

theorem handleIncoming_of_isRes {t : Transport} {connId : ConnId} {payload : JsVal}
    (h : isRes payload) : (t.handleIncoming connId payload).1 = (t.handleResponse payload).1 := by
  have hne : js "res" ≠ js "req" := by decide
  simp [handleIncoming, h.1, h.2, hne]

theorem pendingFor_eq_some {t : Transport} {msg : JsVal} {id : Nat} {p : Pending}
    (h : t.pendingFor msg = some (id, p)) : t.pending.get id = some p := by
  simp only [pendingFor, Option.bind_eq_some_iff, Option.map_eq_some_iff, Prod.mk.injEq] at h
  obtain ⟨_, -, _, hget, rfl, rfl⟩ := h
  exact hget

/-- A response settles the request under its id and leaves the others alone. -/
theorem sameRequest_handleResponse {t : Transport} (ht : t.PromisesDistinct) {msg : JsVal}
    {id : Nat} {p : Pending} (hp : t.pending.get id = some p)
    (hne : ∀ q, t.pendingFor msg ≠ some (id, q)) :
    SameRequest t (t.handleResponse msg).1 id p := by
  unfold handleResponse
  split
  · exact ⟨hp, rfl, rfl⟩
  · rename_i id' p' hfor
    have hid : id ≠ id' := fun h => hne p' (h ▸ hfor)
    have hprom : p'.promise ≠ p.promise := fun h =>
      hid (ht.inj id id' p p' hp (pendingFor_eq_some hfor) h.symm)
    have hentry : (t.pending.delete id').get id = some p := by
      rw [JsMap.get_delete_of_ne _ hid, hp]
    have htimer : (t.timers.filter fun timer => timer.1 ≠ p'.promise).filter
        (fun timer => timer.1 = p.promise) = t.timers.filter fun timer => timer.1 = p.promise := by
      rw [List.filter_filter]
      apply List.filter_congr
      intro timer _
      by_cases h : timer.1 = p.promise <;> simp [h, hprom.symm]
    have hsettled : ∀ how, (t.settled ++ [(p'.promise, how)]).filter (fun s => s.1 = p.promise) =
        t.settled.filter fun s => s.1 = p.promise := by
      intro how
      simp [List.filter_append, hprom]
    dsimp only
    split
    · exact ⟨hentry, htimer, hsettled _⟩
    · split
      · exact ⟨hentry, htimer, rfl⟩
      · exact ⟨hentry, htimer, hsettled _⟩

theorem get_handleResponse_of_pendingFor {t : Transport} {msg : JsVal} {id : Nat} {p : Pending}
    (h : t.pendingFor msg = some (id, p)) : (t.handleResponse msg).1.pending.get id = none := by
  unfold handleResponse
  rw [h]
  dsimp only
  split
  · exact JsMap.get_delete_self _ _
  · split <;> exact JsMap.get_delete_self _ _

/-- One step keeps its hands off the requests of others exactly when it names none of them. -/
theorem answersItsOwn_iff {t : Transport} (ht : t.PromisesDistinct) (e : TransportEvent) :
    t.AnswersItsOwn e ↔ t.NamesItsOwn e := by
  cases e with
  | incoming connId payload =>
      constructor
      · intro h hres id p hfor
        by_contra hnot
        have hsame := (h hres id p (pendingFor_eq_some hfor) hnot).entry
        rw [step, handleIncoming_of_isRes hres, get_handleResponse_of_pendingFor hfor] at hsame
        cases hsame
      · intro h hres id p hp hnot
        rw [step, handleIncoming_of_isRes hres]
        apply sameRequest_handleResponse ht hp
        intro q hfor
        have hpq : q = p := Option.some.inj ((pendingFor_eq_some hfor).symm.trans hp)
        exact hnot (h hres id p (hpq ▸ hfor))
  | _ => exact Iff.rfl

/-- **Who may answer a request.** In a run of the transport no `res` frame touches a request its
connection does not speak for exactly when none that does not speak for a pending request carries
its id. -/
theorem answersItsOwn_along_iff (reportBound : Bool) (es : List TransportEvent)
    (hrun : (system reportBound).Valid (system reportBound).init es) :
    (system reportBound).Along AnswersItsOwn (system reportBound).init es ↔
      (system reportBound).Along NamesItsOwn (system reportBound).init es := by
  refine System.along_congr_of_invariant (I := PromisesDistinct) (C := Enabled)
    (fun t e ht _ => answersItsOwn_iff ht e) (fun t e ht _ _ => promisesDistinct_step ht e) ?_ hrun
  constructor <;> intros <;> contradiction

/-- The response frame `{ k: 'res', id, ok, body }`. -/
def resFrame (id : Int) (ok : Bool) (body : JsVal) : JsVal :=
  .obj [(js "k", .str (js "res")), (js "id", .num (.ofInt id)), (js "ok", .bool ok),
    (js "body", body)]

/-- A request to one peer, bound on `c1`, which that peer answers. -/
def askedAndAnswered : List TransportEvent :=
  [.start, .bindPeer 7 (js "c1"), .send 7 (fun _ => true) false,
    .incoming (js "c1") (resFrame 1 true .null)]

theorem answersItsOwn_along_askedAndAnswered :
    (system false).Valid (system false).init askedAndAnswered ∧
      ((system false).Along AnswersItsOwn (system false).init askedAndAnswered ↔
        (system false).Along NamesItsOwn (system false).init askedAndAnswered) := by
  have hrun : (system false).Valid (system false).init askedAndAnswered :=
    ⟨trivial, trivial, trivial, trivial, trivial⟩
  exact ⟨hrun, answersItsOwn_along_iff false askedAndAnswered hrun⟩

/-- A request to one peer, bound on `c1`, which the unbound connection `c2` answers in its place. -/
def answeredByAnother : List TransportEvent :=
  [.start, .bindPeer 7 (js "c1"), .send 7 (fun _ => true) false,
    .incoming (js "c2") (resFrame 1 true .null)]

/-- The unbound connection settles the request of the other peer. -/
theorem not_answersItsOwn_answeredByAnother :
    (system false).Valid (system false).init answeredByAnother ∧
      ¬(system false).Along AnswersItsOwn (system false).init answeredByAnother := by
  refine ⟨⟨trivial, trivial, trivial, trivial, trivial⟩, ?_⟩
  rintro ⟨-, -, -, h, -⟩
  have hp := (h ⟨rfl, rfl⟩ 1 ⟨7, 0, js "c1"⟩ (by decide +kernel) (by
    rintro (hvia | hbound)
    · exact absurd hvia (by decide)
    · exact absurd hbound (by decide))).entry
  exact absurd hp (by decide +kernel)

end Transport

end AxonaBridge
