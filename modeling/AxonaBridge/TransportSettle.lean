import AxonaBridge.TransportRpc

/-!
# Every request settles once

A request ends by its response, its timer, a supersede, the close of its connection, the stop of the
transport or a throwing send, whichever comes first. Each of these drops entries of the request table
together with their timers and settles their promises; the invariant `Exact` ties the three together.
-/

open JsText

namespace AxonaBridge

namespace Transport

variable {t t' : Transport}

/-! ### What one operation drops -/

/-- From `t` to `t'` exactly the entries of `gone` leave the table, each with its timer, and exactly
their promises are settled, once each. -/
structure Drops (t t' : Transport) (gone : Nat → Pending → Prop) : Prop where
  promises : t'.promises = t.promises
  pending : ∀ id p, t'.pending.get id = some p ↔ t.pending.get id = some p ∧ ¬gone id p
  timers : ∀ timer, timer ∈ t'.timers ↔ timer ∈ t.timers ∧
    ¬∃ id p, t.pending.get id = some p ∧ gone id p ∧ p.promise = timer.1
  settled : ∃ new : List (Nat × Settlement), t'.settled = t.settled ++ new ∧
    (new.map Prod.fst).Nodup ∧ ∀ promise, promise ∈ new.map Prod.fst ↔
      ∃ id p, t.pending.get id = some p ∧ gone id p ∧ p.promise = promise

theorem Drops.nothing (hpending : t'.pending = t.pending) (htimers : t'.timers = t.timers)
    (hsettled : t'.settled = t.settled) (hpromises : t'.promises = t.promises) :
    Drops t t' fun _ _ => False where
  promises := hpromises
  pending id p := by simp [hpending]
  timers timer := by simp [htimers]
  settled := ⟨[], by simp [hsettled], List.nodup_nil, by simp⟩

/-- The promises of the entries that meet a test are distinct, as all of the table are. -/
theorem nodup_promises_filter (ht : t.PromisesDistinct) (test : Pending → Bool) :
    (((t.pending.entries.map Prod.snd).filter test).map Pending.promise).Nodup := by
  have hinj : ∀ e ∈ t.pending.entries, ∀ f ∈ t.pending.entries,
      e.2.promise = f.2.promise → e = f := by
    intro e he f hf heq
    have he' := JsMap.mem_entries_iff.mp he
    have hf' := JsMap.mem_entries_iff.mp hf
    have hid : e.1 = f.1 := ht.inj e.1 f.1 e.2 f.2 he' hf' heq
    have hval : e.2 = f.2 := Option.some.inj (he'.symm.trans (hid ▸ hf'))
    exact Prod.ext hid hval
  have hnodup : t.pending.entries.Nodup := List.Nodup.of_map Prod.fst t.pending.nodup
  rw [List.filter_map, List.map_map]
  apply List.Nodup.map_on
  · intro e he f hf heq
    exact hinj e (List.mem_of_mem_filter he) f (List.mem_of_mem_filter hf) heq
  · exact hnodup.filter _

theorem mem_hit {test : Pending → Bool} {p : Pending} :
    p ∈ (t.pending.entries.map Prod.snd).filter test ↔
      ∃ id, t.pending.get id = some p ∧ test p = true := by
  simp only [List.mem_filter, List.mem_map, Prod.exists, exists_eq_right, JsMap.mem_entries_iff]
  exact exists_and_right.symm

theorem drops_rejectWhere (ht : t.PromisesDistinct) (test : Pending → Bool) (why : JsString) :
    Drops t (t.rejectWhere test why) fun _ p => test p = true where
  promises := rfl
  pending id p := by
    change (t.pending.filter fun e => !test e.2).get id = some p ↔ _
    rw [JsMap.get_filter, Option.filter_eq_some_iff]
    simp
  timers timer := by
    change timer ∈ t.timers.filter _ ↔ _
    rw [List.mem_filter]
    apply and_congr_right
    intro _
    rw [Bool.not_eq_true', Bool.eq_false_iff, ne_eq, List.any_eq_true, not_iff_not]
    constructor
    · rintro ⟨p, hp, heq⟩
      obtain ⟨id, hget, htest⟩ := mem_hit.mp hp
      exact ⟨id, p, hget, htest, of_decide_eq_true heq⟩
    · rintro ⟨id, p, hget, htest, heq⟩
      exact ⟨p, mem_hit.mpr ⟨id, hget, htest⟩, decide_eq_true heq⟩
  settled := by
    refine ⟨_, rfl, ?_, ?_⟩
    · rw [List.map_map]
      exact nodup_promises_filter ht test
    · intro promise
      simp only [List.map_map, List.mem_map, mem_hit, Function.comp_apply]
      constructor
      · rintro ⟨p, ⟨id, hget, htest⟩, heq⟩
        exact ⟨id, p, hget, htest, heq⟩
      · rintro ⟨id, p, hget, htest, heq⟩
        exact ⟨p, ⟨id, hget, htest⟩, heq⟩

/-- One entry goes with its timer and its promise is settled: a response, a timer, a throwing send. -/
theorem drops_one {id : Nat} {p : Pending}
    (hp : t.pending.get id = some p) (how : Settlement) :
    Drops t ({ t.clearTimer p.promise with pending := t.pending.delete id }.settle p.promise how)
      fun id' _ => id' = id := by
  have hgone : ∀ promise, (∃ id' p', t.pending.get id' = some p' ∧ id' = id ∧ p'.promise = promise) ↔
      promise = p.promise := by
    intro promise
    constructor
    · rintro ⟨_, p', hget, rfl, heq⟩
      rw [hp] at hget
      cases hget
      exact heq.symm
    · intro heq
      exact ⟨id, p, hp, rfl, heq.symm⟩
  refine ⟨rfl, ?_, ?_, [(p.promise, how)], rfl, List.nodup_singleton _, ?_⟩
  · intro id' p'
    change (t.pending.delete id).get id' = some p' ↔ _
    rw [JsMap.get_delete]
    by_cases h : id' = id <;> simp [h]
  · intro timer
    change timer ∈ t.timers.filter _ ↔ _
    rw [List.mem_filter, hgone]
    simp
  · intro promise
    rw [hgone]
    simp

/-! ### The invariant -/

/-- A pending request has its timer and no settlement, a timer has its request, and no promise is
settled twice. -/
structure Exact (t : Transport) : Prop where
  distinct : t.PromisesDistinct
  armed : ∀ id p, t.pending.get id = some p → (p.promise, id) ∈ t.timers
  timed : ∀ timer ∈ t.timers, ∃ p, t.pending.get timer.2 = some p ∧ p.promise = timer.1
  unsettled : ∀ id p, t.pending.get id = some p → p.promise ∉ t.settled.map Prod.fst
  once : (t.settled.map Prod.fst).Nodup
  past : ∀ promise ∈ t.settled.map Prod.fst, promise < t.promises

theorem Exact.of_drops (ht : t.Exact) {gone : Nat → Pending → Prop} (h : Drops t t' gone) :
    t'.Exact := by
  have hdistinct : t'.PromisesDistinct :=
    ht.distinct.of_subset (fun id p hp => ((h.pending id p).mp hp).1) h.promises
  obtain ⟨new, hsettled, hnodup, hnew⟩ := h.settled
  have hmem : ∀ promise, promise ∈ t'.settled.map Prod.fst ↔
      promise ∈ t.settled.map Prod.fst ∨ promise ∈ new.map Prod.fst := by
    intro promise
    rw [hsettled, List.map_append, List.mem_append]
  -- an entry with the promise of a dropped one is that one
  have hsame : ∀ id p, t.pending.get id = some p → ∀ id' p', t.pending.get id' = some p' →
      p'.promise = p.promise → gone id' p' → gone id p := by
    intro id p hp id' p' hp' heq hg
    have hid := ht.distinct.inj id' id p' p hp' hp heq
    subst hid
    rw [hp] at hp'
    cases hp'
    exact hg
  refine ⟨hdistinct, ?_, ?_, ?_, ?_, ?_⟩
  · intro id p hp
    obtain ⟨hold, hstays⟩ := (h.pending id p).mp hp
    refine (h.timers _).mpr ⟨ht.armed id p hold, ?_⟩
    rintro ⟨id', p', hp', hg, heq⟩
    exact hstays (hsame id p hold id' p' hp' heq hg)
  · intro timer htimer
    obtain ⟨hold, hstays⟩ := (h.timers timer).mp htimer
    obtain ⟨p, hp, heq⟩ := ht.timed timer hold
    exact ⟨p, (h.pending _ p).mpr ⟨hp, fun hg => hstays ⟨_, p, hp, hg, heq⟩⟩, heq⟩
  · intro id p hp
    obtain ⟨hold, hstays⟩ := (h.pending id p).mp hp
    rw [hmem, hnew]
    rintro (hset | ⟨id', p', hp', hg, heq⟩)
    · exact ht.unsettled id p hold hset
    · exact hstays (hsame id p hold id' p' hp' heq hg)
  · rw [hsettled, List.map_append, List.nodup_append]
    refine ⟨ht.once, hnodup, ?_⟩
    rintro promise hold _ hin rfl
    obtain ⟨id, p, hp, -, heq⟩ := (hnew promise).mp hin
    exact ht.unsettled id p hp (heq ▸ hold)
  · intro promise hpromise
    rw [h.promises]
    rcases (hmem promise).mp hpromise with hold | hin
    · exact ht.past promise hold
    · obtain ⟨id, p, hp, -, heq⟩ := (hnew promise).mp hin
      exact heq ▸ ht.distinct.lt id p hp

/-! ### Requests of a run -/

/-- The connection check of `send`. -/
def PassesCheck (t : Transport) (nodeId : NodeId) (isConnOpen : ConnId → Bool) : Prop :=
  t.started = true ∧ ∃ connId, t.connIdFor nodeId = some connId ∧ connId ≠ [] ∧
    isConnOpen connId = true

/-- The state right after a request went into the table, before its frame is sent. -/
def request (t : Transport) (nodeId : NodeId) (connId : ConnId) : Transport :=
  { t with
    nextId := if maxReqId ≤ t.nextId then 1 else t.nextId + 1
    promises := t.promises + 1
    timers := t.timers ++ [(t.promises, t.nextId)]
    pending := t.pending.set t.nextId { nodeId, promise := t.promises, via := connId } }

/-- The request of a send whose frame `sendToConn` refused. -/
def withdraw (t : Transport) (id promise : Nat) : Transport :=
  { t.clearTimer promise with pending := t.pending.delete id }.settle promise (.rejected [])

theorem send_of_not_passes {nodeId : NodeId} {isConnOpen : ConnId → Bool}
    (h : ¬t.PassesCheck nodeId isConnOpen) (throws : Bool) :
    ∃ message, t.send nodeId isConnOpen throws = (t, .refused message) := by
  unfold send
  by_cases hstarted : t.started = true
  · rw [if_neg (by simp [hstarted])]
    dsimp only
    cases hconn : t.connIdByNodeId.get nodeId with
    | none => exact ⟨_, rfl⟩
    | some connId =>
        refine ⟨_, if_pos ?_⟩
        by_contra hnot
        rw [not_or, Bool.not_eq_true', Bool.not_eq_false] at hnot
        exact h ⟨hstarted, connId, hconn, hnot⟩
  · exact ⟨_, if_pos (by simp [hstarted])⟩

theorem send_of_passes {nodeId : NodeId} {isConnOpen : ConnId → Bool}
    (h : t.PassesCheck nodeId isConnOpen) (throws : Bool) :
    ∃ connId, t.connIdFor nodeId = some connId ∧
      t.send nodeId isConnOpen throws =
        (if throws then (t.request nodeId connId).withdraw t.nextId t.promises
          else t.request nodeId connId, .requested connId t.nextId t.promises) := by
  obtain ⟨hstarted, connId, hconn, hne, hopen⟩ := h
  refine ⟨connId, hconn, ?_⟩
  unfold send
  rw [if_neg (by simp [hstarted])]
  dsimp only
  rw [show t.connIdByNodeId.get nodeId = some connId from hconn]
  dsimp only
  rw [if_neg (by simp [hne, hopen])]
  cases throws <;> rfl

/-- A fresh request under a free id keeps the table exact. -/
theorem Exact.request (ht : t.Exact) (nodeId : NodeId) (connId : ConnId)
    (hfree : t.pending.get t.nextId = none) : (t.request nodeId connId).Exact := by
  have hget : ∀ id p, (t.request nodeId connId).pending.get id = some p ↔
      (id = t.nextId ∧ p = ⟨nodeId, t.promises, connId⟩) ∨ t.pending.get id = some p := by
    intro id p
    change (t.pending.set _ _).get id = some p ↔ _
    rw [JsMap.get_set]
    by_cases hid : id = t.nextId
    · subst hid
      simp [hfree, eq_comm]
    · simp [hid]
  have htimers : ∀ timer, timer ∈ (t.request nodeId connId).timers ↔
      timer ∈ t.timers ∨ timer = (t.promises, t.nextId) := by
    intro timer
    change timer ∈ t.timers ++ [_] ↔ _
    rw [List.mem_append, List.mem_singleton]
  have hpromises : (t.request nodeId connId).promises = t.promises + 1 := rfl
  refine ⟨⟨?_, ?_⟩, ?_, ?_, ?_, ht.once, ?_⟩
  · intro id p hp
    rcases (hget id p).mp hp with ⟨-, rfl⟩ | hold
    · exact Nat.lt_succ_self _
    · exact Nat.lt_succ_of_lt (ht.distinct.lt id p hold)
  · intro id id' p p' hp hp' heq
    rcases (hget id p).mp hp with ⟨hid, rfl⟩ | hold <;>
      rcases (hget id' p').mp hp' with ⟨hid', rfl⟩ | hold'
    · rw [hid, hid']
    · have := ht.distinct.lt id' p' hold'
      simp only at heq
      omega
    · have := ht.distinct.lt id p hold
      simp only at heq
      omega
    · exact ht.distinct.inj id id' p p' hold hold' heq
  · intro id p hp
    rw [htimers]
    rcases (hget id p).mp hp with ⟨rfl, rfl⟩ | hold
    · exact Or.inr rfl
    · exact Or.inl (ht.armed id p hold)
  · intro timer htimer
    rcases (htimers timer).mp htimer with hold | rfl
    · obtain ⟨p, hp, heq⟩ := ht.timed timer hold
      exact ⟨p, (hget _ p).mpr (Or.inr hp), heq⟩
    · exact ⟨_, (hget _ _).mpr (Or.inl ⟨rfl, rfl⟩), rfl⟩
  · intro id p hp
    rcases (hget id p).mp hp with ⟨-, rfl⟩ | hold
    · intro hset
      exact absurd (ht.past _ hset) (Nat.lt_irrefl _)
    · exact ht.unsettled id p hold
  · intro promise hpromise
    exact Nat.lt_succ_of_lt (ht.past promise hpromise)

/-- The id and the request a send past its connection check came to. -/
def asked (t : Transport) : TransportEvent → Option (Nat × Pending)
  | .send nodeId isConnOpen throws =>
      match (t.send nodeId isConnOpen throws).2 with
      | .requested connId id promise => some (id, { nodeId, promise, via := connId })
      | .refused _ => none
  | _ => none

/-- What a `res` frame hands `new Error` has a string, where it settles a request by a rejection. -/
def AnswerReads (t : Transport) (payload : JsVal) : Prop :=
  ∀ id p, t.pendingFor payload = some (id, p) →
    JsVal.truthy (payload.field (js "ok")) = false →
      ∃ message, (errorArgument (payload.field (js "body"))).toStr = .ok message

/-- The step loses no request: a send finds its id free; the error of a response has a string; and a
connection that closes is bound to each identity that is bound to it and has requests pending. -/
def KeepsRequests (t : Transport) : TransportEvent → Prop
  | .send nodeId isConnOpen _ => t.PassesCheck nodeId isConnOpen → t.pending.get t.nextId = none
  | .incoming _ payload => isRes payload → t.AnswerReads payload
  | .connClosed connId => ∀ id p, t.pending.get id = some p →
      t.connIdFor p.nodeId = some connId → t.nodeIdFor connId = some p.nodeId
  | _ => True

theorem handleIncoming_of_not_isRes {connId : ConnId} {payload : JsVal} (h : ¬isRes payload) :
    (t.handleIncoming connId payload).1 = t := by
  unfold handleIncoming
  dsimp only
  by_cases hobj : payload.isObject = true
  · have hk : ¬JsVal.asString (payload.field (js "k")) = some (js "res") := fun hk => h ⟨hobj, hk⟩
    rw [if_neg (by simp [hobj])]
    split_ifs <;> rfl
  · rw [if_pos (by simp [hobj])]

/-- The same table, timers and settlements, whatever became of the bindings. -/
theorem drops_rejectWhere_unbind (ht : t.PromisesDistinct) (test : Pending → Bool) (why : JsString)
    (connId : ConnId) :
    Drops t ((t.rejectWhere test why).unbindPeer connId) fun _ p => test p = true :=
  have h := drops_rejectWhere ht test why
  ⟨h.promises, h.pending, h.timers, h.settled⟩

/-- The identity whose requests the close of a connection rejects. -/
def closes (t : Transport) (connId : ConnId) : Option NodeId :=
  if t.isCurrent connId then t.nodeIdFor connId else none

theorem drops_handleConnClosed (ht : t.PromisesDistinct) (connId : ConnId) :
    Drops t (t.handleConnClosed connId).1 fun _ p => t.closes connId = some p.nodeId := by
  unfold handleConnClosed closes
  by_cases hcur : t.isCurrent connId = true
  · rw [if_pos hcur, if_pos hcur]
    have h := drops_rejectWhere_unbind ht
      (fun p => decide (t.nodeIdByConnId.get connId = some p.nodeId)) (js "peer-died") connId
    simp only [decide_eq_true_eq] at h
    exact h
  · rw [if_neg hcur, if_neg hcur]
    have h : Drops t (t.unbindPeer connId) fun _ _ => False := Drops.nothing rfl rfl rfl rfl
    simp only [reduceCtorEq]
    exact h

/-- The state of a response that settles the request it names. -/
theorem handleResponse_of_ok {msg : JsVal} {id : Nat} {p : Pending}
    (hfor : t.pendingFor msg = some (id, p)) (hok : JsVal.truthy (msg.field (js "ok")) = true) :
    (t.handleResponse msg).1 = { t.clearTimer p.promise with
      pending := t.pending.delete id }.settle p.promise (.resolved (msg.field (js "body"))) := by
  rw [handleResponse, hfor]
  dsimp only
  rw [if_pos hok]

theorem handleResponse_of_read {msg : JsVal} {id : Nat} {p : Pending} {message : JsString}
    (hfor : t.pendingFor msg = some (id, p)) (hok : ¬JsVal.truthy (msg.field (js "ok")) = true)
    (hread : (errorArgument (msg.field (js "body"))).toStr = .ok message) :
    (t.handleResponse msg).1 = { t.clearTimer p.promise with
      pending := t.pending.delete id }.settle p.promise (.rejected message) := by
  rw [handleResponse, hfor]
  dsimp only
  rw [if_neg hok, hread]

theorem drops_handleResponse {msg : JsVal} (hread : t.AnswerReads msg) :
    ∃ gone, Drops t (t.handleResponse msg).1 gone := by
  cases hfor : t.pendingFor msg with
  | none =>
      have hstep : (t.handleResponse msg).1 = t := by rw [handleResponse, hfor]
      rw [hstep]
      exact ⟨_, Drops.nothing rfl rfl rfl rfl⟩
  | some entry =>
      obtain ⟨id, p⟩ := entry
      have hone := drops_one (pendingFor_eq_some hfor)
      by_cases hok : JsVal.truthy (msg.field (js "ok")) = true
      · rw [handleResponse_of_ok hfor hok]
        exact ⟨_, hone _⟩
      · obtain ⟨message, hmessage⟩ := hread id p hfor (Bool.not_eq_true _ ▸ hok)
        rw [handleResponse_of_read hfor hok hmessage]
        exact ⟨_, hone _⟩

/-- An armed timer finds its own request under its id. -/
theorem drops_timeout (ht : t.Exact) {promise : Nat} (he : ∃ timer ∈ t.timers, timer.1 = promise) :
    ∃ gone, Drops t (t.timeout promise) gone := by
  obtain ⟨timer, hfind⟩ : ∃ timer, t.timers.find? (fun timer => timer.1 = promise) = some timer := by
    obtain ⟨timer, hmem, heq⟩ := he
    rw [← Option.isSome_iff_exists, List.find?_isSome]
    exact ⟨timer, hmem, decide_eq_true heq⟩
  have heq : timer.1 = promise := by simpa using List.find?_some hfind
  obtain ⟨p, hp, hpp⟩ := ht.timed timer (List.mem_of_find?_eq_some hfind)
  have hstep : t.timeout promise = { t.clearTimer p.promise with
      pending := t.pending.delete timer.2 }.settle p.promise (.rejected (js "timeout")) := by
    rw [timeout, hfind, hpp, heq]
  rw [hstep]
  exact ⟨_, drops_one hp _⟩

/-- Every step that loses no request adds one under a free id, or drops some, or adds one and drops
it at once. -/
theorem step_cases (ht : t.Exact) {e : TransportEvent} (he : t.Enabled e)
    (hkeep : t.KeepsRequests e) :
    (t.asked e = none ∧ ∃ gone, Drops t (t.step e) gone) ∨
      ∃ nodeId connId, t.asked e = some (t.nextId, ⟨nodeId, t.promises, connId⟩) ∧
        t.pending.get t.nextId = none ∧
        (t.step e = t.request nodeId connId ∨
          Drops (t.request nodeId connId) (t.step e) fun id _ => id = t.nextId) := by
  cases e with
  | start => exact Or.inl ⟨rfl, _, Drops.nothing rfl rfl rfl rfl⟩
  | stop =>
      have h := drops_rejectWhere ht.distinct (fun _ => true) (js "transport-stopped")
      exact Or.inl ⟨rfl, _, h.promises, h.pending, h.timers, h.settled⟩
  | send nodeId isConnOpen throws =>
      by_cases hpass : t.PassesCheck nodeId isConnOpen
      · obtain ⟨connId, -, hsend⟩ := send_of_passes hpass throws
        refine Or.inr ⟨nodeId, connId, by rw [asked, hsend], hkeep hpass, ?_⟩
        change (t.send nodeId isConnOpen throws).1 = _ ∨
          Drops _ (t.send nodeId isConnOpen throws).1 _
        rw [hsend]
        cases throws with
        | false => exact Or.inl rfl
        | true =>
            have hone := drops_one (t := t.request nodeId connId)
              (p := ⟨nodeId, t.promises, connId⟩) (JsMap.get_set_self _ _ _) (.rejected [])
            exact Or.inr hone
      · obtain ⟨message, hsend⟩ := send_of_not_passes hpass throws
        have hstep : t.step (.send nodeId isConnOpen throws) = t := congrArg Prod.fst hsend
        rw [hstep]
        exact Or.inl ⟨by rw [asked, hsend], _, Drops.nothing rfl rfl rfl rfl⟩
  | incoming connId payload =>
      refine Or.inl ⟨rfl, ?_⟩
      by_cases hres : isRes payload
      · rw [step, handleIncoming_of_isRes hres]
        exact drops_handleResponse (hkeep hres)
      · rw [step, handleIncoming_of_not_isRes hres]
        exact ⟨_, Drops.nothing rfl rfl rfl rfl⟩
  | bindPeer nodeId connId => exact Or.inl ⟨rfl, _, Drops.nothing rfl rfl rfl rfl⟩
  | closeConnection nodeId =>
      refine Or.inl ⟨rfl, _, Drops.nothing ?_ ?_ ?_ ?_⟩
      all_goals
        simp only [step, closeConnection]
        split
        · rfl
        · split <;> rfl
  | supersedePeer nodeId =>
      exact Or.inl ⟨rfl, _, drops_rejectWhere ht.distinct (fun p => p.nodeId = nodeId)
        (js "route-superseded")⟩
  | connClosed connId => exact Or.inl ⟨rfl, _, drops_handleConnClosed ht.distinct connId⟩
  | timeout promise => exact Or.inl ⟨rfl, drops_timeout ht he⟩

theorem Exact.step (ht : t.Exact) {e : TransportEvent} (he : t.Enabled e)
    (hkeep : t.KeepsRequests e) : (t.step e).Exact := by
  rcases step_cases ht he hkeep with ⟨-, gone, h⟩ | ⟨nodeId, connId, -, hfree, hstep | h⟩
  · exact ht.of_drops h
  · rw [hstep]
    exact ht.request nodeId connId hfree
  · exact (ht.request nodeId connId hfree).of_drops h

/-- A pending request stays, or it is settled. -/
theorem pending_step (ht : t.Exact) {e : TransportEvent} (he : t.Enabled e)
    (hkeep : t.KeepsRequests e) {id : Nat} {p : Pending} (hp : t.pending.get id = some p) :
    (t.step e).pending.get id = some p ∨ p.promise ∈ (t.step e).settled.map Prod.fst := by
  have hdrops : ∀ {t₁ t₂ : Transport} {gone : Nat → Pending → Prop}, Drops t₁ t₂ gone →
      t₁.pending.get id = some p →
        t₂.pending.get id = some p ∨ p.promise ∈ t₂.settled.map Prod.fst := by
    intro t₁ t₂ gone h hp
    by_cases hg : gone id p
    · obtain ⟨new, hsettled, -, hnew⟩ := h.settled
      right
      rw [hsettled, List.map_append, List.mem_append]
      exact Or.inr ((hnew _).mpr ⟨id, p, hp, hg, rfl⟩)
    · exact Or.inl ((h.pending id p).mpr ⟨hp, hg⟩)
  have hrequest : ∀ nodeId connId, t.pending.get t.nextId = none →
      (t.request nodeId connId).pending.get id = some p := by
    intro nodeId connId hfree
    have hne : id ≠ t.nextId := by
      rintro rfl
      rw [hfree] at hp
      cases hp
    exact (JsMap.get_set_of_ne _ _ hne).trans hp
  rcases step_cases ht he hkeep with ⟨-, gone, h⟩ | ⟨nodeId, connId, -, hfree, hstep | h⟩
  · exact hdrops h hp
  · rw [hstep]
    exact Or.inl (hrequest nodeId connId hfree)
  · exact hdrops h (hrequest nodeId connId hfree)

/-- What is settled stays settled as it was. -/
theorem settled_step (ht : t.Exact) {e : TransportEvent} (he : t.Enabled e)
    (hkeep : t.KeepsRequests e) : ∃ new, (t.step e).settled = t.settled ++ new := by
  rcases step_cases ht he hkeep with ⟨-, gone, h⟩ | ⟨nodeId, connId, -, -, hstep | h⟩
  · obtain ⟨new, hnew, -⟩ := h.settled
    exact ⟨new, hnew⟩
  · exact ⟨[], by rw [hstep]; exact (List.append_nil _).symm⟩
  · obtain ⟨new, hnew, -⟩ := h.settled
    exact ⟨new, hnew⟩

/-- A request that was just made stands under its id, or its send has settled it. -/
theorem pending_of_asked (ht : t.Exact) {e : TransportEvent} (he : t.Enabled e)
    (hkeep : t.KeepsRequests e) {id : Nat} {p : Pending} (hasked : t.asked e = some (id, p)) :
    (t.step e).pending.get id = some p ∨ p.promise ∈ (t.step e).settled.map Prod.fst := by
  rcases step_cases ht he hkeep with ⟨hnone, -⟩ | ⟨nodeId, connId, hnew, -, hstep | h⟩
  · rw [hnone] at hasked
    cases hasked
  · rw [hnew] at hasked
    cases hasked
    rw [hstep]
    exact Or.inl (JsMap.get_set_self _ _ _)
  · rw [hnew] at hasked
    cases hasked
    obtain ⟨new, hsettled, -, hmem⟩ := h.settled
    right
    rw [hsettled, List.map_append, List.mem_append]
    exact Or.inr ((hmem _).mpr ⟨t.nextId, _, JsMap.get_set_self _ _ _, rfl, rfl⟩)

/-- A pending request was pending before the step or the step made it. -/
theorem asked_of_pending (ht : t.Exact) {e : TransportEvent} (he : t.Enabled e)
    (hkeep : t.KeepsRequests e) {id : Nat} {p : Pending}
    (hp : (t.step e).pending.get id = some p) :
    t.pending.get id = some p ∨ t.asked e = some (id, p) := by
  have hrequest : ∀ nodeId connId, t.asked e = some (t.nextId, ⟨nodeId, t.promises, connId⟩) →
      (t.request nodeId connId).pending.get id = some p →
        t.pending.get id = some p ∨ t.asked e = some (id, p) := by
    intro nodeId connId hasked hget
    change (t.pending.set _ _).get id = some p at hget
    rw [JsMap.get_set] at hget
    by_cases hid : id = t.nextId
    · rw [if_pos hid] at hget
      cases hget
      rw [hid]
      exact Or.inr hasked
    · rw [if_neg hid] at hget
      exact Or.inl hget
  rcases step_cases ht he hkeep with ⟨-, gone, h⟩ | ⟨nodeId, connId, hasked, -, hstep | h⟩
  · exact Or.inl ((h.pending id p).mp hp).1
  · rw [hstep] at hp
    exact hrequest nodeId connId hasked hp
  · exact hrequest nodeId connId hasked ((h.pending id p).mp hp).1

/-! ### Runs -/

/-- The promise has been settled. -/
def Settled (t : Transport) (promise : Nat) : Prop := promise ∈ t.settled.map Prod.fst

/-- The state a run leads to. -/
def run (reportBound : Bool) (es : List TransportEvent) : Transport :=
  (system reportBound).after (system reportBound).init es

/-- The run made this request, under this id. -/
def Requested (reportBound : Bool) (es : List TransportEvent) (id : Nat) (p : Pending) : Prop :=
  (system reportBound).Sometime (fun t e => t.asked e = some (id, p)) (system reportBound).init es

/-- The step supersedes the identity or closes its current connection. -/
def Ends (t : Transport) (nodeId : NodeId) : TransportEvent → Prop
  | .supersedePeer nodeId' => nodeId' = nodeId
  | .connClosed connId => t.connIdFor nodeId = some connId
  | _ => False

/-- What holds of the requests of a run at its end: no promise is settled twice; an unsettled request
stands under its own id with an armed timer; a request that was outstanding when its peer was
superseded or its peer's current connection closed is no longer pending and has not been resolved; and
if one of these was the last step, the requests to other identities are as they were. -/
structure SettlesOnce (reportBound : Bool) (es : List TransportEvent) : Prop where
  once : ((run reportBound es).settled.map Prod.fst).Nodup
  kept : ∀ id p, Requested reportBound es id p → ¬(run reportBound es).Settled p.promise →
    (run reportBound es).pending.get id = some p ∧ (p.promise, id) ∈ (run reportBound es).timers
  ended : ∀ es₁ e es₂, es = es₁ ++ e :: es₂ → ∀ id p, Requested reportBound es₁ id p →
    ¬(run reportBound es₁).Settled p.promise → (run reportBound es₁).Ends p.nodeId e →
      (∀ id' p', (run reportBound es).pending.get id' = some p' → p'.promise ≠ p.promise) ∧
        ∀ body, (p.promise, Settlement.resolved body) ∉ (run reportBound es).settled
  superseded : ∀ es₁ nodeId, es = es₁ ++ [.supersedePeer nodeId] → ∀ id p,
    (run reportBound es₁).pending.get id = some p → p.nodeId ≠ nodeId →
      SameRequest (run reportBound es₁) (run reportBound es) id p
  closed : ∀ es₁ connId, es = es₁ ++ [.connClosed connId] → ∀ id p,
    (run reportBound es₁).pending.get id = some p →
      (run reportBound es₁).connIdFor p.nodeId ≠ some connId →
        SameRequest (run reportBound es₁) (run reportBound es) id p

theorem run_append (reportBound : Bool) (es fs : List TransportEvent) :
    run reportBound (es ++ fs) = (system reportBound).after (run reportBound es) fs :=
  System.after_append

theorem run_snoc (reportBound : Bool) (es : List TransportEvent) (e : TransportEvent) :
    run reportBound (es ++ [e]) = (run reportBound es).step e :=
  run_append reportBound es [e]

theorem requested_snoc {reportBound : Bool} {es : List TransportEvent} {e : TransportEvent} {id : Nat}
    {p : Pending} : Requested reportBound (es ++ [e]) id p ↔
      Requested reportBound es id p ∨ (run reportBound es).asked e = some (id, p) :=
  System.sometime_snoc

theorem exact_init (reportBound : Bool) : (system reportBound).init.Exact := by
  refine ⟨⟨?_, ?_⟩, ?_, ?_, ?_, List.nodup_nil, ?_⟩ <;> intros <;> contradiction

/-- The invariant of a run that loses no request: the table is exact, and the requests of the run are
those in the table and the settled ones. -/
structure Sound (reportBound : Bool) (es : List TransportEvent) : Prop where
  table : (run reportBound es).Exact
  kept : ∀ id p, Requested reportBound es id p →
    (run reportBound es).pending.get id = some p ∨ (run reportBound es).Settled p.promise
  made : ∀ id p, (run reportBound es).pending.get id = some p → Requested reportBound es id p

section Keeping

variable {reportBound : Bool} {es : List TransportEvent}

theorem Sound.step {e : TransportEvent} (h : Sound reportBound es)
    (he : (run reportBound es).Enabled e) (hkeep : (run reportBound es).KeepsRequests e) :
    Sound reportBound (es ++ [e]) := by
  constructor
  · rw [run_snoc]
    exact h.table.step he hkeep
  · intro id p hreq
    rw [run_snoc]
    rcases requested_snoc.mp hreq with hold | hnew
    · rcases h.kept id p hold with hp | hset
      · exact pending_step h.table he hkeep hp
      · obtain ⟨new, hsettled⟩ := settled_step h.table he hkeep
        right
        rw [Settled, hsettled, List.map_append, List.mem_append]
        exact Or.inl hset
    · exact pending_of_asked h.table he hkeep hnew
  · intro id p hp
    rw [run_snoc] at hp
    rw [requested_snoc]
    exact (asked_of_pending h.table he hkeep hp).imp_left (h.made id p)

theorem sound_of_keeps (hrun : (system reportBound).Valid (system reportBound).init es)
    (hkeeps : (system reportBound).Along KeepsRequests (system reportBound).init es) :
    Sound reportBound es := by
  induction es using List.reverseRecOn with
  | nil =>
      refine ⟨exact_init reportBound, ?_, ?_⟩
      · intro id p hreq
        exact absurd hreq System.not_sometime_nil
      · intro id p hp
        cases hp
  | append_singleton es e ih =>
      obtain ⟨hes, he, -⟩ := System.along_append.mp hrun
      obtain ⟨hkes, hke, -⟩ := System.along_append.mp hkeeps
      exact (ih hes hkes).step he hke

/-- Along a run that loses no request, what is settled stays as it was. -/
theorem settled_prefix {t : Transport} {fs : List TransportEvent} (ht : t.Exact)
    (hrun : (system reportBound).Valid t fs) (hkeeps : (system reportBound).Along KeepsRequests t fs) :
    ∃ new, ((system reportBound).after t fs).settled = t.settled ++ new := by
  induction fs generalizing t with
  | nil => exact ⟨[], (List.append_nil _).symm⟩
  | cons e fs ih =>
      obtain ⟨new, hnew⟩ := settled_step ht hrun.1 hkeeps.1
      obtain ⟨more, hmore⟩ := ih (ht.step hrun.1 hkeeps.1) hrun.2 hkeeps.2
      refine ⟨new ++ more, ?_⟩
      exact hmore.trans (by rw [hnew, List.append_assoc])

theorem rejected_rejectWhere {t : Transport} {test : Pending → Bool} {why : JsString} {id : Nat}
    {p : Pending} (hp : t.pending.get id = some p) (htest : test p = true) :
    (p.promise, Settlement.rejected why) ∈ (t.rejectWhere test why).settled := by
  apply List.mem_append_right
  exact List.mem_map.mpr ⟨p, mem_hit.mpr ⟨id, hp, htest⟩, rfl⟩

/-- A supersede or the close of its peer's current connection rejects a pending request. -/
theorem rejected_of_ends {t : Transport} {e : TransportEvent} (hkeep : t.KeepsRequests e) {id : Nat}
    {p : Pending} (hp : t.pending.get id = some p) (hends : t.Ends p.nodeId e) :
    ∃ why, (p.promise, Settlement.rejected why) ∈ (t.step e).settled := by
  cases e with
  | supersedePeer nodeId =>
      exact ⟨_, rejected_rejectWhere hp (decide_eq_true (Eq.symm hends))⟩
  | connClosed connId =>
      have hbound : t.nodeIdByConnId.get connId = some p.nodeId := hkeep id p hp hends
      have hfwd : t.connIdByNodeId.get p.nodeId = some connId := hends
      have hcur : t.isCurrent connId = true := by
        rw [isCurrent, hbound]
        exact decide_eq_true hfwd
      refine ⟨js "peer-died", ?_⟩
      change _ ∈ (t.handleConnClosed connId).1.settled
      rw [handleConnClosed, if_pos hcur]
      exact rejected_rejectWhere hp (decide_eq_true hbound)
  | _ => exact hends.elim

theorem ended_of_keeps {es₁ es₂ : List TransportEvent} {e : TransportEvent}
    (hrun : (system reportBound).Valid (system reportBound).init (es₁ ++ e :: es₂))
    (hkeeps : (system reportBound).Along KeepsRequests (system reportBound).init (es₁ ++ e :: es₂))
    {id : Nat} {p : Pending} (hreq : Requested reportBound es₁ id p)
    (hopen : ¬(run reportBound es₁).Settled p.promise) (hends : (run reportBound es₁).Ends p.nodeId e) :
    (∀ id' p', (run reportBound (es₁ ++ e :: es₂)).pending.get id' = some p' →
        p'.promise ≠ p.promise) ∧
      ∀ body, (p.promise, Settlement.resolved body) ∉
        (run reportBound (es₁ ++ e :: es₂)).settled := by
  obtain ⟨hrun₁, he, hrun₂⟩ := System.along_append.mp hrun
  obtain ⟨hkeeps₁, hke, hkeeps₂⟩ := System.along_append.mp hkeeps
  have hsound := sound_of_keeps hrun₁ hkeeps₁
  have hp := (hsound.kept id p hreq).resolve_right hopen
  obtain ⟨why, hwhy⟩ := rejected_of_ends hke hp hends
  obtain ⟨new, hnew⟩ := settled_prefix (hsound.table.step he hke) hrun₂ hkeeps₂
  have hlast : (run reportBound (es₁ ++ e :: es₂)).settled =
      ((run reportBound es₁).step e).settled ++ new := by
    rw [run_append]
    exact hnew
  have hexact := (sound_of_keeps hrun hkeeps).table
  have hin : (p.promise, Settlement.rejected why) ∈ (run reportBound (es₁ ++ e :: es₂)).settled := by
    rw [hlast]
    exact List.mem_append_left _ hwhy
  refine ⟨?_, ?_⟩
  · intro id' p' hp' heq
    apply hexact.unsettled id' p' hp'
    rw [heq]
    exact List.mem_map_of_mem hin
  · intro body hbody
    have hsame := List.inj_on_of_nodup_map hexact.once hin hbody rfl
    cases hsame

/-- Dropping the entries that meet a test leaves the others as they were. -/
theorem sameRequest_rejectWhere {t : Transport} (ht : t.PromisesDistinct) {test : Pending → Bool}
    {id : Nat} {p : Pending} (hp : t.pending.get id = some p) (htest : test p = false)
    (why : JsString) : SameRequest t (t.rejectWhere test why) id p := by
  have hother : ∀ q ∈ (t.pending.entries.map Prod.snd).filter test, q.promise ≠ p.promise := by
    intro q hq heq
    obtain ⟨id', hget, hqtest⟩ := mem_hit.mp hq
    have hid := ht.inj id' id q p hget hp heq
    rw [hid, hp] at hget
    cases hget
    rw [htest] at hqtest
    cases hqtest
  refine ⟨?_, ?_, ?_⟩
  · change (t.pending.filter fun e => !test e.2).get id = some p
    rw [JsMap.get_filter, hp]
    simp [htest]
  · change (t.timers.filter _).filter _ = _
    rw [List.filter_filter]
    apply List.filter_congr
    intro timer _
    by_cases heq : timer.1 = p.promise
    · have hnone : (((t.pending.entries.map Prod.snd).filter test).any
          fun q => decide (q.promise = p.promise)) = false := by
        rw [List.any_eq_false]
        intro q hq
        simpa using hother q hq
      simp only [heq, hnone, decide_true, Bool.not_false, Bool.and_self]
    · simp [heq]
  · change (t.settled ++ _).filter _ = _
    rw [List.filter_append, List.append_right_eq_self, List.filter_eq_nil_iff]
    intro s hs
    obtain ⟨q, hq, rfl⟩ := List.mem_map.mp hs
    simpa using hother q hq

theorem sameRequest_supersedePeer {t : Transport} (ht : t.PromisesDistinct) {nodeId : NodeId}
    {id : Nat} {p : Pending} (hp : t.pending.get id = some p) (hne : p.nodeId ≠ nodeId) :
    SameRequest t (t.supersedePeer nodeId) id p :=
  sameRequest_rejectWhere ht hp (decide_eq_false hne) _

theorem sameRequest_handleConnClosed {t : Transport} (ht : t.PromisesDistinct) {connId : ConnId}
    {id : Nat} {p : Pending} (hp : t.pending.get id = some p)
    (hne : t.connIdFor p.nodeId ≠ some connId) :
    SameRequest t (t.handleConnClosed connId).1 id p := by
  unfold handleConnClosed
  by_cases hcur : t.isCurrent connId = true
  · rw [if_pos hcur]
    have htest : decide (t.nodeIdByConnId.get connId = some p.nodeId) = false := by
      apply decide_eq_false
      intro hbound
      rw [isCurrent, hbound] at hcur
      exact hne (of_decide_eq_true hcur)
    have h := @sameRequest_rejectWhere t ht (fun p => t.nodeIdByConnId.get connId = some p.nodeId) _ _
      hp htest (js "peer-died")
    exact ⟨h.entry, h.timer, h.promise⟩
  · rw [if_neg hcur]
    exact ⟨hp, rfl, rfl⟩

/-- A run that loses no request settles each of its requests once. -/
theorem settlesOnce_of_keeps (hrun : (system reportBound).Valid (system reportBound).init es)
    (hkeeps : (system reportBound).Along KeepsRequests (system reportBound).init es) :
    SettlesOnce reportBound es := by
  have hsound := sound_of_keeps hrun hkeeps
  refine ⟨hsound.table.once, ?_, ?_, ?_, ?_⟩
  · intro id p hreq hopen
    have hp := (hsound.kept id p hreq).resolve_right hopen
    exact ⟨hp, hsound.table.armed id p hp⟩
  · rintro es₁ e es₂ rfl id p hreq hopen hends
    exact ended_of_keeps hrun hkeeps hreq hopen hends
  · rintro es₁ nodeId rfl id p hp hne
    rw [run_snoc]
    have hsound₁ := sound_of_keeps (System.along_append.mp hrun).1 (System.along_append.mp hkeeps).1
    exact sameRequest_supersedePeer hsound₁.table.distinct hp hne
  · rintro es₁ connId rfl id p hp hne
    rw [run_snoc]
    have hsound₁ := sound_of_keeps (System.along_append.mp hrun).1 (System.along_append.mp hkeeps).1
    exact sameRequest_handleConnClosed hsound₁.table.distinct hp hne

/-! ### A step that loses a request -/

/-- A send under an id in use loses the request there. -/
theorem free_of_settlesOnce (h : Sound reportBound es) {nodeId : NodeId} {isConnOpen : ConnId → Bool}
    {throws : Bool} (hnext : SettlesOnce reportBound (es ++ [.send nodeId isConnOpen throws]))
    (hpass : (run reportBound es).PassesCheck nodeId isConnOpen) :
    (run reportBound es).pending.get (run reportBound es).nextId = none := by
  by_contra hused
  obtain ⟨q, hq⟩ := Option.ne_none_iff_exists'.mp hused
  have hlt := h.table.distinct.lt _ q hq
  obtain ⟨connId, -, hsend⟩ := send_of_passes hpass throws
  have hstep : (run reportBound es).step (.send nodeId isConnOpen throws) =
      if throws then ((run reportBound es).request nodeId connId).withdraw
          (run reportBound es).nextId (run reportBound es).promises
        else (run reportBound es).request nodeId connId := congrArg Prod.fst hsend
  have hkept := hnext.kept _ q (requested_snoc.mpr (Or.inl (h.made _ q hq)))
  rw [run_snoc, hstep] at hkept
  have hopen := h.table.unsettled _ q hq
  cases throws with
  | false =>
      have hget := (hkept hopen).1
      have hset := JsMap.get_set_self (run reportBound es).pending (run reportBound es).nextId
        ⟨nodeId, (run reportBound es).promises, connId⟩
      have heq := Option.some.inj (hset.symm.trans hget)
      rw [← heq] at hlt
      exact absurd hlt (Nat.lt_irrefl _)
  | true =>
      have hstill : q.promise ∉ ((run reportBound es).settled ++
          [((run reportBound es).promises, Settlement.rejected [])]).map Prod.fst := by
        rw [List.map_append, List.mem_append]
        rintro (hold | hnew)
        · exact hopen hold
        · exact hlt.ne (List.mem_singleton.mp hnew)
      have hget := (hkept hstill).1
      exact absurd (hget.symm.trans (JsMap.get_delete_self _ _)) (by simp)

/-- A response whose error has no string loses the request it names. -/
theorem answerReads_of_settlesOnce (h : Sound reportBound es) {connId : ConnId} {payload : JsVal}
    (hnext : SettlesOnce reportBound (es ++ [.incoming connId payload])) (hres : isRes payload) :
    (run reportBound es).AnswerReads payload := by
  intro id p hfor hok
  cases hread : (errorArgument (payload.field (js "body"))).toStr with
  | ok message => exact ⟨message, rfl⟩
  | error err =>
      have hp := pendingFor_eq_some hfor
      have hkept := hnext.kept id p (requested_snoc.mpr (Or.inl (h.made id p hp)))
      rw [run_snoc, Transport.step, handleIncoming_of_isRes hres] at hkept
      have hsettled : ((run reportBound es).handleResponse payload).1.settled =
          (run reportBound es).settled := by
        rw [handleResponse, hfor]
        dsimp only
        rw [if_neg (by simp [hok]), hread]
        rfl
      rw [Settled, hsettled] at hkept
      have hget := (hkept (h.table.unsettled id p hp)).1
      rw [get_handleResponse_of_pendingFor hfor] at hget
      cases hget

/-- The close of a connection that is not bound to the peer it carries leaves that peer's requests. -/
theorem bound_of_settlesOnce (h : Sound reportBound es) {connId : ConnId}
    (hnext : SettlesOnce reportBound (es ++ [.connClosed connId])) {id : Nat} {p : Pending}
    (hp : (run reportBound es).pending.get id = some p)
    (hconn : (run reportBound es).connIdFor p.nodeId = some connId) :
    (run reportBound es).nodeIdFor connId = some p.nodeId := by
  by_contra hne
  have hgone := (hnext.ended es _ [] rfl id p (h.made id p hp) (h.table.unsettled id p hp) hconn).1
  have hcloses : ¬(run reportBound es).closes connId = some p.nodeId := by
    unfold closes
    by_cases hcur : (run reportBound es).isCurrent connId = true
    · rw [if_pos hcur]
      exact hne
    · rw [if_neg hcur]
      simp
  have hstays := ((drops_handleConnClosed h.table.distinct connId).pending id p).mpr ⟨hp, hcloses⟩
  rw [run_snoc] at hgone
  exact hgone id p hstays rfl

theorem keeps_of_settlesOnce (h : Sound reportBound es) {e : TransportEvent}
    (hnext : SettlesOnce reportBound (es ++ [e])) : (run reportBound es).KeepsRequests e := by
  cases e with
  | send nodeId isConnOpen throws => exact free_of_settlesOnce h hnext
  | incoming connId payload => exact answerReads_of_settlesOnce h hnext
  | connClosed connId => exact fun id p => bound_of_settlesOnce h hnext
  | _ => trivial

end Keeping

/-- **Every request settles once.** In a run of the transport, at every moment, exactly when no step
of it loses a request: no send finds its id still in use, no response carries an error without a
string, and no connection closes that is bound away from a peer with requests pending on it. -/
theorem settlesOnce_iff (reportBound : Bool) (es : List TransportEvent)
    (hrun : (system reportBound).Valid (system reportBound).init es) :
    (∀ es₁, es₁ <+: es → SettlesOnce reportBound es₁) ↔
      (system reportBound).Along KeepsRequests (system reportBound).init es := by
  constructor
  · intro h
    induction es using List.reverseRecOn with
    | nil => trivial
    | append_singleton es e ih =>
        obtain ⟨hes, he, -⟩ := System.along_append.mp hrun
        have hkeeps := ih hes fun es₁ hpre => h es₁ (hpre.trans (List.prefix_append es [e]))
        have hlast := keeps_of_settlesOnce (sound_of_keeps hes hkeeps) (h _ List.prefix_rfl)
        exact System.along_append.mpr ⟨hkeeps, hlast, trivial⟩
  · rintro hkeeps es₁ ⟨es₂, rfl⟩
    exact settlesOnce_of_keeps (System.along_append.mp hrun).1 (System.along_append.mp hkeeps).1

theorem settlesOnce_askedAndAnswered :
    (system false).Valid (system false).init askedAndAnswered ∧
      ((∀ es₁, es₁ <+: askedAndAnswered → SettlesOnce false es₁) ↔
        (system false).Along KeepsRequests (system false).init askedAndAnswered) := by
  have hrun : (system false).Valid (system false).init askedAndAnswered :=
    ⟨trivial, trivial, trivial, trivial, trivial⟩
  exact ⟨hrun, settlesOnce_iff false askedAndAnswered hrun⟩

/-- A request to a peer bound on `c1`, which refuses it with an error that has no string. -/
def refusedUnreadably : List TransportEvent :=
  [.start, .bindPeer 7 (js "c1"), .send 7 (fun _ => true) false,
    .incoming (js "c1") (resFrame 1 false
      (.obj [(js "error", .obj [(js "toString", .num (.ofInt 1))])]))]

/-- The promise of the request is never settled: its entry and its timer are gone. -/
theorem not_settlesOnce_refusedUnreadably :
    (system false).Valid (system false).init refusedUnreadably ∧
      (system false).Along (fun t _ => t.pending.size < maxReqId) (system false).init
        refusedUnreadably ∧
      ¬SettlesOnce false refusedUnreadably := by
  refine ⟨⟨trivial, trivial, trivial, trivial, trivial⟩, by decide +kernel, ?_⟩
  intro h
  have hreq : Requested false refusedUnreadably 1 ⟨7, 0, js "c1"⟩ :=
    ⟨[.start, .bindPeer 7 (js "c1")], .send 7 (fun _ => true) false, _, rfl, by decide +kernel⟩
  have hopen : ¬(run false refusedUnreadably).Settled 0 := by
    rw [Settled]
    decide +kernel
  exact absurd (h.kept 1 _ hreq hopen).1 (by decide +kernel)

end Transport

end AxonaBridge
