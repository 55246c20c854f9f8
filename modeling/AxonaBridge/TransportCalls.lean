import AxonaBridge.NodeModel
import AxonaBridge.TransportSettle
import AxonaBridge.WireCodec

/-!
# Calls across the wire

A `send` asks the far end of a connection, where `_handleRequest` runs a handler and `_reply` sends
what it came to under the id of the request. Handlers take their time, so answers come back in any
order, and on this side a request may have been given up by then. While far ends answer what they were
asked, an answer settles the call it is the answer to and no other, as long as no id is used twice.
-/

open JsText

namespace JsVal

theorem lookup_replaceFields (fields : List (JsString × JsVal)) (name : JsString) :
    (replaceFields fields).lookup name = (fields.lookup name).map replace := by
  induction fields with
  | nil => rfl
  | cons field fields ih =>
      obtain ⟨name', v⟩ := field
      simp only [replaceFields, List.lookup_cons, ih]
      split <;> rfl

/-- A value as the other end of a socket reads it. -/
def carried (v : JsVal) : JsVal := revive (replace v)

theorem field_carried_obj (fields : List (JsString × JsVal)) (name : JsString) :
    (carried (.obj fields)).field name = (fields.lookup name).map carried := by
  unfold carried
  rw [field_revive]
  change ((replaceFields fields).lookup name).map revive = _
  rw [lookup_replaceFields, Option.map_map]
  rfl

end JsVal

namespace AxonaBridge

namespace AxonaFrame

/-- A field that is left out where it is `undefined`. -/
def optional (name : JsString) (v : Option JsVal) : List (JsString × JsVal) := v.toList.map fun v => (name, v)

/-- The fields of the payload of a frame. -/
def fields : AxonaFrame → List (JsString × JsVal)
  | .req id type body =>
      [(js "k", .str (js "req")), (js "id", .num (.ofInt id)), (js "type", .str type)] ++
        optional (js "body") body
  | .res id ok body =>
      (js "k", .str (js "res")) :: optional (js "id") id ++ (js "ok", .bool ok) :: optional (js "body") body
  | .ntf type body => [(js "k", .str (js "ntf")), (js "type", .str type)] ++ optional (js "body") body

/-- The payload of a frame as the other end reads it. -/
def received (frame : AxonaFrame) : JsVal := JsVal.carried (.obj frame.fields)

variable (id : Nat) (type : JsString) (ok : Bool) (body : Option JsVal)

theorem id_received_req : (received (.req id type body)).field (js "id") = some (.num (.ofInt id)) :=
  JsVal.field_carried_obj _ _

/-- A response answers under the id it was asked under. -/
theorem id_received_res :
    (received (.res (some (.num (.ofInt id))) ok body)).field (js "id") = some (.num (.ofInt id)) :=
  JsVal.field_carried_obj _ _

theorem ok_received_res :
    (received (.res (some (.num (.ofInt id))) ok body)).field (js "ok") = some (.bool ok) :=
  JsVal.field_carried_obj _ _

theorem body_received_res :
    (received (.res (some (.num (.ofInt id))) ok body)).field (js "body") = body.map JsVal.carried := by
  refine (JsVal.field_carried_obj _ _).trans (congrArg _ ?_)
  cases body <;> rfl

theorem isRes_received_res :
    Transport.isRes (received (.res (some (.num (.ofInt id))) ok body)) :=
  ⟨rfl, congrArg JsVal.asString (JsVal.field_carried_obj _ _)⟩

end AxonaFrame

namespace Transport

variable {t : Transport} {e : TransportEvent}

theorem reqKey_ofInt (id : Nat) : reqKey (some (.num (.ofInt id))) = some id := by
  have hnum : ((id : Int) : ℚ).den = 1 ∧ 0 ≤ ((id : Int) : ℚ).num :=
    ⟨Rat.den_intCast _, Int.natCast_nonneg id⟩
  unfold reqKey JsNum.ofInt
  dsimp only
  rw [if_pos hnum]
  rfl

theorem pendingFor_of_id {msg : JsVal} {id : Nat} (h : msg.field (js "id") = some (.num (.ofInt id))) :
    t.pendingFor msg = (t.pending.get id).map fun p => (id, p) := by
  unfold pendingFor
  rw [h, reqKey_ofInt, Option.bind_some]

/-! ### What a step other than a send does -/

/-- A send makes a request. -/
def IsSend : TransportEvent → Prop
  | .send .. => True
  | _ => False

/-- The reasons for which this end gives a request up. -/
def givenUp : List JsString :=
  [[], js "timeout", js "route-superseded", js "peer-died", js "transport-stopped"]

theorem counters_handleResponse (msg : JsVal) :
    (t.handleResponse msg).1.nextId = t.nextId ∧ (t.handleResponse msg).1.promises = t.promises := by
  unfold handleResponse
  split
  · exact ⟨rfl, rfl⟩
  · dsimp only
    split
    · exact ⟨rfl, rfl⟩
    · split <;> exact ⟨rfl, rfl⟩

theorem counters_step (h : ¬IsSend e) :
    (t.step e).nextId = t.nextId ∧ (t.step e).promises = t.promises := by
  cases e with
  | send nodeId isConnOpen throws => exact absurd trivial h
  | incoming connId payload =>
      by_cases hres : isRes payload
      · rw [step, handleIncoming_of_isRes hres]
        exact counters_handleResponse payload
      · rw [step, handleIncoming_of_not_isRes hres]
        exact ⟨rfl, rfl⟩
  | closeConnection nodeId =>
      simp only [step, closeConnection]
      split
      · exact ⟨rfl, rfl⟩
      · split <;> exact ⟨rfl, rfl⟩
  | connClosed connId =>
      simp only [step, handleConnClosed]
      split <;> exact ⟨rfl, rfl⟩
  | timeout promise =>
      simp only [step, timeout]
      split <;> exact ⟨rfl, rfl⟩
  | _ => exact ⟨rfl, rfl⟩

theorem promises_le_step (e : TransportEvent) : t.promises ≤ (t.step e).promises := by
  by_cases hsend : IsSend e
  · cases e with
    | send nodeId isConnOpen throws =>
        by_cases hpass : t.PassesCheck nodeId isConnOpen
        · obtain ⟨connId, -, hsent⟩ := send_of_passes hpass throws
          rw [step, hsent]
          cases throws <;> exact Nat.le_succ _
        · obtain ⟨message, hsent⟩ := send_of_not_passes hpass throws
          rw [step, hsent]
    | _ => exact hsend.elim
  · exact (counters_step hsend).2.ge

theorem pending_of_step (h : ¬IsSend e) {id : Nat} {p : Pending}
    (hp : (t.step e).pending.get id = some p) : t.pending.get id = some p := by
  cases e with
  | send nodeId isConnOpen throws => exact absurd trivial h
  | stop => exact get_pending_filter hp
  | incoming connId payload => exact pending_handleIncoming hp
  | supersedePeer nodeId => exact get_pending_filter hp
  | closeConnection nodeId =>
      simp only [step, closeConnection] at hp
      split at hp
      · exact hp
      · split at hp <;> exact hp
  | connClosed connId =>
      simp only [step, handleConnClosed] at hp
      split at hp
      · exact get_pending_filter hp
      · exact hp
  | timeout promise =>
      simp only [step, timeout] at hp
      split at hp
      · exact hp
      · exact get_pending_delete hp
  | _ => exact hp

theorem reason_of_rejectWhere {test : Pending → Bool} {why : JsString} {s : Nat × Settlement}
    (h : s ∈ (t.rejectWhere test why).settled) : s ∈ t.settled ∨ s.2 = .rejected why := by
  rcases List.mem_append.mp h with h | h
  · exact Or.inl h
  · obtain ⟨p, -, rfl⟩ := List.mem_map.mp h
    exact Or.inr rfl

/-- What is settled by something else than a response is given up. -/
theorem settled_step_cases (h : ¬IsSend e) (hres : ∀ connId payload, e = .incoming connId payload → ¬isRes payload)
    {s : Nat × Settlement} (hs : s ∈ (t.step e).settled) :
    s ∈ t.settled ∨ ∃ why ∈ givenUp, s.2 = .rejected why := by
  have hgiven : ∀ {test : Pending → Bool} {why : JsString}, why ∈ givenUp →
      s ∈ (t.rejectWhere test why).settled → s ∈ t.settled ∨ ∃ why ∈ givenUp, s.2 = .rejected why :=
    fun hwhy hmem => (reason_of_rejectWhere hmem).imp_right fun heq => ⟨_, hwhy, heq⟩
  cases e with
  | send nodeId isConnOpen throws => exact absurd trivial h
  | stop => exact hgiven (by decide) hs
  | incoming connId payload =>
      rw [step, handleIncoming_of_not_isRes (hres connId payload rfl)] at hs
      exact Or.inl hs
  | supersedePeer nodeId => exact hgiven (by decide) hs
  | closeConnection nodeId =>
      simp only [step, closeConnection] at hs
      split at hs
      · exact Or.inl hs
      · split at hs <;> exact Or.inl hs
  | connClosed connId =>
      simp only [step, handleConnClosed] at hs
      split at hs
      · exact hgiven (by decide) hs
      · exact Or.inl hs
  | timeout promise =>
      simp only [step, timeout] at hs
      split at hs
      · exact Or.inl hs
      · rcases List.mem_append.mp hs with hs | hs
        · exact Or.inl hs
        · cases List.mem_singleton.mp hs
          exact Or.inr ⟨js "timeout", by decide, rfl⟩
  | _ => exact Or.inl hs

/-- A response settles the request under its id with what it carries. -/
theorem settled_handleResponse_cases {msg : JsVal} {s : Nat × Settlement}
    (hs : s ∈ (t.handleResponse msg).1.settled) :
    s ∈ t.settled ∨ ∃ id p, t.pendingFor msg = some (id, p) ∧ s.1 = p.promise ∧
      (JsVal.truthy (msg.field (js "ok")) = true ∧ s.2 = .resolved (msg.field (js "body")) ∨
        JsVal.truthy (msg.field (js "ok")) = false ∧
          ∃ message, (errorArgument (msg.field (js "body"))).toStr = .ok message ∧ s.2 = .rejected message) := by
  unfold handleResponse at hs
  split at hs
  · exact Or.inl hs
  · rename_i id p hfor
    dsimp only at hs
    split at hs
    · rename_i hok
      rcases List.mem_append.mp hs with hs | hs
      · exact Or.inl hs
      · cases List.mem_singleton.mp hs
        exact Or.inr ⟨id, p, hfor, rfl, Or.inl ⟨hok, rfl⟩⟩
    · rename_i hok
      split at hs
      · exact Or.inl hs
      · rename_i message hmessage
        rcases List.mem_append.mp hs with hs | hs
        · exact Or.inl hs
        · cases List.mem_singleton.mp hs
          exact Or.inr ⟨id, p, hfor, rfl, Or.inr ⟨Bool.eq_false_iff.mpr hok, message, hmessage, rfl⟩⟩

/-- An entry that goes with its timer and leaves its promise open keeps the table exact. -/
theorem Exact.forget (ht : t.Exact) {id : Nat} {p : Pending} (hp : t.pending.get id = some p) :
    { t.clearTimer p.promise with pending := t.pending.delete id }.Exact := by
  have hgone := ht.of_drops (drops_one hp (.rejected []))
  have hsub : ∀ promise, promise ∈ t.settled.map Prod.fst →
      promise ∈ (t.settled ++ [(p.promise, Settlement.rejected [])]).map Prod.fst := fun promise hmem => by
    rw [List.map_append]
    exact List.mem_append_left _ hmem
  exact ⟨⟨hgone.distinct.lt, hgone.distinct.inj⟩, hgone.armed, hgone.timed, fun id' p' hp' hmem =>
    hgone.unsettled id' p' hp' (hsub _ hmem), ht.once, ht.past⟩

/-- Whatever a response says, the table stays exact. -/
theorem Exact.handleResponse (ht : t.Exact) (msg : JsVal) : (t.handleResponse msg).1.Exact := by
  by_cases hread : t.AnswerReads msg
  · obtain ⟨gone, h⟩ := drops_handleResponse hread
    exact ht.of_drops h
  · -- the error has no string
    unfold AnswerReads at hread
    push Not at hread
    obtain ⟨id, p, hfor, hok, hnone⟩ := hread
    unfold Transport.handleResponse
    rw [hfor]
    dsimp only
    rw [if_neg (Bool.eq_false_iff.mp hok)]
    split
    · exact ht.forget (pendingFor_eq_some hfor)
    · rename_i message hmessage
      exact absurd hmessage (hnone message)

theorem Exact.step_of_not_isSend (ht : t.Exact) (he : t.Enabled e) (h : ¬IsSend e) : (t.step e).Exact := by
  cases e with
  | send nodeId isConnOpen throws => exact absurd trivial h
  | incoming connId payload =>
      by_cases hres : isRes payload
      · rw [Transport.step, handleIncoming_of_isRes hres]
        exact ht.handleResponse payload
      · rw [Transport.step, handleIncoming_of_not_isRes hres]
        exact ht
  | connClosed connId => exact ht.of_drops (drops_handleConnClosed ht.distinct connId)
  | _ => exact ht.step he trivial

end Transport

/-! ### Both ends -/

/-- A request that was made: under which id and promise, of whom, and what it asks. -/
structure Call where
  id : Nat
  promise : Nat
  nodeId : NodeId
  type : JsString
  body : Option JsVal

/-- The request as the far end reads it. -/
def Call.request (call : Call) : JsVal := (AxonaFrame.req call.id call.type call.body).received

/-- A frame on its way, with the promise of the call it belongs to, which it does not carry. -/
structure Underway where
  promise : Nat
  connId : ConnId
  msg : JsVal

/-- What a far end made of a request. -/
structure Answer where
  promise : Nat
  request : JsVal
  ok : Bool
  body : Option JsVal

/-- A transport, the far ends of its connections and the frames between them. -/
structure Calls where
  near : Transport
  made : List Call := []
  asked : List Underway := []
  answers : List Answer := []
  replies : List Underway := []

inductive CallEvent where
  | call (nodeId : NodeId) (type : JsString) (body : Option JsVal) (isConnOpen : ConnId → Bool) (throws : Bool)
  /-- A far end answers the `i`-th of the requests on their way, or its handler throws. -/
  | serve (i : Nat) (ok : Bool) (body : Option JsVal)
  /-- The `i`-th of the responses on their way arrives. -/
  | arrive (i : Nat)
  /-- Anything else at this end. -/
  | near (e : TransportEvent)

namespace Calls

variable (c : Calls)

def call (nodeId : NodeId) (type : JsString) (body : Option JsVal) (isConnOpen : ConnId → Bool)
    (throws : Bool) : Calls :=
  let r := c.near.send nodeId isConnOpen throws
  match r.2 with
  | .refused _ => { c with near := r.1 }
  | .requested connId id promise =>
      let call : Call := { id, promise, nodeId, type, body }
      { c with
        near := r.1
        made := c.made ++ [call]
        asked := if throws then c.asked else c.asked ++ [{ promise, connId, msg := call.request }] }

/-- `_handleRequest` at the far end, which replies under the id in the request. -/
def serve (i : Nat) (ok : Bool) (body : Option JsVal) : Calls :=
  match c.asked[i]? with
  | none => c
  | some u =>
      { c with
        asked := c.asked.eraseIdx i
        answers := c.answers ++ [{ promise := u.promise, request := u.msg, ok, body }]
        replies := c.replies ++
          [{ u with msg := (AxonaFrame.res (u.msg.field (js "id")) ok body).received }] }

def arrive (i : Nat) : Calls :=
  match c.replies[i]? with
  | none => c
  | some u =>
      { c with
        near := (c.near.handleIncoming u.connId u.msg).1
        replies := c.replies.eraseIdx i }

def step (c : Calls) : CallEvent → Calls
  | .call nodeId type body isConnOpen throws => c.call nodeId type body isConnOpen throws
  | .serve i ok body => c.serve i ok body
  | .arrive i => c.arrive i
  | .near e => { c with near := c.near.step e }

/-- Responses come from the far ends, which answer each request once. -/
def Enabled (c : Calls) : CallEvent → Prop
  | .call .. => True
  | .serve i _ _ => i < c.asked.length
  | .arrive i => i < c.replies.length
  | .near e => c.near.Enabled e ∧ ¬Transport.IsSend e ∧
      ∀ connId payload, e = .incoming connId payload → ¬Transport.isRes payload

def system (reportBound : Bool) : System Calls CallEvent where
  init := { near := { reportBound } }
  enabled := Enabled
  step := step

variable {c}

/-- A call came to this by an answer to it, or was given up. -/
def Ended (c : Calls) (promise : Nat) : Settlement → Prop
  | .resolved body => ∃ a ∈ c.answers, a.promise = promise ∧ a.ok = true ∧ body = a.body.map JsVal.carried
  | .rejected why => why ∈ Transport.givenUp ∨ ∃ a ∈ c.answers, a.promise = promise ∧ a.ok = false ∧
      (Transport.errorArgument (a.body.map JsVal.carried)).toStr = .ok why

theorem Ended.mono {c' : Calls} {promise : Nat} {how : Settlement} (h : c.Ended promise how)
    (hsub : ∀ a ∈ c.answers, a ∈ c'.answers) : c'.Ended promise how := by
  cases how with
  | resolved body =>
      obtain ⟨a, ha, hrest⟩ := h
      exact ⟨a, hsub a ha, hrest⟩
  | rejected why =>
      refine Or.imp_right ?_ h
      rintro ⟨a, ha, hrest⟩
      exact ⟨a, hsub a ha, hrest⟩

/-- Each call is under a promise of its own, answered once at most, by one who was asked just that, and
settled once at most, with the answer to it or because it was given up. -/
structure Faithful (c : Calls) : Prop where
  calls : (c.made.map Call.promise).Nodup
  answers : (c.answers.map Answer.promise).Nodup
  asked : ∀ a ∈ c.answers, ∃ call ∈ c.made, call.promise = a.promise ∧ a.request = call.request
  settled : (c.near.settled.map Prod.fst).Nodup
  ended : ∀ s ∈ c.near.settled, c.Ended s.1 s.2

/-- The invariant: ids count promises, so what is on its way carries the number of its call. -/
structure Matched (c : Calls) : Prop where
  table : c.near.Exact
  counter : c.near.promises < maxReqId → c.near.nextId = c.near.promises + 1
  numbered : ∀ id p, c.near.pending.get id = some p → id = p.promise + 1
  made : ∀ call ∈ c.made, call.id = call.promise + 1 ∧ call.promise < c.near.promises
  calls : (c.made.map Call.promise).Nodup
  asked : ∀ u ∈ c.asked, ∃ call ∈ c.made, call.promise = u.promise ∧ u.msg = call.request
  answered : ∀ a ∈ c.answers, ∃ call ∈ c.made, call.promise = a.promise ∧ a.request = call.request
  once : (c.answers.map Answer.promise ++ c.asked.map Underway.promise).Nodup
  replies : ∀ u ∈ c.replies, ∃ a ∈ c.answers, a.promise = u.promise ∧
    u.msg = (AxonaFrame.res (some (.num (.ofInt (u.promise + 1 : Nat)))) a.ok a.body).received
  ended : ∀ s ∈ c.near.settled, c.Ended s.1 s.2

theorem Matched.faithful (h : c.Matched) : c.Faithful :=
  ⟨h.calls, (List.nodup_append.mp h.once).1, h.answered, h.table.once, h.ended⟩

theorem matched_init (reportBound : Bool) : (system reportBound).init.Matched where
  table := Transport.exact_init reportBound
  counter _ := rfl
  numbered _ _ hp := by cases hp
  made _ hmem := by cases hmem
  calls := List.nodup_nil
  asked _ hmem := by cases hmem
  answered _ hmem := by cases hmem
  once := List.nodup_nil
  replies _ hmem := by cases hmem
  ended _ hmem := by cases hmem

/-- A step of this end that is neither a send nor a response. -/
theorem Matched.near (h : c.Matched) {e : TransportEvent} (he : c.Enabled (.near e)) :
    (c.step (.near e)).Matched := by
  obtain ⟨henabled, hsend, hres⟩ := he
  obtain ⟨hnext, hpromises⟩ := @Transport.counters_step c.near e hsend
  refine ⟨h.table.step_of_not_isSend henabled hsend, fun hlt => ?_, fun id p hp => ?_, fun call hmem => ?_,
    h.calls, h.asked, h.answered, h.once, h.replies, fun s hs => ?_⟩
  · exact hnext.trans ((h.counter (hpromises ▸ hlt)).trans (congrArg (· + 1) hpromises.symm))
  · exact h.numbered id p (Transport.pending_of_step hsend hp)
  · exact ⟨(h.made call hmem).1, hpromises.symm ▸ (h.made call hmem).2⟩
  · rcases Transport.settled_step_cases hsend hres hs with hs | ⟨why, hwhy, heq⟩
    · exact h.ended s hs
    · rw [heq]
      exact Or.inl hwhy

theorem Matched.serve (h : c.Matched) (i : Nat) (ok : Bool) (body : Option JsVal) :
    (c.serve i ok body).Matched := by
  unfold Calls.serve
  split
  · exact h
  · rename_i u hget
    obtain ⟨hi, hu⟩ := List.getElem?_eq_some_iff.mp hget
    have hmem : u ∈ c.asked := List.mem_of_getElem? hget
    have hperm : (u :: c.asked.eraseIdx i).Perm c.asked := hu ▸ List.getElem_cons_eraseIdx_perm hi
    obtain ⟨call, hcall, hpromise, hmsg⟩ := h.asked u hmem
    have hid : u.msg.field (js "id") = some (.num (.ofInt (u.promise + 1 : Nat))) := by
      rw [hmsg, Call.request, AxonaFrame.id_received_req, (h.made call hcall).1, hpromise]
    refine ⟨h.table, h.counter, h.numbered, h.made, h.calls, fun v hv => ?_, fun a ha => ?_, ?_, fun v hv => ?_,
      fun s hs => ?_⟩
    · exact h.asked v (List.mem_of_mem_eraseIdx hv)
    · rcases List.mem_append.mp ha with ha | ha
      · exact h.answered a ha
      · cases List.mem_singleton.mp ha
        exact ⟨call, hcall, hpromise, hmsg⟩
    · -- the request moves from those on their way to those answered
      have hmoved : (c.answers.map Answer.promise ++ (u :: c.asked.eraseIdx i).map Underway.promise).Nodup :=
        ((hperm.map _).append_left _).nodup_iff.mpr h.once
      rw [List.map_append, List.append_assoc]
      exact hmoved
    · rcases List.mem_append.mp hv with hv | hv
      · obtain ⟨a, ha, hrest⟩ := h.replies v hv
        exact ⟨a, List.mem_append_left _ ha, hrest⟩
      · cases List.mem_singleton.mp hv
        refine ⟨_, List.mem_append_right _ (List.mem_singleton_self _), rfl, ?_⟩
        dsimp only
        rw [hid]
    · exact (h.ended s hs).mono fun a ha => List.mem_append_left _ ha

/-- A response finds the call it was asked by, or none. -/
theorem Matched.arrive (h : c.Matched) (i : Nat) : (c.arrive i).Matched := by
  unfold Calls.arrive
  split
  · exact h
  · rename_i u hget
    obtain ⟨a, ha, hpromise, hmsg⟩ := h.replies u (List.mem_of_getElem? hget)
    have hres : Transport.isRes u.msg := hmsg ▸ AxonaFrame.isRes_received_res _ _ _
    obtain ⟨hnext, hpromises⟩ := @Transport.counters_handleResponse c.near u.msg
    have hnear : (c.near.handleIncoming u.connId u.msg).1 = (c.near.handleResponse u.msg).1 :=
      Transport.handleIncoming_of_isRes hres
    rw [hnear]
    refine ⟨h.table.handleResponse u.msg, fun hlt => ?_, fun id p hp => ?_, fun call hmem => ?_, h.calls,
      h.asked, h.answered, h.once, fun v hv => h.replies v (List.mem_of_mem_eraseIdx hv), fun s hs => ?_⟩
    · exact hnext.trans ((h.counter (hpromises ▸ hlt)).trans (congrArg (· + 1) hpromises.symm))
    · exact h.numbered id p (Transport.pending_handleResponse hp)
    · exact ⟨(h.made call hmem).1, hpromises.symm ▸ (h.made call hmem).2⟩
    · rcases Transport.settled_handleResponse_cases hs with hs | ⟨id, p, hfor, hs, hhow⟩
      · exact h.ended s hs
      · have hid : u.msg.field (js "id") = some (.num (.ofInt (u.promise + 1 : Nat))) := by
          rw [hmsg, AxonaFrame.id_received_res]
        rw [Transport.pendingFor_of_id hid] at hfor
        obtain ⟨q, hq, heq⟩ := Option.map_eq_some_iff.mp hfor
        cases heq
        have hsame : u.promise = p.promise := by
          have := h.numbered _ p hq
          omega
        rw [hmsg, AxonaFrame.ok_received_res, AxonaFrame.body_received_res] at hhow
        rw [hs, ← hsame, ← hpromise]
        rcases hhow with ⟨hok, heq⟩ | ⟨hok, message, hmessage, heq⟩
        · rw [heq]
          exact ⟨a, ha, rfl, hok, rfl⟩
        · rw [heq]
          exact Or.inr ⟨a, ha, rfl, hok, hmessage⟩

/-- What is answered or on its way was asked by a call that was made. -/
theorem Matched.lt_of_mem (h : c.Matched) {promise : Nat}
    (hmem : promise ∈ c.answers.map Answer.promise ++ c.asked.map Underway.promise) :
    promise < c.near.promises := by
  rcases List.mem_append.mp hmem with hmem | hmem
  · obtain ⟨a, ha, rfl⟩ := List.mem_map.mp hmem
    obtain ⟨call, hcall, heq, -⟩ := h.answered a ha
    exact heq ▸ (h.made call hcall).2
  · obtain ⟨u, hu, rfl⟩ := List.mem_map.mp hmem
    obtain ⟨call, hcall, heq, -⟩ := h.asked u hu
    exact heq ▸ (h.made call hcall).2

/-- A call goes under an id that counts it. -/
theorem Matched.call (h : c.Matched) (nodeId : NodeId) (type : JsString) (body : Option JsVal)
    (isConnOpen : ConnId → Bool) (throws : Bool)
    (hfew : (c.call nodeId type body isConnOpen throws).near.promises ≤ maxReqId) :
    (c.call nodeId type body isConnOpen throws).Matched := by
  by_cases hpass : c.near.PassesCheck nodeId isConnOpen
  · obtain ⟨connId, -, hsent⟩ := Transport.send_of_passes hpass throws
    generalize hnear : (if throws then (c.near.request nodeId connId).withdraw c.near.nextId c.near.promises
      else c.near.request nodeId connId) = near at hsent
    have hcall : c.call nodeId type body isConnOpen throws =
        { c with
          near
          made := c.made ++ [{ id := c.near.nextId, promise := c.near.promises, nodeId, type, body }]
          asked := if throws then c.asked else
            c.asked ++ [⟨c.near.promises, connId, (AxonaFrame.req c.near.nextId type body).received⟩] } := by
      unfold Calls.call
      rw [hsent]
      rfl
    rw [hcall] at hfew ⊢
    obtain ⟨hpromises, hnext', hpending, hsettled⟩ : near.promises = c.near.promises + 1 ∧
        near.nextId = (if maxReqId ≤ c.near.nextId then 1 else c.near.nextId + 1) ∧
        (∀ id p, near.pending.get id = some p →
          id = c.near.nextId ∧ p.promise = c.near.promises ∨ c.near.pending.get id = some p) ∧
        ∀ s ∈ near.settled, s ∈ c.near.settled ∨ s.2 = .rejected [] := by
      have hrequest : ∀ id p, (c.near.request nodeId connId).pending.get id = some p →
          id = c.near.nextId ∧ p.promise = c.near.promises ∨ c.near.pending.get id = some p := by
        intro id p hp
        change (c.near.pending.set _ _).get id = some p at hp
        rw [JsMap.get_set] at hp
        split at hp
        · rename_i hid
          cases hp
          exact Or.inl ⟨hid, rfl⟩
        · exact Or.inr hp
      rw [← hnear]
      cases throws with
      | false => exact ⟨rfl, rfl, hrequest, fun s hs => Or.inl hs⟩
      | true =>
          refine ⟨rfl, rfl, fun id p hp => hrequest id p (Transport.get_pending_delete hp), fun s hs => ?_⟩
          rcases List.mem_append.mp hs with hs | hs
          · exact Or.inl hs
          · cases List.mem_singleton.mp hs
            exact Or.inr rfl
    have hnext : c.near.nextId = c.near.promises + 1 := h.counter (by
      dsimp only at hfew
      omega)
    have hfree : c.near.pending.get c.near.nextId = none := by
      refine Option.eq_none_iff_forall_ne_some.mpr fun p hp => ?_
      have := h.numbered _ p hp
      have := h.table.distinct.lt _ p hp
      omega
    have hfresh : ∀ promise, promise < c.near.promises → promise ≠ c.near.promises := fun _ h => h.ne
    refine ⟨?_, fun hlt => ?_, fun id p hp => ?_, fun call hmem => ?_, ?_, fun u hu => ?_, fun a ha => ?_, ?_,
      h.replies, fun s hs => ?_⟩
    · have hexact := h.table.request nodeId connId hfree
      rw [← hnear]
      cases throws with
      | false => exact hexact
      | true => exact hexact.of_drops (Transport.drops_one (t := c.near.request nodeId connId)
          (p := ⟨nodeId, c.near.promises, connId⟩) (JsMap.get_set_self _ _ _) (.rejected []))
    · dsimp only at hlt ⊢
      rw [hnext', if_neg (by omega)]
      omega
    · rcases hpending id p hp with ⟨hid, hpromise⟩ | hold
      · rw [hid, hnext, hpromise]
      · exact h.numbered id p hold
    · rw [hpromises]
      rcases List.mem_append.mp hmem with hmem | hmem
      · obtain ⟨hid, hlt⟩ := h.made call hmem
        exact ⟨hid, Nat.lt_succ_of_lt hlt⟩
      · cases List.mem_singleton.mp hmem
        exact ⟨hnext, Nat.lt_succ_self _⟩
    · rw [List.map_append, List.nodup_append]
      refine ⟨h.calls, List.nodup_singleton _, ?_⟩
      rintro promise hmem promise' hmem' rfl
      obtain ⟨call, hcall, rfl⟩ := List.mem_map.mp hmem
      exact hfresh _ (h.made call hcall).2 (List.mem_singleton.mp hmem')
    · have hu : u ∈ c.asked ∨
          u = ⟨c.near.promises, connId, (AxonaFrame.req c.near.nextId type body).received⟩ := by
        dsimp only at hu
        split at hu
        · exact Or.inl hu
        · exact (List.mem_append.mp hu).imp_right List.mem_singleton.mp
      rcases hu with hu | rfl
      · obtain ⟨call, hcall, hrest⟩ := h.asked u hu
        exact ⟨call, List.mem_append_left _ hcall, hrest⟩
      · exact ⟨_, List.mem_append_right _ (List.mem_singleton_self _), rfl, rfl⟩
    · obtain ⟨call, hcall, hrest⟩ := h.answered a ha
      exact ⟨call, List.mem_append_left _ hcall, hrest⟩
    · dsimp only
      split
      · exact h.once
      · rw [List.map_append, ← List.append_assoc, List.nodup_append]
        refine ⟨h.once, List.nodup_singleton _, ?_⟩
        rintro promise hmem promise' hmem' rfl
        exact hfresh _ (h.lt_of_mem hmem) (List.mem_singleton.mp hmem')
    · rcases hsettled s hs with hs | heq
      · exact h.ended s hs
      · rw [heq]
        exact Or.inl (by decide)
  · obtain ⟨message, hsent⟩ := Transport.send_of_not_passes hpass throws
    have hsame : c.call nodeId type body isConnOpen throws = c := by
      unfold Calls.call
      rw [hsent]
    rw [hsame]
    exact h

theorem promises_le_step (e : CallEvent) : c.near.promises ≤ (c.step e).near.promises := by
  cases e with
  | call nodeId type body isConnOpen throws =>
      have hnear : (c.step (.call nodeId type body isConnOpen throws)).near =
          (c.near.send nodeId isConnOpen throws).1 := by
        unfold step call
        dsimp only
        split <;> rfl
      rw [hnear]
      exact Transport.promises_le_step (.send nodeId isConnOpen throws)
  | serve i ok body =>
      change _ ≤ (c.serve i ok body).near.promises
      unfold serve
      split <;> exact le_rfl
  | arrive i =>
      change _ ≤ (c.arrive i).near.promises
      unfold arrive
      split
      · exact le_rfl
      · exact Transport.promises_le_step (.incoming _ _)
  | near e => exact Transport.promises_le_step e

/-- **Own answers.** In every run of a transport with far ends that answer what they were asked, up to
the last id, every call is answered at most once, by an end that read just that call, and settled at most
once, with that answer or because it was given up. -/
theorem faithful_of_valid (reportBound : Bool) (es : List CallEvent)
    (hes : (system reportBound).Valid (system reportBound).init es)
    (hfew : ((system reportBound).after (system reportBound).init es).near.promises ≤ maxReqId) :
    ((system reportBound).after (system reportBound).init es).Faithful := by
  refine Matched.faithful ?_
  revert hfew
  refine System.Valid.history (P := fun es =>
    ((system reportBound).after (system reportBound).init es).near.promises ≤ maxReqId →
      ((system reportBound).after (system reportBound).init es).Matched)
    (fun _ => matched_init reportBound) ?_ hes
  intro es e hes he ih hfew
  rw [System.after_append] at hfew ⊢
  have h := ih ((promises_le_step e).trans hfew)
  change (step _ e).Matched
  cases e with
  | call nodeId type body isConnOpen throws => exact h.call nodeId type body isConnOpen throws hfew
  | serve i ok body => exact h.serve i ok body
  | arrive i => exact h.arrive i
  | near e => exact h.near he

/-- Two calls, of which the second is answered first, and the first after it was given up. -/
def twoCalls : List CallEvent :=
  [.near .start, .near (.bindPeer 7 (js "c1")), .near (.bindPeer 8 (js "c2")),
    .call 7 (js "ping") none (fun _ => true) false,
    .call 8 (js "ping") (some (.bigint 5)) (fun _ => true) false, .serve 1 true (some (.bigint 6)), .serve 0 true none,
    .arrive 0, .near (.supersedePeer 7), .arrive 0]

theorem faithful_twoCalls : ((system false).after (system false).init twoCalls).Faithful := by
  have hlocal : ∀ e : TransportEvent, (∀ connId payload, e ≠ .incoming connId payload) →
      ∀ connId payload, e = .incoming connId payload → ¬Transport.isRes payload :=
    fun _ hne connId payload heq => absurd heq (hne connId payload)
  have hrun : (system false).Valid (system false).init twoCalls :=
    ⟨⟨trivial, not_false, hlocal _ nofun⟩, ⟨trivial, not_false, hlocal _ nofun⟩,
      ⟨trivial, not_false, hlocal _ nofun⟩, trivial, trivial, Nat.one_lt_two, Nat.zero_lt_one,
      Nat.zero_lt_two, ⟨trivial, not_false, hlocal _ nofun⟩, Nat.zero_lt_one, trivial⟩
  exact faithful_of_valid false twoCalls hrun (by decide +kernel)

end Calls

end AxonaBridge
