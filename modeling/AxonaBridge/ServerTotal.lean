import AxonaBridge.ServerGate

/-!
# Frames that make the message handler throw

The handler reads fields of whatever JSON a client sends. It throws on `null`, on a row that holds a
`BigInt`, and on a refused answer whose error has no string; everything else it does is either total
or inside a `try` or an async function.
-/

open JsText

namespace AxonaBridge

namespace Server

variable {cfg : Config} {io : Io} {s : Server}

/-- A hello states its version. -/
def StatesVersion (msg : JsVal) : Prop :=
  ∃ version, version ≠ [] ∧ JsVal.asString (msg.field (js "version")) = some version

/-- The text frames the handler returns from, given the connection they arrive on. -/
structure Tame (cfg : Config) (s : Server) (conn : Conn) (msg : JsVal) : Prop where
  /-- The document is not `null`. -/
  notNull : msg ≠ .null
  /-- At the debug level, the `type` is free of `BigInt`s. -/
  typeLogged : cfg.logDebug = true → ∀ type, msg.field (js "type") = some type →
    type.hasBigInt = false
  /-- In a client-hello that states its version, the `wireVersion` is free of `BigInt`s. -/
  wireLogged : conn.admitted = false →
    JsVal.asString (msg.field (js "type")) = some (js "client-hello") → StatesVersion msg →
      ∀ wire, msg.field (js "wireVersion") = some wire → wire.hasBigInt = false
  /-- A refusal of a pending request gives an error that converts to a string. -/
  errorText : conn.admitted = true → JsVal.asString (msg.field (js "type")) = some (js "axona") →
    ∀ payload, msg.field (js "payload") = some payload → Transport.isRes payload →
      ∀ id p, s.node.transport.pendingFor payload = some (id, p) →
        JsVal.truthy (payload.field (js "ok")) = false →
          ∃ text, (Transport.errorArgument (payload.field (js "body"))).toStr = .ok text

/-! ### Rows -/

theorem tryLog_returns_iff {level : LogLevel} {event : JsString} {fields : List (JsString × JsVal)} :
    (s.tryLog cfg level event fields).2 = none ↔
      (level = .debug → cfg.logDebug = true) → ∀ field ∈ fields, field.2.hasBigInt = false := by
  unfold tryLog
  split
  · rename_i h
    refine iff_of_true rfl fun hlevel => ?_
    exact absurd (hlevel h.1) h.2
  · rename_i h
    have hlevel : level = .debug → cfg.logDebug = true := fun hdebug => by
      by_contra hnot
      exact h ⟨hdebug, hnot⟩
    cases hfields : LogVal.ofFields fields with
    | none =>
        obtain ⟨field, hmem, hbig⟩ := LogVal.ofFields_eq_none_iff.mp hfields
        refine iff_of_false (by simp) fun hall => ?_
        rw [hall hlevel field hmem] at hbig
        cases hbig
    | some row =>
        refine iff_of_true rfl fun _ field hmem => ?_
        by_contra hbig
        have := LogVal.ofFields_eq_none_iff.mpr ⟨field, hmem, by simpa using hbig⟩
        rw [hfields] at this
        cases this

/-- A row of the connection id and the `type` of the frame. -/
theorem tryLog_type_returns_iff {event : JsString} {id : ConnId} {type : Option JsVal} :
    (s.tryLog cfg .debug event
      ((js "connId", .str id) :: (type.map fun type => (js "type", type)).toList)).2 = none ↔
      (cfg.logDebug = true → ∀ v, type = some v → v.hasBigInt = false) := by
  rw [tryLog_returns_iff]
  constructor
  · rintro h hdebug v rfl
    exact h (fun _ => hdebug) (js "type", v) (by simp)
  · intro h hlevel field hmem
    rcases List.mem_cons.mp hmem with rfl | hmem
    · rfl
    · cases type with
      | none => cases hmem
      | some v =>
          rw [Option.map_some, Option.toList_some, List.mem_singleton] at hmem
          rw [hmem]
          exact h (hlevel rfl) v rfl

theorem refuse_returns_iff {id : ConnId} {r : Refusal} :
    (s.refuse cfg io id r).2 = none ↔ ∀ field ∈ r.fields, field.2.hasBigInt = false := by
  have hlog : (s.tryLog cfg .error r.event r.fields).2 = none ↔
      (LogLevel.error = .debug → cfg.logDebug = true) → ∀ field ∈ r.fields, field.2.hasBigInt = false :=
    tryLog_returns_iff
  have hlevel : LogLevel.error = .debug → cfg.logDebug = true := fun h => by cases h
  unfold refuse
  split
  · rename_i s' e h
    rw [h] at hlog
    refine iff_of_false (by simp) fun hall => ?_
    cases hlog.mpr fun _ => hall
  · rename_i s' h
    rw [h] at hlog
    have hall := hlog.mp rfl hlevel
    split
    · exact iff_of_true rfl hall
    · exact iff_of_true rfl hall

/-! ### The branches -/

/-- The gate turns to the wire version only of a hello that states its version, and past a wire
version that is no string it does not go. -/
theorem gate_cases (cfg : Config) (msg : JsVal) :
    (gate cfg msg = .missingVersion ∧ ¬StatesVersion msg) ∨
      (∃ peerVersion, gate cfg msg = .wireMismatch peerVersion ∧ StatesVersion msg) ∨
      ((∃ wire, msg.field (js "wireVersion") = some (.str wire)) ∧
        ∀ peerVersion, gate cfg msg ≠ .missingVersion ∧ gate cfg msg ≠ .wireMismatch peerVersion) := by
  unfold gate
  split
  · rename_i h
    refine Or.inl ⟨rfl, ?_⟩
    rintro ⟨version, hne, hversion⟩
    rw [hversion] at h
    simp [hne] at h
  · rename_i version h
    rw [Option.filter_eq_some_iff] at h
    have hstates : StatesVersion msg := ⟨version, by simpa using h.2, h.1⟩
    dsimp only
    split
    · exact Or.inr (Or.inl ⟨version, rfl, hstates⟩)
    · rename_i hmajor
      refine Or.inr (Or.inr ⟨?_, fun peerVersion => ?_⟩)
      · cases hwire : msg.field (js "wireVersion") with
        | none => simp [hwire, JsVal.asString] at hmajor
        | some wire =>
            cases wire with
            | str w => exact ⟨w, rfl⟩
            | _ => simp [hwire, JsVal.asString] at hmajor
      · split
        · simp
        · split_ifs <;> simp

theorem onClientHello_returns_iff {id : ConnId} {conn : Conn} {msg : JsVal} :
    (s.onClientHello cfg io id conn msg).2 = none ↔
      (StatesVersion msg → ∀ wire, msg.field (js "wireVersion") = some wire →
        wire.hasBigInt = false) := by
  have hrefuse : ∀ r, refusal cfg id msg (gate cfg msg) = some r →
      ((s.onClientHello cfg io id conn msg).2 = none ↔
        ∀ field ∈ r.fields, field.2.hasBigInt = false) := by
    intro r hr
    rw [onClientHello_of_refusal hr, refuse_returns_iff]
  have hsafe : (∃ wire, msg.field (js "wireVersion") = some (.str wire)) →
      (StatesVersion msg → ∀ wire, msg.field (js "wireVersion") = some wire →
        wire.hasBigInt = false) := by
    rintro ⟨w, hw⟩ - wire hwire
    rw [hw] at hwire
    cases hwire
    rfl
  rcases gate_cases cfg msg with ⟨hgate, hnot⟩ | ⟨peerVersion, hgate, hstates⟩ | ⟨hwire, hne⟩
  · have hr := congrArg (refusal cfg id msg) hgate
    rw [hrefuse _ (hr.trans rfl)]
    refine iff_of_true (fun field hmem => ?_) fun h => absurd h hnot
    rw [List.mem_singleton.mp hmem]
    rfl
  · have hr := congrArg (refusal cfg id msg) hgate
    rw [hrefuse _ (hr.trans rfl)]
    constructor
    · intro hall _ wire hwire
      have := hall (js "peerWire", JsVal.orNull (msg.field (js "wireVersion"))) (by simp)
      rwa [hwire] at this
    · intro h field hmem
      simp only [List.mem_cons, List.not_mem_nil, or_false] at hmem
      rcases hmem with rfl | rfl | rfl | rfl
      · rfl
      · rfl
      · cases hwire : msg.field (js "wireVersion") with
        | none => rfl
        | some wire => exact h hstates wire hwire
      · rfl
  · refine iff_of_true ?_ (hsafe hwire)
    cases hgate : gate cfg msg with
    | missingVersion => exact absurd hgate (hne []).1
    | wireMismatch peerVersion => exact absurd hgate (hne peerVersion).2
    | kernelTooOld peerVersion peerKernel minKernel =>
        have hr := congrArg (refusal cfg id msg) hgate
        rw [hrefuse _ (hr.trans rfl)]
        intro field hmem
        simp only [List.mem_cons, List.not_mem_nil, or_false] at hmem
        rcases hmem with rfl | rfl | rfl | rfl
        · rfl
        · rfl
        · cases peerKernel <;> rfl
        · rfl
    | tooOld peerVersion ns floor effectiveMin =>
        have hr := congrArg (refusal cfg id msg) hgate
        rw [hrefuse _ (hr.trans rfl)]
        intro field hmem
        simp only [List.mem_cons, List.not_mem_nil, or_false] at hmem
        rcases hmem with rfl | rfl | rfl | rfl | rfl | rfl <;> rfl
    | passed peerVersion ns floor => simp [onClientHello, hgate, refusal]

/-- What an inbound transport frame throws is what its response handler throws. -/
theorem handleIncoming_response {t : Transport} {connId : ConnId} {payload : JsVal}
    {thrown : Option JsError} (h : (t.handleIncoming connId payload).2 = .response thrown) :
    Transport.isRes payload ∧ thrown = (t.handleResponse payload).2 := by
  unfold Transport.handleIncoming at h
  dsimp only at h
  split_ifs at h with hobj hreq hres hntf
  · cases h
    exact ⟨⟨by simpa using hobj, hres⟩, rfl⟩

theorem handleResponse_throws_iff {t : Transport} {msg : JsVal} :
    (t.handleResponse msg).2 = none ↔
      ∀ id p, t.pendingFor msg = some (id, p) → JsVal.truthy (msg.field (js "ok")) = false →
        ∃ text, (Transport.errorArgument (msg.field (js "body"))).toStr = .ok text := by
  unfold Transport.handleResponse
  cases hfor : t.pendingFor msg with
  | none => exact iff_of_true rfl fun id p h => by cases h
  | some found =>
      obtain ⟨id, p⟩ := found
      dsimp only
      split
      · rename_i hok
        refine iff_of_true rfl fun id' p' _ hnot => ?_
        rw [hok] at hnot
        cases hnot
      · rename_i hok
        cases htext : (Transport.errorArgument (msg.field (js "body"))).toStr with
        | error e =>
            refine iff_of_false (by simp) fun h => ?_
            obtain ⟨text, h⟩ := h id p rfl (Bool.eq_false_iff.mpr hok)
            cases h
        | ok text => exact iff_of_true rfl fun _ _ _ _ => ⟨text, rfl⟩

theorem handleAxonaFrame_returns_iff {ncfg : NodeConfig} {k : Kernel} {n : Node}
    {isConnOpen : ConnId → Bool} {connId : ConnId} {payload : JsVal} :
    (n.handleAxonaFrame ncfg k isConnOpen connId payload).2.2 = none ↔
      (Transport.isRes payload → ∀ id p, n.transport.pendingFor payload = some (id, p) →
        JsVal.truthy (payload.field (js "ok")) = false →
          ∃ text, (Transport.errorArgument (payload.field (js "body"))).toStr = .ok text) := by
  have hres : Transport.isRes payload →
      (n.transport.handleIncoming connId payload).2 =
        .response (n.transport.handleResponse payload).2 := by
    intro h
    have hne : js "res" ≠ js "req" := by decide
    simp [Transport.handleIncoming, h.1, h.2, hne]
  by_cases h : Transport.isRes payload
  · rw [forall_prop_of_true h, ← handleResponse_throws_iff]
    simp [Node.handleAxonaFrame, hres h]
  · refine iff_of_true ?_ fun hres => absurd hres h
    unfold Node.handleAxonaFrame
    dsimp only
    split
    · rfl
    · rename_i thrown hresp
      exact absurd (handleIncoming_response hresp).1 h
    · rfl
    · rfl

theorem onAxona_returns_iff {id : ConnId} {msg : JsVal} :
    (s.onAxona cfg io id msg).2 = none ↔
      ∀ payload, msg.field (js "payload") = some payload → Transport.isRes payload →
        ∀ id p, s.node.transport.pendingFor payload = some (id, p) →
          JsVal.truthy (payload.field (js "ok")) = false →
            ∃ text, (Transport.errorArgument (payload.field (js "body"))).toStr = .ok text := by
  unfold onAxona
  cases hpayload : msg.field (js "payload") with
  | none => exact iff_of_true rfl fun payload h => by cases h
  | some payload =>
      dsimp only
      split
      · rw [handleAxonaFrame_returns_iff]
        constructor
        · rintro h payload' h'
          cases h'
          exact h
        · exact fun h => h payload rfl
      · rename_i hobj
        refine iff_of_true rfl fun payload' h' hres => ?_
        cases h'
        exact absurd hres.1 hobj

theorem onFrame_returns_iff {id : ConnId} {conn : Conn} {msg : JsVal} :
    (s.onFrame cfg io id conn msg).2 = none ↔
      (cfg.logDebug = true → ∀ type, msg.field (js "type") = some type → type.hasBigInt = false) ∧
      (JsVal.asString (msg.field (js "type")) = some (js "axona") →
        (s.onAxona cfg io id msg).2 = none) := by
  have hstr : ∀ name, JsVal.asString (msg.field (js "type")) = some name →
      ∀ type, msg.field (js "type") = some type → type.hasBigInt = false := by
    intro name hname type htype
    rw [htype] at hname
    cases type with
    | str t => rfl
    | _ => cases hname
  have hne : ∀ name, JsVal.asString (msg.field (js "type")) = some name → name ≠ js "axona" →
      ((none : Option JsError) = none ↔ (cfg.logDebug = true → ∀ type,
        msg.field (js "type") = some type → type.hasBigInt = false) ∧
        (JsVal.asString (msg.field (js "type")) = some (js "axona") →
          (s.onAxona cfg io id msg).2 = none)) := by
    intro name hname hneq
    refine iff_of_true rfl ⟨fun _ => hstr name hname, fun haxona => ?_⟩
    rw [hname] at haxona
    exact absurd (Option.some.inj haxona) hneq
  unfold onFrame
  dsimp only
  split_ifs with h1 h2 h3 h4 h5
  · exact hne _ h1 (by decide)
  · exact hne _ h2 (by decide)
  · exact hne _ h3 (by decide)
  · constructor
    · exact fun h => ⟨fun _ => hstr _ h4, fun _ => h⟩
    · exact fun h => h.2 h4
  · exact hne _ h5 (by decide)
  · rw [tryLog_type_returns_iff]
    constructor
    · exact fun h => ⟨h, fun haxona => absurd haxona h4⟩
    · exact fun h => h.1

/-! ### The handler -/

theorem onMessage_returns_iff_of_ok {id : ConnId} {conn : Conn} {json : JsVal}
    (hget : s.connections.get id = some conn) :
    (s.onMessage cfg io id (.text (.ok json))).2 = none ↔ Tame cfg s conn json.revive := by
  unfold onMessage
  rw [hget]
  dsimp only
  rcases read_some (v := json.revive) (js "type") with ⟨hnull, hread⟩ | hread
  · rw [hread]
    exact iff_of_false (by simp) fun h => h.notNull hnull
  · have hnotNull : json.revive ≠ .null := fun hnull => by
      rw [hnull] at hread
      cases hread
    rw [hread]
    dsimp only
    cases hadm : conn.admitted with
    | true =>
        rw [if_pos rfl, onFrame_returns_iff, onAxona_returns_iff]
        constructor
        · rintro ⟨htype, herror⟩
          exact ⟨hnotNull, htype, fun h => absurd (hadm.symm.trans h) (by simp), fun _ => herror⟩
        · exact fun h => ⟨h.typeLogged, h.errorText hadm⟩
    | false =>
        rw [if_neg (by simp)]
        split
        · rename_i hhello
          rw [tryLog_type_returns_iff]
          constructor
          · intro htype
            exact ⟨hnotNull, htype, fun _ h => absurd h hhello,
              fun h => absurd (hadm.symm.trans h) (by simp)⟩
          · exact fun h => h.typeLogged
        · rename_i hhello
          rw [not_not] at hhello
          rw [onClientHello_returns_iff]
          constructor
          · intro hwire
            refine ⟨hnotNull, fun _ type htype => ?_, fun _ _ => hwire,
              fun h => absurd (hadm.symm.trans h) (by simp)⟩
            rw [htype] at hhello
            cases type with
            | str t => rfl
            | _ => cases hhello
          · exact fun h => h.wireLogged hadm hhello

/-- **Text frames.** The message handler returns from a text frame exactly when the frame is no JSON
or its document is tame. -/
theorem onMessage_returns_iff (cfg : Config) (io : Io) (s : Server) (id : ConnId)
    (parsed : Except JsString JsVal) :
    (s.onMessage cfg io id (.text parsed)).2 = none ↔
      ∀ conn json, s.connections.get id = some conn → parsed = .ok json →
        Tame cfg s conn json.revive := by
  cases hget : s.connections.get id with
  | none =>
      refine iff_of_true ?_ fun conn json h => by cases h
      simp [onMessage, hget]
  | some conn =>
      cases parsed with
      | error err =>
          refine iff_of_true ?_ fun conn json _ h => by cases h
          simp [onMessage, hget]
      | ok json =>
          rw [onMessage_returns_iff_of_ok hget]
          constructor
          · rintro h conn' json' hconn hjson
            cases hconn
            cases hjson
            exact h
          · exact fun h => h conn json rfl rfl

/-- One connection opens. -/
def opened : List (Io × Event) := [({}, .connect (js "c1"))]

theorem valid_opened : (Bridge.system plain false).Valid (Bridge.system plain false).init opened := by
  refine ⟨?_, trivial⟩
  change js "c1" = mintConnId 1
  decide +kernel

/-- The document `null`, on a connection that has just been opened, makes the handler throw. -/
theorem not_onMessage_returns_null :
    ∃ b, (Bridge.system plain false).Reachable b ∧
      (b.server.onMessage plain {} (js "c1") (.text (.ok .null))).2 ≠ none := by
  refine ⟨_, ⟨opened, valid_opened, rfl⟩, fun h => ?_⟩
  cases h

end Server

end AxonaBridge
