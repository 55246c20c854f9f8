import AxonaBridge.BridgeSession

/-!
# The echo of pings

A ping is how a client measures its way to the bridge and says that it is there. In any run the pongs a
connection has had are those of the pings it sent, each once and in the order they were sent, but for the
pings it was released on and those a pong cannot carry.
-/

open JsText

namespace AxonaBridge

/-- What a pong echoes. -/
def Frame.echo : Frame → Option (Option JsVal)
  | .pong t _ => some t
  | _ => none

theorem Frame.eq_of_echo {frame : Frame} {t : Option JsVal} (h : frame.echo = some t) :
    ∃ serverT, frame = .pong t serverT := by
  cases frame with
  | pong t' serverT =>
      cases h
      exact ⟨serverT, rfl⟩
  | _ => cases h

namespace Server

variable {cfg : Config} {io : Io} {s u : Server} {id : ConnId} {conn : Conn} {json : JsVal}

/-- What the pongs of a connection echo, in the order they came. -/
def echoesTo (s : Server) (connId : ConnId) : List (Option JsVal) :=
  (s.framesTo connId).filterMap Frame.echo

/-- Rule 4 releases an admitted connection on a frame. -/
def releasesOn (cfg : Config) (io : Io) (s : Server) (id : ConnId) (conn : Conn) (msg : JsVal) : Bool :=
  (reportedMeshBound msg).any fun m =>
    ReleaseDue cfg io s id { conn with meshBound := some m, meshBoundAt := io.now }

/-- What the pong to a ping that a connection is not released on echoes; there is none for a `BigInt`. -/
def echoOf (cfg : Config) (io : Io) (s : Server) (id : ConnId) : Event → Option (Option JsVal)
  | .message sender (.text (.ok json)) =>
      (s.connections.get id).bind fun conn =>
        if sender = id ∧ conn.admitted = true ∧
            JsVal.asString (json.revive.field (js "type")) = some (js "ping") ∧
            s.releasesOn cfg io id conn json.revive = false ∧
            (json.revive.field (js "t")).any JsVal.hasBigInt = false then some (json.revive.field (js "t"))
        else none
  | _ => none

theorem echoOf_of_receives (h : Receives s id conn json (js "ping")) :
    s.echoOf cfg io id (.message id (.text (.ok json))) =
      if s.releasesOn cfg io id conn json.revive = false ∧
          (json.revive.field (js "t")).any JsVal.hasBigInt = false then some (json.revive.field (js "t"))
      else none := by
  unfold echoOf
  dsimp only
  rw [h.get, Option.bind_some]
  by_cases hecho : s.releasesOn cfg io id conn json.revive = false ∧
      (json.revive.field (js "t")).any JsVal.hasBigInt = false
  · rw [if_pos ⟨rfl, h.admitted, h.type, hecho⟩, if_pos hecho]
  · rw [if_neg fun hall => hecho hall.2.2.2, if_neg hecho]

/-- Only a ping is echoed. -/
theorem receives_of_echoOf {e : Event} {t : Option JsVal} (h : s.echoOf cfg io id e = some t) :
    ∃ conn json, e = .message id (.text (.ok json)) ∧ Receives s id conn json (js "ping") := by
  unfold echoOf at h
  split at h
  · rename_i sender json
    obtain ⟨conn, hget, h⟩ := Option.bind_eq_some_iff.mp h
    split_ifs at h with hall
    exact ⟨conn, json, by rw [hall.1], hget, hall.2.1, hall.2.2.1⟩
  · cases h

theorem Says.of_pong {A : ConnId → Prop} {e : Event} {t : Option JsVal} {serverT : Int}
    (h : Says cfg io A s e id (.pong t serverT)) :
    ∃ conn json, e = .message id (.text (.ok json)) ∧ Receives s id conn json (js "ping") := by
  cases h with
  | pong hreceives => exact ⟨_, _, rfl, hreceives⟩

theorem echoesTo_of_hears {frames : List Frame} (h : Hears id s u frames) :
    u.echoesTo id = s.echoesTo id ++ frames.filterMap Frame.echo := by
  unfold echoesTo
  rw [h, List.filterMap_append]

theorem echoesTo_of_quiet (h : Emits (fun _ _ => False) s u) : u.echoesTo id = s.echoesTo id := by
  have hnone := echoesTo_of_hears (hears_nil (h.mono fun recipient _ hfalse =>
    show recipient ≠ id from hfalse.elim))
  rw [hnone, List.filterMap_nil, List.append_nil]

theorem emits_releaseSocket {P : ConnId → Frame → Prop} (id : ConnId) (c : Conn) :
    Emits P s (s.releaseSocket cfg io id c) := by
  unfold releaseSocket
  dsimp only
  refine Emits.trans ?_ (emits_logInfo _ _)
  refine Emits.trans ?_ (emits_logDebug _ _)
  refine Emits.congr_right rfl ?_
  exact Emits.trans (emits_wsClose id graduated _) (emits_noteGraduated _)

/-- The pong itself. -/
theorem echoesTo_sendPong (hsend : io.sendError id = none) (msg : JsVal) :
    (s.sendPong cfg io id msg).echoesTo id = s.echoesTo id ++
      (if (msg.field (js "t")).any JsVal.hasBigInt = false then [msg.field (js "t")] else []) := by
  unfold sendPong
  dsimp only
  cases hbig : (msg.field (js "t")).any JsVal.hasBigInt with
  | true =>
      rw [if_pos rfl, if_neg (by decide), List.append_nil]
      exact echoesTo_of_quiet (@emits_logErr cfg _ _ _ _)
  | false =>
      rw [if_neg (by decide), if_pos rfl]
      have hsent : s.wsSend io id (.pong (msg.field (js "t")) io.now) =
          (true, { s with out := s.out ++ [.frame id (.pong (msg.field (js "t")) io.now)] }) := by
        unfold wsSend
        rw [hsend]
        rfl
      rw [hsent, if_pos rfl]
      have hheard : Hears id s { s with out := s.out ++ [.frame id (.pong (msg.field (js "t")) io.now)] }
          [.pong (msg.field (js "t")) io.now] := by
        unfold Hears framesTo
        rw [List.filterMap_append]
        exact congrArg _ (List.filterMap_cons_some (if_pos rfl))
      rw [echoesTo_of_quiet (Emits.trans (emits_modifyConn id _) (emits_logDebug _ _)),
        echoesTo_of_hears hheard]
      rfl

/-- A ping is echoed or its connection released. -/
theorem echoesTo_of_receives (h : Receives s id conn json (js "ping")) (hsend : io.sendError id = none) :
    (s.onMessage cfg io id (.text (.ok json))).1.echoesTo id = s.echoesTo id ++
      (s.echoOf cfg io id (.message id (.text (.ok json)))).toList := by
  have hping : (s.onMessage cfg io id (.text (.ok json))).1 =
      (s.modifyConn id fun _ => { conn with lastSeenAt := io.now }).onPing cfg io id json.revive := by
    refine (onMessage_of_receives h).trans ?_
    unfold onFrame
    dsimp only
    rw [h.type]
    rfl
  obtain ⟨t, hout, -, -, hcase⟩ := @onPing_cases cfg io
    (s.modifyConn id fun _ => { conn with lastSeenAt := io.now }) id _ (get_heard h.get) json.revive
  have hbefore : t.echoesTo id = s.echoesTo id := echoesTo_of_quiet (Emits.of_out_eq hout)
  -- the stamp of the ping's arrival is nothing rule 4 looks at
  have hdue : ∀ m, ReleaseDue cfg io (s.modifyConn id fun _ => { conn with lastSeenAt := io.now }) id
      { { conn with lastSeenAt := io.now } with meshBound := some m, meshBoundAt := io.now } ↔
        ReleaseDue cfg io s id { conn with meshBound := some m, meshBoundAt := io.now } := fun m => Iff.rfl
  rw [hping, echoOf_of_receives h]
  rcases hcase with ⟨m, hm, hrelease, c, heq⟩ | ⟨hkept, heq⟩
  · have hreleases : s.releasesOn cfg io id conn json.revive = true := by
      unfold releasesOn
      rw [hm]
      exact decide_eq_true ((hdue m).mp hrelease)
    rw [heq, echoesTo_of_quiet (emits_releaseSocket id c), hbefore, hreleases,
      if_neg fun h => Bool.noConfusion h.1, Option.toList_none, List.append_nil]
  · have hnot : s.releasesOn cfg io id conn json.revive = false := by
      unfold releasesOn
      cases hm : reportedMeshBound json.revive with
      | none => rfl
      | some m => exact decide_eq_false fun hyes => hkept m hm ((hdue m).mpr hyes)
    rw [heq, echoesTo_sendPong hsend, hbefore, hnot]
    cases (json.revive.field (js "t")).any JsVal.hasBigInt <;> rfl

end Server

namespace Bridge

variable {cfg : Config} {b : Bridge} {e : Io × Event} {id : ConnId}

/-- What the pong a step sends a connection echoes. -/
def echoed (cfg : Config) (id : ConnId) (b : Bridge) (e : Io × Event) : Option (Option JsVal) :=
  b.server.echoOf cfg e.1 id e.2

theorem echoesTo_step (hb : b.Tracked) (he : b.Enabled cfg e) (hsend : e.1.SendsReturn) :
    (b.step cfg e).server.echoesTo id = b.server.echoesTo id ++ (echoed cfg id b e).toList := by
  by_cases hping : ∃ conn json, e.2 = .message id (.text (.ok json)) ∧
      Server.Receives b.server id conn json (js "ping")
  · obtain ⟨conn, json, hmessage, hreceives⟩ := hping
    unfold echoed
    rw [server_step_of_event hmessage, hmessage]
    exact Server.echoesTo_of_receives hreceives (hsend id)
  · -- no other event sends a pong
    have hnot : echoed cfg id b e = none := by
      cases hecho : echoed cfg id b e with
      | none => rfl
      | some t => exact absurd (Server.receives_of_echoOf hecho) hping
    obtain ⟨frames, hheard, hframes⟩ := Server.exists_hears (says_known hb he) id
    have hnone : frames.filterMap Frame.echo = [] := by
      refine List.filterMap_eq_nil_iff.mpr fun frame hmem => ?_
      cases hecho : frame.echo with
      | none => rfl
      | some t =>
          obtain ⟨serverT, rfl⟩ := Frame.eq_of_echo hecho
          exact absurd (hframes _ hmem).1.of_pong hping
    rw [Server.echoesTo_of_hears hheard, hnone, hnot, Option.toList_none]

/-- **The echo.** In every run in which sends return, what the pongs of a connection echo is what the
pings it sent carry, each once and in the order they were sent, but for the pings that it was released on
or that carry a `BigInt`. -/
theorem echo_in_order (cfg : Config) (reportBound : Bool) (es : List (Io × Event))
    (hes : (system cfg reportBound).Valid (init cfg reportBound) es)
    (hsend : ∀ e ∈ es, e.1.SendsReturn) (id : ConnId) :
    ((system cfg reportBound).after (init cfg reportBound) es).server.echoesTo id =
      (system cfg reportBound).trace (echoed cfg id) (init cfg reportBound) es := by
  revert hsend
  refine System.Valid.history (P := fun es => (∀ e ∈ es, e.1.SendsReturn) →
    ((system cfg reportBound).after (init cfg reportBound) es).server.echoesTo id =
      (system cfg reportBound).trace (echoed cfg id) (init cfg reportBound) es) (fun _ => rfl) ?_ hes
  intro es e hes he ih hsend
  have hstep := @echoesTo_step cfg _ e id (tracked_of_valid hes) he
    (hsend e (List.mem_append_right _ List.mem_cons_self))
  rw [System.trace_snoc, System.after_append, ← ih fun e' hmem => hsend e' (List.mem_append_left _ hmem)]
  exact hstep

/-- Two pings, of which the second cannot be echoed. -/
def pingedTwice : List (Io × Event) :=
  twoAdmitted ++ [({ now := 5 }, .message (js "c1") (.text (.ok (ping (.str (js "x")))))),
    ({ now := 6 }, .message (js "c1") (.text (.ok (ping (.str (js "5n"))))))]

theorem echo_in_order_pingedTwice :
    ((system Server.plain false).after (init Server.plain false) pingedTwice).server.echoesTo (js "c1") =
      (system Server.plain false).trace (echoed Server.plain (js "c1")) (init Server.plain false)
        pingedTwice := by
  refine echo_in_order Server.plain false pingedTwice (valid_of_openRun (by decide +kernel)) ?_ (js "c1")
  intro e hmem connId
  simp only [pingedTwice, twoAdmitted, List.cons_append, List.nil_append, List.mem_cons,
    List.not_mem_nil, or_false] at hmem
  rcases hmem with rfl | rfl | rfl | rfl | rfl | rfl <;> rfl

end Bridge

end AxonaBridge
