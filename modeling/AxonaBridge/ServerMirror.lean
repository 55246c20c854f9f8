import AxonaBridge.SelectRename
import AxonaBridge.ServerScope

/-!
# The server without some of its connections

`Mirrors f V s t` says that `t` is the server `s` without the connections outside `V`, under the
numbering `f`, up to what is not sent to anybody: rows of the log and closes. Where only connections
of `V` are admitted, every operation on a connection of `V` is mirrored by the same operation.
-/

open JsText

namespace AxonaBridge

variable {rid : ConnId}

def Frame.rename (f : Renumbering rid) : Frame → Frame
  | .welcome connId serverT version kernelVersion serverNonce credential =>
      .welcome (f connId) serverT version kernelVersion serverNonce credential
  | .peerList peers graduated serverT => .peerList (peers.map f) graduated serverT
  | .peerJoined peerId serverT => .peerJoined (f peerId) serverT
  | .peerLeft peerId nodeId serverT => .peerLeft (f peerId) nodeId serverT
  | .signal sender payload => .signal (f sender) payload
  | other => other

/-- A frame that was sent, with its recipient. -/
def Out.sent : Out → Option (ConnId × Frame)
  | .frame connId msg => some (connId, msg)
  | _ => none

/-- A frame that was sent to a connection of `V`, under the numbering `f`. -/
def Out.heard (f : Renumbering rid) (V : List ConnId) : Out → Option (ConnId × Frame)
  | .frame connId msg => if connId ∈ V then some (f connId, msg.rename f) else none
  | _ => none

/-- What one event is answered, where the connections of `V` are renumbered. -/
structure Io.Renames (f : Renumbering rid) (V : List ConnId) (io io' : Io) : Prop where
  now : io'.now = io.now
  sendError : ∀ connId ∈ V, io'.sendError (f connId) = io.sendError connId
  nonce : io'.nonce = io.nonce
  turnToken : io'.turnToken = io.turnToken
  draws : io'.draws = io.draws
  kernel : io'.kernel = io.kernel

namespace Server

/-- The frames sent to connections of `V` so far, in their order and under the numbering `f`. -/
def heard (f : Renumbering rid) (V : List ConnId) (s : Server) : List (ConnId × Frame) :=
  s.out.filterMap (Out.heard f V)

/-- `t` is `s` without the connections outside `V`, under the numbering `f`. -/
inductive Mirrors (f : Renumbering rid) (V : List ConnId) (s : Server) : Server → Prop
  | intro {out : List Out} (heard : out.filterMap Out.sent = s.heard f V)
      (within : ∀ connId, s.IsAdmitted connId → connId ∈ V) :
      Mirrors f V s { s with
        connections := (s.connections.keep V).rename f.toEmbedding id
        node := s.node.rename f
        out }

namespace Mirrors

variable {cfg : Config} {f : Renumbering rid} {V : List ConnId} {io io' : Io} {s t : Server}
  (h : Mirrors f V s t)

include h

/-! ### Reading the table -/

theorem within {connId : ConnId} (hadm : s.IsAdmitted connId) : connId ∈ V := by
  cases h with
  | intro hout hV => exact hV connId hadm

theorem within_of_get {connId : ConnId} {conn : Conn} (hget : s.connections.get connId = some conn)
    (hadm : conn.admitted = true) : connId ∈ V := h.within ⟨conn, hget, hadm⟩

theorem node : t.node = s.node.rename f := by
  cases h with
  | intro hout hV => rfl

theorem registry : t.registry = s.registry := by
  cases h with
  | intro hout hV => rfl

theorem get {connId : ConnId} (hid : connId ∈ V) :
    t.connections.get (f connId) = s.connections.get connId := by
  cases h with
  | intro hout hV =>
      have hget := JsMap.get_rename (f := f.toEmbedding) (g := id) (s.connections.keep V) connId
      rw [Option.map_id_apply, JsMap.get_keep, if_pos hid] at hget
      exact hget

theorem get_of_not_mem {connId : ConnId} (hid : connId ∉ V) : t.connections.get (f connId) = none := by
  cases h with
  | intro hout hV =>
      have hget := JsMap.get_rename (f := f.toEmbedding) (g := id) (s.connections.keep V) connId
      rw [Option.map_id_apply, JsMap.get_keep, if_neg hid] at hget
      exact hget

theorem has {connId : ConnId} (hid : connId ∈ V) :
    t.connections.has (f connId) = s.connections.has connId := by
  rw [JsMap.has, JsMap.has, h.get hid]

theorem entries : t.connections.entries =
    (s.connections.keep V).entries.map fun e => (f e.1, e.2) := by
  cases h with
  | intro hout hV => rfl

/-- A test that only admitted connections pass finds the same ones. -/
theorem filter_entries {p p' : ConnId × Conn → Bool} (hp : ∀ e, p e = true → e.2.admitted = true)
    (hp' : ∀ e, p' (f e.1, e.2) = p e) :
    t.connections.entries.filter p' = (s.connections.entries.filter p).map fun e => (f e.1, e.2) := by
  rw [h.entries, List.filter_map, JsMap.keep, JsMap.filter, List.filter_filter]
  congr 1
  refine List.filter_congr fun e he => ?_
  rw [Function.comp_apply, hp']
  cases htest : p e with
  | false => rfl
  | true =>
      have hid : e.1 ∈ V := h.within_of_get (JsMap.mem_entries_iff.mp he) (hp e htest)
      simp [hid]

theorem connNodeHex (connId : ConnId) : t.connNodeHex (f connId) = s.connNodeHex connId := by
  unfold Server.connNodeHex
  rw [h.node, show (s.node.rename f).transport = s.node.transport.rename f from rfl,
    Transport.get_nodeIdByConnId_rename]

theorem connRegion (connId : ConnId) : t.connRegion (f connId) = s.connRegion connId := by
  unfold Server.connRegion
  rw [h.connNodeHex]

/-! ### What nobody is sent -/

omit h in
theorem filterMap_append {o : Out} (ho : o.sent = none) (out : List Out) :
    (out ++ [o]).filterMap Out.sent = out.filterMap Out.sent := by
  rw [List.filterMap_append, List.filterMap_cons_none ho, List.filterMap_nil, List.append_nil]

omit h in
theorem heard_append {o : Out} (ho : o.sent = none) (out : List Out) :
    (out ++ [o]).filterMap (Out.heard f V) = out.filterMap (Out.heard f V) := by
  have hnone : o.heard f V = none := by
    cases o with
    | frame connId frame => cases ho
    | _ => rfl
  rw [List.filterMap_append, List.filterMap_cons_none hnone, List.filterMap_nil, List.append_nil]

theorem append_left {o : Out} (ho : o.sent = none) : Mirrors f V { s with out := s.out ++ [o] } t := by
  cases h with
  | intro hout hV => exact ⟨hout.trans (heard_append ho s.out).symm, hV⟩

theorem append_right {o : Out} (ho : o.sent = none) : Mirrors f V s { t with out := t.out ++ [o] } := by
  cases h with
  | intro hout hV => exact ⟨(filterMap_append ho _).trans hout, hV⟩

theorem log_left (row : LogRow) : Mirrors f V (s.log cfg row) t := by
  unfold log
  split
  · exact h
  · exact h.append_left rfl

theorem log_right (row : LogRow) : Mirrors f V s (t.log cfg row) := by
  unfold log
  split
  · exact h
  · exact h.append_right rfl

theorem logInfo (event event' : JsString) (fields fields' : List (JsString × LogVal)) :
    Mirrors f V (s.logInfo cfg event fields) (t.logInfo cfg event' fields') :=
  (h.log_left _).log_right _

theorem logErr (event event' : JsString) (fields fields' : List (JsString × LogVal)) :
    Mirrors f V (s.logErr cfg event fields) (t.logErr cfg event' fields') :=
  (h.log_left _).log_right _

theorem logDebug (event event' : JsString) (fields fields' : List (JsString × LogVal)) :
    Mirrors f V (s.logDebug cfg event fields) (t.logDebug cfg event' fields') :=
  (h.log_left _).log_right _

theorem tryLog_left (level : LogLevel) (event : JsString) (fields : List (JsString × JsVal)) :
    Mirrors f V (s.tryLog cfg level event fields).1 t := by
  unfold tryLog
  split
  · exact h
  · split
    · exact h.log_left _
    · exact h

theorem tryLog_right (level : LogLevel) (event : JsString) (fields : List (JsString × JsVal)) :
    Mirrors f V s (t.tryLog cfg level event fields).1 := by
  unfold tryLog
  split
  · exact h
  · split
    · exact h.log_right _
    · exact h

theorem wsClose_left (connId : ConnId) (code : Nat) (reason : JsString) :
    Mirrors f V (s.wsClose io connId code reason) t := h.append_left rfl

theorem wsClose_right (connId : ConnId) (code : Nat) (reason : JsString) :
    Mirrors f V s (t.wsClose io connId code reason) := h.append_right rfl

theorem wsClose (connId connId' : ConnId) (code code' : Nat) (reason reason' : JsString) :
    Mirrors f V (s.wsClose io connId code reason) (t.wsClose io' connId' code' reason') :=
  (h.wsClose_left _ _ _).wsClose_right _ _ _

theorem refuse_left (connId : ConnId) (r : Refusal) : Mirrors f V (s.refuse cfg io connId r).1 t := by
  have hlog : Mirrors f V (s.tryLog cfg .error r.event r.fields).1 t := h.tryLog_left _ _ _
  unfold refuse
  split
  · rename_i s' e heq
    rwa [heq] at hlog
  · rename_i s' heq
    rw [heq] at hlog
    split
    · exact hlog
    · exact hlog.wsClose_left _ _ _

theorem refuse_right (connId : ConnId) (r : Refusal) : Mirrors f V s (t.refuse cfg io connId r).1 := by
  have hlog : Mirrors f V s (t.tryLog cfg .error r.event r.fields).1 := h.tryLog_right _ _ _
  unfold refuse
  split
  · rename_i s' e heq
    rwa [heq] at hlog
  · rename_i s' heq
    rw [heq] at hlog
    split
    · exact hlog
    · exact hlog.wsClose_right _ _ _

/-! ### Changing a connection -/

theorem modifyConn {connId : ConnId} (hid : connId ∈ V) (g : Conn → Conn) :
    Mirrors f V (s.modifyConn connId g) (t.modifyConn (f connId) g) := by
  cases h with
  | intro hout hV =>
      have htable : ((s.connections.keep V).rename f.toEmbedding id).modify (f connId) g =
          ((s.connections.modify connId g).keep V).rename f.toEmbedding id := by
        rw [JsMap.keep_modify_of_mem hid]
        exact JsMap.modify_rename (g := id) (h := g) (fun _ => rfl) (s.connections.keep V) connId
      unfold Server.modifyConn
      dsimp only
      rw [htable]
      refine ⟨hout, fun c hadm => ?_⟩
      obtain ⟨conn, hget, hadm⟩ := hadm
      rw [JsMap.get_modify] at hget
      split at hget
      · rename_i heq
        exact heq ▸ hid
      · exact hV c ⟨conn, hget, hadm⟩

/-- A connection that is not mirrored changes unseen, as long as it is not admitted. -/
theorem modifyConn_left {connId : ConnId} (hid : connId ∉ V) {g : Conn → Conn}
    (hg : ∀ conn, s.connections.get connId = some conn → (g conn).admitted = false) :
    Mirrors f V (s.modifyConn connId g) t := by
  have hadmitted : ∀ c, (s.modifyConn connId g).IsAdmitted c → c ∈ V := by
    rintro c ⟨conn, hget, hadm⟩
    rw [get_modifyConn] at hget
    split at hget
    · obtain ⟨conn', hget', rfl⟩ := Option.map_eq_some_iff.mp hget
      rw [hg conn' hget'] at hadm
      cases hadm
    · exact h.within ⟨conn, hget, hadm⟩
  cases h with
  | intro hout hV =>
      have hmirror := Mirrors.intro (s := s.modifyConn connId g) hout hadmitted
      unfold Server.modifyConn at hmirror ⊢
      dsimp only at hmirror
      rwa [JsMap.keep_modify_of_not_mem hid] at hmirror

/-- A change of what is neither the table, the node nor the output, in view of none of them. -/
theorem update {g : Server → Server} (hg : ∀ (s : Server) connections node out,
    g { s with connections, node, out } = { g s with connections, node, out }) :
    Mirrors f V (g s) (g t) := by
  have hself : g s = { g s with connections := s.connections, node := s.node, out := s.out } :=
    hg s s.connections s.node s.out
  have htable : (g s).connections = s.connections := by rw [hself]
  have hnode : (g s).node = s.node := by rw [hself]
  have hsent : (g s).out = s.out := by rw [hself]
  cases h with
  | @intro out hout hV =>
      have hmirror := Mirrors.intro (f := f) (V := V) (s := g s) (show out.filterMap Out.sent = (g s).heard f V from ?_) ?_
      · rw [htable, hnode] at hmirror
        rw [hg s ((s.connections.keep V).rename f.toEmbedding id) (s.node.rename f) out]
        exact hmirror
      · unfold Server.heard
        rw [hsent]
        exact hout
      · rintro c ⟨conn, hget, hadm⟩
        rw [htable] at hget
        exact hV c ⟨conn, hget, hadm⟩

/-! ### Sending -/

theorem wsSend (hio : io.Renames f V io') {connId : ConnId} (hid : connId ∈ V) (frame : Frame) :
    (t.wsSend io' (f connId) (frame.rename f)).1 = (s.wsSend io connId frame).1 ∧
      Mirrors f V (s.wsSend io connId frame).2 (t.wsSend io' (f connId) (frame.rename f)).2 := by
  unfold Server.wsSend
  rw [hio.sendError connId hid]
  split
  · exact ⟨rfl, h⟩
  · refine ⟨rfl, ?_⟩
    cases h with
    | intro hout hV =>
        refine ⟨?_, hV⟩
        unfold Server.heard
        rw [List.filterMap_append, List.filterMap_append, hout]
        simp [Server.heard, Out.sent, Out.heard, hid]

theorem wsSend_left {connId : ConnId} (hid : connId ∉ V) (frame : Frame) :
    Mirrors f V (s.wsSend io connId frame).2 t := by
  unfold Server.wsSend
  split
  · exact h
  · cases h with
    | intro hout hV =>
        refine ⟨?_, hV⟩
        unfold Server.heard
        rw [List.filterMap_append, hout]
        simp [Server.heard, Out.heard, hid]

theorem sendFailed_left (event : JsString) (connId : ConnId) (frame : Frame) :
    Mirrors f V (s.sendFailed cfg io event connId frame) t := by
  unfold Server.sendFailed Server.logErr
  exact h.log_left _

theorem sendFailed (event event' : JsString) (connId connId' : ConnId) (frame frame' : Frame) :
    Mirrors f V (s.sendFailed cfg io event connId frame)
      (t.sendFailed cfg io' event' connId' frame') := h.logErr _ _ _ _

variable (cfg) in
/-- To a connection of `V` the same frame goes out or does not. -/
theorem sendTo (hio : io.Renames f V io') {connId : ConnId} (hid : connId ∈ V) (frame : Frame) :
    (t.sendTo cfg io' (f connId) (frame.rename f)).1 = (s.sendTo cfg io connId frame).1 ∧
      Mirrors f V (s.sendTo cfg io connId frame).2
        (t.sendTo cfg io' (f connId) (frame.rename f)).2 := by
  obtain ⟨hsent, hsend⟩ := h.wsSend hio hid frame
  unfold Server.sendTo
  rw [h.has hid]
  split
  · exact ⟨rfl, h⟩
  · dsimp only
    rw [hsent]
    split
    · exact ⟨hsent, hsend⟩
    · refine ⟨rfl, ?_⟩
      dsimp only
      exact hsend.sendFailed _ _ _ _ _ _

theorem sendTo_left {connId : ConnId} (hid : connId ∉ V) (frame : Frame) :
    Mirrors f V (s.sendTo cfg io connId frame).2 t := by
  unfold Server.sendTo
  split
  · exact h
  · dsimp only
    split
    · exact h.wsSend_left hid frame
    · dsimp only
      exact (h.wsSend_left hid frame).sendFailed_left _ _ _

theorem sendTo_right {connId : ConnId} (hid : connId ∉ V) (frame : Frame) :
    Mirrors f V s (t.sendTo cfg io (f connId) frame).2 := by
  have hhas : t.connections.has (f connId) = false := by rw [JsMap.has, h.get_of_not_mem hid]; rfl
  unfold Server.sendTo
  rw [hhas]
  exact h

/-- Whatever the connection, what is sent to it is mirrored. -/
theorem sendTo_any (hio : io.Renames f V io') (connId : ConnId) (frame : Frame) :
    Mirrors f V (s.sendTo cfg io connId frame).2 (t.sendTo cfg io' (f connId) (frame.rename f)).2 := by
  by_cases hid : connId ∈ V
  · exact (h.sendTo cfg hio hid frame).2
  · exact (h.sendTo_left hid frame).sendTo_right hid _

/-! ### Broadcasts -/

omit h in
theorem broadcastOne (hio : io.Renames f V io') (msg : Frame) (exceptId : Option ConnId)
    {e : ConnId × Conn} (he : e.1 ∈ V) {acc acc' : Nat × Server} (h : Mirrors f V acc.2 acc'.2) :
    Mirrors f V (broadcastOne cfg io msg exceptId acc e).2
      (broadcastOne cfg io' (msg.rename f) (exceptId.map f) acc' (f e.1, e.2)).2 := by
  have hexcept : some (f e.1) = exceptId.map f ↔ some e.1 = exceptId := by
    cases exceptId with
    | none => simp
    | some c => simp [f.inj]
  obtain ⟨hsent, hsend⟩ := h.wsSend hio he msg
  unfold Server.broadcastOne
  simp only [hexcept]
  split
  · exact h
  · simp only [hsent]
    split
    · exact hsend
    · dsimp only
      exact hsend.sendFailed _ _ _ _ _ _

/-- A broadcast reaches admitted connections only. -/
theorem broadcast (hio : io.Renames f V io') (msg : Frame) (exceptId : Option ConnId) :
    Mirrors f V (s.broadcast cfg io msg exceptId).2
      (t.broadcast cfg io' (msg.rename f) (exceptId.map f)).2 := by
  have hfold : ∀ (p : ConnId × Conn → Bool) (es : List (ConnId × Conn)),
      (∀ e, p e = true ↔ e.1 ∈ V) → (∀ e ∈ es, e.2.admitted = true → e.1 ∈ V) →
      ∀ acc acc' : Nat × Server, Mirrors f V acc.2 acc'.2 →
        Mirrors f V (es.foldl (Server.broadcastOne cfg io msg exceptId) acc).2
          (((es.filter p).map fun e => (f e.1, e.2)).foldl
            (Server.broadcastOne cfg io' (msg.rename f) (exceptId.map f)) acc').2 := by
    intro p es hp
    induction es with
    | nil => exact fun _ acc acc' h => h
    | cons e es ih =>
        intro hes acc acc' h
        have hrest := ih fun e he => hes e (List.mem_cons_of_mem _ he)
        by_cases hid : e.1 ∈ V
        · rw [List.filter_cons_of_pos ((hp e).mpr hid), List.map_cons, List.foldl_cons,
            List.foldl_cons]
          exact hrest _ _ (broadcastOne hio msg exceptId hid h)
        · rw [List.filter_cons_of_neg (mt (hp e).mp hid), List.foldl_cons]
          have hskip : Server.broadcastOne cfg io msg exceptId acc e = acc :=
            if_pos (Or.inr fun hadm => hid (hes e List.mem_cons_self hadm))
          rw [hskip]
          exact hrest acc acc' h
  rw [broadcast_eq, broadcast_eq, h.entries, JsMap.keep, JsMap.filter]
  refine hfold _ s.connections.entries (fun e => ?_) (fun e he hadm => ?_) (0, s) (0, t) h
  · simp
  · exact h.within_of_get (JsMap.mem_entries_iff.mp he) hadm

/-- A broadcast that goes out to nobody. -/
theorem broadcast_left {msg : Frame} {exceptId : Option ConnId}
    (hnobody : ∀ e ∈ s.connections.entries, some e.1 ≠ exceptId → e.2.admitted = true →
      io.sendError e.1 ≠ none) :
    Mirrors f V (s.broadcast cfg io msg exceptId).2 t := by
  rw [broadcast_eq]
  have hfold : ∀ es : List (ConnId × Conn), (∀ e ∈ es, some e.1 ≠ exceptId → e.2.admitted = true →
      io.sendError e.1 ≠ none) → ∀ acc : Nat × Server, Mirrors f V acc.2 t →
        Mirrors f V (es.foldl (Server.broadcastOne cfg io msg exceptId) acc).2 t := by
    intro es
    induction es with
    | nil => exact fun _ acc h => h
    | cons e es ih =>
        intro hes acc h
        refine ih (fun e he => hes e (List.mem_cons_of_mem _ he)) _ ?_
        unfold Server.broadcastOne
        split
        · exact h
        · rename_i hreached
          rw [not_or, not_not] at hreached
          have hfails : (io.sendError e.1).isSome = true :=
            Option.isSome_iff_ne_none.mpr (hes e List.mem_cons_self hreached.1 hreached.2)
          simp only [Server.wsSend, if_pos hfails, Bool.false_eq_true, if_false]
          exact h.sendFailed_left _ _ _
  exact hfold _ hnobody (0, s) h

/-! ### What the node asks for -/

theorem setNode (n : Node) : Mirrors f V { s with node := n } { t with node := n.rename f } := by
  cases h with
  | intro hout hV => exact ⟨hout, hV⟩

theorem perform (hio : io.Renames f V io') {o o' : NodeOut} (ho : o.Renames f o') :
    Mirrors f V (s.perform cfg io o) (t.perform cfg io' o') := by
  cases ho with
  | send connId payload => exact h.sendTo_any hio connId (.axona payload)
  | signal connId sender payload => exact h.sendTo_any hio connId (.signal sender (some payload))
  | close connId connId' reason reason' =>
      have hleft : Mirrors f V (s.perform cfg io (.close connId reason)) t := by
        unfold Server.perform
        dsimp only
        split
        · exact h.wsClose_left _ _ _
        · exact h
      generalize s.perform cfg io (.close connId reason) = s' at hleft
      unfold Server.perform
      dsimp only
      split
      · exact hleft.wsClose_right _ _ _
      · exact hleft
  | log row row' => exact (h.log_left row).log_right row'

theorem withNode (hio : io.Renames f V io') {r r' : Node × List NodeOut} (hr : Node.Renames f r r') :
    Mirrors f V (s.withNode cfg io r) (t.withNode cfg io' r') := by
  have hfold : ∀ out out' : List NodeOut, List.Forall₂ (NodeOut.Renames f) out out' →
      ∀ s t : Server, Mirrors f V s t →
        Mirrors f V (out.foldl (fun s o => s.perform cfg io o) s)
          (out'.foldl (fun s o => s.perform cfg io' o) t) := by
    intro out out' hout
    induction hout with
    | nil => exact fun s t h => h
    | cons ho _ ih => exact fun s t h => ih _ _ (h.perform hio ho)
  have hstart := h.setNode r.1
  rw [← hr.node] at hstart
  exact hfold _ _ hr.out _ _ hstart

/-! ### Introductions -/

theorem admittedOthers (id : ConnId) :
    t.admittedOthers (f id) = (s.admittedOthers id).map f := by
  unfold Server.admittedOthers
  rw [h.filter_entries (p := fun e => e.1 ≠ id && e.2.admitted)
    (fun e he => (Bool.and_eq_true_iff.mp he).2) (fun e => by simp [f.inj]), List.map_map, List.map_map]
  rfl

theorem recordIntroduction {id : ConnId} (hid : id ∈ V) (conn : Conn) (peers : List ConnId)
    (graduatedListed : Bool) :
    Mirrors f V (s.recordIntroduction cfg id conn peers graduatedListed)
      (t.recordIntroduction cfg (f id) conn (peers.map f) graduatedListed) := by
  have holder : ((peers.map f).any fun aid => (t.connections.get aid).any fun ac =>
        ac.admitted && cfg.cohortMs < conn.since - ac.since) =
      peers.any fun aid => (s.connections.get aid).any fun ac =>
        ac.admitted && cfg.cohortMs < conn.since - ac.since := by
    rw [List.any_map]
    refine List.any_congr rfl fun aid => ?_
    rw [Function.comp_apply]
    by_cases haid : aid ∈ V
    · rw [h.get haid]
    · rw [h.get_of_not_mem haid]
      cases hget : s.connections.get aid with
      | none => rfl
      | some ac =>
          have hnot : ac.admitted = false := by
            by_contra hadm
            exact haid (h.within_of_get hget (Bool.not_eq_false _ ▸ hadm))
          simp [hnot]
  unfold Server.recordIntroduction
  rw [holder]
  exact h.modifyConn hid _

variable (cfg) in
theorem graduatedSample (hio : io.Renames f V io') (id : ConnId) :
    (t.graduatedSample cfg io' (f id)).1 = (s.graduatedSample cfg io id).1 ∧
      Mirrors f V (s.graduatedSample cfg io id).2 (t.graduatedSample cfg io' (f id)).2 := by
  have hhex := h.connNodeHex id
  unfold Server.graduatedSample
  rw [hhex, h.registry, hio.now, hio.draws]
  cases s.registry with
  | none => exact ⟨rfl, h⟩
  | some registry =>
      cases cfg.graduatedSample with
      | none => exact ⟨rfl, h⟩
      | some sample =>
          refine ⟨rfl, ?_⟩
          cases h with
          | intro hout hV => exact ⟨hout, hV⟩

omit h in
theorem withReserved {f : Renumbering cfg.node.reservedId} (h : Mirrors f V s t) (conn : Conn)
    (peers : List ConnId) :
    t.withReserved cfg conn (peers.map f) = (s.withReserved cfg conn peers).map f := by
  unfold Server.withReserved
  rw [h.node, Node.reservedIdFor_rename]
  cases hid : s.node.reservedIdFor cfg.node conn.kernelVersion conn.peerVersion with
  | none => rfl
  | some own =>
      have hown : own ∈ s.withReserved cfg conn [] := by
        unfold Server.withReserved
        rw [hid]
        exact List.mem_cons_self
      rcases mem_withReserved hown with hmem | rfl
      · cases hmem
      · dsimp only
        rw [List.map_cons, f.eq_reserved_iff.mpr rfl]

theorem modifyAll {ids : List ConnId} (hids : ∀ id ∈ ids, id ∈ V) (g : Conn → Conn) :
    Mirrors f V (ids.foldl (fun s id => s.modifyConn id g) s)
      ((ids.map f).foldl (fun s id => s.modifyConn id g) t) := by
  induction ids generalizing s t with
  | nil => exact h
  | cons id ids ih =>
      exact ih (h.modifyConn (hids id List.mem_cons_self) g) fun id' hid' =>
        hids id' (List.mem_cons_of_mem _ hid')

omit h in
/-- What the anchors are selected by. -/
def anchorOptions (cfg : Config) (io : Io) (id : ConnId) (newRegion : Option JsString) :
    AnchorSelect.Options where
  newId := id
  newRegion
  now := io.now
  k := cfg.anchorK
  minUptimeMs := cfg.anchorMinUptimeMs
  minPool := cfg.anchorMinPool

omit h in
/-- What the anchors are selected from. -/
def candidates (s : Server) : List AnchorSelect.Candidate :=
  s.connections.entries.map fun e =>
    { id := e.1
      admitted := e.2.admitted
      since := e.2.since
      anchorUses := e.2.anchorUses
      region := s.connRegion e.1 }

omit h in
theorem introduce_eq (id : ConnId) (newRegion : Option JsString) :
    s.introduce cfg io id newRegion =
      if cfg.nurseryOn then
        let sel := AnchorSelect.selectAnchors (anchorOptions cfg io id newRegion) (candidates s)
        let s := sel.anchors.foldl (fun s aid =>
          s.modifyConn aid fun ac => { ac with anchorUses := ac.anchorUses + 1 }) s
        (sel.anchors, { s with
          nurseryIntros := s.nurseryIntros + 1
          nurseryFellBack := if sel.fellBack then s.nurseryFellBack + 1 else s.nurseryFellBack })
      else (s.admittedOthers id, s) := rfl

/-- The anchors come from the admitted connections. -/
theorem admitted_candidates (o : AnchorSelect.Options) :
    AnchorSelect.admitted (o.rename f) (candidates t) =
      (AnchorSelect.admitted o (candidates s)).map (AnchorSelect.Candidate.rename f) := by
  unfold AnchorSelect.admitted candidates
  rw [List.filter_map, List.filter_map,
    h.filter_entries (p := fun e => e.2.admitted && e.1 ≠ o.newId)
      (fun e he => (Bool.and_eq_true_iff.mp he).1)
      (fun e => by simp [AnchorSelect.Options.rename, f.inj]),
    List.map_map, List.map_map]
  refine List.map_congr_left fun e _ => ?_
  simp only [Function.comp_apply, AnchorSelect.Candidate.rename, h.connRegion]

variable (cfg) in
theorem introduce (hio : io.Renames f V io') (id : ConnId) (newRegion : Option JsString) :
    (t.introduce cfg io' (f id) newRegion).1 = (s.introduce cfg io id newRegion).1.map f ∧
      Mirrors f V (s.introduce cfg io id newRegion).2 (t.introduce cfg io' (f id) newRegion).2 := by
  have hwithin : ∀ aid ∈ (s.introduce cfg io id newRegion).1, aid ∈ V := fun aid hmem =>
    h.within (isAdmitted_of_mem_introduce hmem)
  have hoptions : anchorOptions cfg io' (f id) newRegion =
      (anchorOptions cfg io id newRegion).rename f := by
    unfold anchorOptions
    rw [hio.now]
    rfl
  rw [introduce_eq] at hwithin ⊢
  rw [introduce_eq, hoptions, h.admittedOthers id]
  obtain ⟨hanchors, hback⟩ := AnchorSelect.selectAnchors_rename
    (h.admitted_candidates (anchorOptions cfg io id newRegion))
  split
  · rename_i hnursery
    rw [if_pos hnursery] at hwithin
    dsimp only at hwithin ⊢
    rw [hanchors, hback]
    refine ⟨rfl, ?_⟩
    exact (h.modifyAll hwithin fun ac => { ac with anchorUses := ac.anchorUses + 1 }).update
      (g := fun u => { u with
        nurseryIntros := u.nurseryIntros + 1
        nurseryFellBack :=
          if (AnchorSelect.selectAnchors (anchorOptions cfg io id newRegion) (candidates s)).fellBack then
            u.nurseryFellBack + 1
          else u.nurseryFellBack }) fun _ _ _ _ => rfl
  · exact ⟨rfl, h⟩

variable (cfg) in
theorem sendPeerList (hio : io.Renames f V io') {id : ConnId} (hid : id ∈ V) (conn : Conn)
    (peers : List ConnId) :
    Mirrors f V (s.sendPeerList cfg io id conn peers).2
      (t.sendPeerList cfg io' (f id) conn (peers.map f)).2 := by
  obtain ⟨hsample, hdrawn⟩ := h.graduatedSample cfg hio id
  unfold Server.sendPeerList
  dsimp only
  rw [hsample, hio.now]
  exact ((hdrawn.recordIntroduction hid conn peers _).sendTo cfg hio hid
    (.peerList peers (s.graduatedSample cfg io id).1 io.now)).2

theorem releaseLater {id : ConnId} (hid : id ∈ V) (conn : Conn) :
    Mirrors f V (s.releaseLater cfg id conn) (t.releaseLater cfg (f id) conn) := by
  have hcounted := h.update
    (g := fun s => { s with turnRefreshOnlyTotal := s.turnRefreshOnlyTotal + 1 }) fun _ _ _ _ => rfl
  exact (hcounted.logInfo _ _ _ _).modifyConn hid _

omit h in
theorem announce {f : Renumbering cfg.node.reservedId} (h : Mirrors f V s t)
    (hio : io.Renames f V io') {id : ConnId} (hid : id ∈ V) (conn : Conn) :
    Mirrors f V (s.announce cfg io id conn) (t.announce cfg io' (f id) conn) := by
  obtain ⟨hanchors, hintroduced⟩ := h.introduce cfg hio id conn.claimedRegion
  unfold Server.announce
  dsimp only
  rw [hanchors, orderSameRegionFirst_rename (f := f) fun c => hintroduced.connRegion c,
    hintroduced.withReserved, hio.now, hio.nonce]
  have hlisted := hintroduced.sendPeerList cfg hio hid conn
    ((s.introduce cfg io id conn.claimedRegion).2.withReserved cfg conn
      (orderSameRegionFirst (s.introduce cfg io id conn.claimedRegion).1
        (s.introduce cfg io id conn.claimedRegion).2.connRegion conn.claimedRegion))
  have hgreet : ∀ {u w : Server}, Mirrors f V u w →
      Mirrors f V (u.withNode cfg io (u.node.sendHello id io.nonce))
        (w.withNode cfg io' (w.node.sendHello (f id) io.nonce)) := by
    intro u w hm
    rw [hm.node]
    exact hm.withNode hio (Node.renames_sendHello id io.nonce)
  refine hgreet (Mirrors.logInfo ?_ _ _ _ _)
  exact hlisted.broadcast hio (.peerJoined id io.now) (some id)

omit h in
theorem makeTurnCredential (hio : io.Renames f V io') :
    Server.makeTurnCredential cfg io' = Server.makeTurnCredential cfg io := by
  unfold Server.makeTurnCredential
  rw [hio.now, hio.turnToken]

omit h in
theorem admitConnection {f : Renumbering cfg.node.reservedId} (h : Mirrors f V s t)
    (hio : io.Renames f V io') {id : ConnId} (hid : id ∈ V) (conn : Conn) :
    Mirrors f V (s.admitConnection cfg io id conn) (t.admitConnection cfg io' (f id) conn) := by
  have hadmitted := h.modifyConn hid fun c => { c with helloTimer := false, admitted := true }
  have hwelcomed := (hadmitted.sendTo cfg hio hid (.welcome id io.now cfg.version
    cfg.kernelVersion io.nonce (Server.makeTurnCredential cfg io))).2
  unfold Server.admitConnection
  dsimp only
  rw [hio.now, hio.nonce, makeTurnCredential hio]
  split
  · exact hwelcomed.releaseLater hid conn
  · exact hwelcomed.announce hio hid conn

end Mirrors

end Server

end AxonaBridge
