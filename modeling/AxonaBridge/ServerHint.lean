import AxonaBridge.JsMapRename
import AxonaBridge.ServerRecord
import Mathlib.Data.List.Forall2

/-!
# The server without the region hint

The region a client-hello claims chooses anchors and orders a list. `Agrees cfg full s t` says that `s`
and `t` differ in nothing else: in the claims, in the uses of connections as anchors, in whom the lists
name, and, where the gate is off, in what the introductions reached. With `full` off the graduations are
left out of the comparison as well, and all that they alone decide.
-/

open JsText

namespace AxonaBridge

/-- A connection without the hint, and without its introduction where `kept` is off. -/
def Conn.unhinted (kept : Bool) (c : Conn) : Conn :=
  { c with claimedRegion := none, anchorUses := 0, intro := if kept then c.intro else none }

/-- A frame without the connections it lists, and with `full` off without the graduates it lists. -/
def Frame.unlisted (full : Bool) : Frame → Frame
  | .peerList _ graduated serverT => .peerList [] (if full then graduated else []) serverT
  | other => other

def LogRow.without (name : JsString) (row : LogRow) : LogRow :=
  { row with fields := row.fields.filter fun f => f.1 ≠ name }

/-- A row without the length of the list it announces; with `full` off the rows of graduations go too, and
the number of graduates a list has. -/
def LogRow.compared (full : Bool) (row : LogRow) : Option LogRow :=
  if row.event = js "peer-announce" then some (row.without (js "peers"))
  else if full then some row
  else if row.event = js "peer-list-rerequest" then some (row.without (js "graduated"))
  else if row.event = js "peer-graduated" ∨ row.event = js "graduated-cohort-only" then none
  else some row

def graduationReason : JsString := js "graduated — you are meshed; freeing the bridge slot"

/-- What is compared of an output: all of it but the hint, and with `full` off but the graduations. -/
def Out.compared (full : Bool) : Out → Option Out
  | .frame connId msg => some (.frame connId (msg.unlisted full))
  | .log row => (row.compared full).map Out.log
  | .close connId code reason threw =>
      if full = false ∧ reason = graduationReason then none else some (.close connId code reason threw)
  | .terminate connId => some (.terminate connId)

namespace Server

/-- The introductions are compared where the gate reads them. -/
def keepsIntro (cfg : Config) (full : Bool) : Bool := full && cfg.graduationGateOn

/-- What is compared of a server. -/
def compared (cfg : Config) (full : Bool) (s : Server) : Server :=
  { s with
    connections := s.connections.rename (Function.Embedding.refl ConnId)
      (Conn.unhinted (keepsIntro cfg full))
    out := s.out.filterMap (Out.compared full)
    graduatedTotal := if full then s.graduatedTotal else 0
    gateHeldTotal := if full then s.gateHeldTotal else 0
    cohortOnlyGraduated := if full then s.cohortOnlyGraduated else 0
    lastGraduationAt := if full then s.lastGraduationAt else 0
    graduatedRecently := if full then s.graduatedRecently else JsMap.empty
    registry := if full then s.registry else none }

/-- The two servers differ by hints only. -/
def Agrees (cfg : Config) (full : Bool) (s t : Server) : Prop :=
  t.compared cfg full = s.compared cfg full

/-- The same connection, up to the hint. -/
def SameConn (cfg : Config) (full : Bool) (c c' : Conn) : Prop :=
  c'.unhinted (keepsIntro cfg full) = c.unhinted (keepsIntro cfg full)

/-- What does not look at the hint reads the same. -/
theorem SameConn.read {cfg : Config} {full : Bool} {c c' : Conn} (h : SameConn cfg full c c') {α : Type}
    (f : Conn → α) (hf : ∀ c : Conn, f (c.unhinted (keepsIntro cfg full)) = f c) : f c' = f c := by
  rw [← hf c', h, hf]

/-- The same change, which does not look at the hint. -/
theorem SameConn.change {cfg : Config} {full : Bool} {c c' : Conn} (h : SameConn cfg full c c')
    (f : Conn → Conn)
    (hf : ∀ c : Conn, (f c).unhinted (keepsIntro cfg full) = f (c.unhinted (keepsIntro cfg full))) :
    SameConn cfg full (f c) (f c') := by
  rw [SameConn, hf, hf, h]

/-- The same entry of the table, up to the hint. -/
def SameEntry (cfg : Config) (full : Bool) (e e' : ConnId × Conn) : Prop :=
  e'.1 = e.1 ∧ SameConn cfg full e.2 e'.2

/-- A change that changes nothing. -/
theorem modifyConn_self (s : Server) (connId : ConnId) : s.modifyConn connId (fun c => c) = s := by
  have hsame : s.connections.modify connId (fun c => c) = s.connections := by
    apply JsMap.ext
    rw [JsMap.entries_modify, List.map_congr_left (g := id), List.map_id]
    intro e _
    split <;> rfl
  unfold modifyConn
  rw [hsame]

namespace Agrees

variable {cfg : Config} {full : Bool} {io : Io} {s t : Server} (h : Agrees cfg full s t)

include h

/-! ### Reading -/

theorem eq : t.compared cfg full = s.compared cfg full := h

theorem node : t.node = s.node := by
  have hfield := congrArg Server.node h.eq
  exact hfield

theorem lastHeartbeatAt : t.lastHeartbeatAt = s.lastHeartbeatAt := by
  have hfield := congrArg Server.lastHeartbeatAt h.eq
  exact hfield

theorem lastStallEndAt : t.lastStallEndAt = s.lastStallEndAt := by
  have hfield := congrArg Server.lastStallEndAt h.eq
  exact hfield

theorem lastStallMs : t.lastStallMs = s.lastStallMs := by
  have hfield := congrArg Server.lastStallMs h.eq
  exact hfield

theorem entries : List.Forall₂ (SameEntry cfg full) s.connections.entries t.connections.entries := by
  have hentries := congrArg (fun u => u.connections.entries) h.eq
  dsimp only [compared, JsMap.rename] at hentries
  rw [← List.forall₂_eq_eq_eq, List.forall₂_map_left_iff, List.forall₂_map_right_iff] at hentries
  refine hentries.flip.imp fun e e' heq => ?_
  exact Prod.mk.inj heq

theorem get (connId : ConnId) :
    (t.connections.get connId).map (Conn.unhinted (keepsIntro cfg full)) =
      (s.connections.get connId).map (Conn.unhinted (keepsIntro cfg full)) := by
  have hget := congrArg (fun u => u.connections.get connId) h.eq
  dsimp only [compared] at hget
  rw [JsMap.get_rename_refl, JsMap.get_rename_refl] at hget
  exact hget

/-- The entries of a connection in the two tables. -/
theorem get_cases (connId : ConnId) :
    (s.connections.get connId = none ∧ t.connections.get connId = none) ∨
      ∃ c c', s.connections.get connId = some c ∧ t.connections.get connId = some c' ∧ SameConn cfg full c c' := by
  have hget := h.get connId
  cases hs : s.connections.get connId with
  | none =>
      rw [hs] at hget
      exact Or.inl ⟨rfl, Option.map_eq_none_iff.mp hget⟩
  | some c =>
      rw [hs] at hget
      obtain ⟨c', ht, hc⟩ := Option.map_eq_some_iff.mp hget
      exact Or.inr ⟨c, c', rfl, ht, hc⟩

theorem has (connId : ConnId) : t.connections.has connId = s.connections.has connId := by
  have hget := congrArg Option.isSome (h.get connId)
  rw [Option.isSome_map, Option.isSome_map] at hget
  exact hget

theorem isConnOpen : t.isConnOpen = s.isConnOpen := funext h.has

theorem size : t.connections.size = s.connections.size := h.entries.length_eq.symm

theorem connNodeHex (connId : ConnId) : t.connNodeHex connId = s.connNodeHex connId := by
  unfold Server.connNodeHex
  rw [h.node]

theorem connRegion : t.connRegion = s.connRegion := by
  funext connId
  unfold Server.connRegion
  rw [h.connNodeHex]

/-! ### Writing -/

theorem update (g g' : Server → Server)
    (hg : ∀ u : Server, (g u).compared cfg full = g' (u.compared cfg full)) :
    Agrees cfg full (g s) (g t) := by
  unfold Agrees
  rw [hg, hg, h]

/-- Outputs that are compared alike. -/
theorem say {outs outs' : List Out}
    (houts : outs'.filterMap (Out.compared full) = outs.filterMap (Out.compared full)) :
    Agrees cfg full { s with out := s.out ++ outs } { t with out := t.out ++ outs' } := by
  have hsay : ∀ (u : Server) (outs : List Out),
      { u with out := u.out ++ outs }.compared cfg full =
        { u.compared cfg full with
          out := (u.compared cfg full).out ++ outs.filterMap (Out.compared full) } := by
    intro u outs
    unfold compared
    dsimp only
    rw [List.filterMap_append]
  unfold Agrees
  rw [hsay, hsay, houts, h]

omit h in
theorem compared_modifyConn {g g' : Conn → Conn} (hg : ∀ c : Conn,
    (g c).unhinted (keepsIntro cfg full) = g' (c.unhinted (keepsIntro cfg full))) (connId : ConnId) :
    (s.modifyConn connId g).compared cfg full = (s.compared cfg full).modifyConn connId g' := by
  have htable := @JsMap.modify_rename ConnId ConnId Conn Conn (Function.Embedding.refl ConnId)
    (Conn.unhinted (keepsIntro cfg full)) _ _ g g' (fun c => (hg c).symm) s.connections connId
  unfold Server.modifyConn compared
  dsimp only at htable ⊢
  rw [← htable]
  rfl

/-- The same change of a connection, which does not look at the hint. -/
theorem modifyConn (connId : ConnId) {g : Conn → Conn} (hg : ∀ c : Conn,
    (g c).unhinted (keepsIntro cfg full) = g (c.unhinted (keepsIntro cfg full))) :
    Agrees cfg full (s.modifyConn connId g) (t.modifyConn connId g) := by
  rw [Agrees, compared_modifyConn hg, compared_modifyConn hg, h.eq]

/-- The connection is replaced, by one that is the same up to the hint. -/
theorem replace (connId : ConnId) {c c' : Conn} (hc : SameConn cfg full c c') :
    Agrees cfg full (s.modifyConn connId fun _ => c) (t.modifyConn connId fun _ => c') := by
  have hs := @compared_modifyConn cfg full s (fun _ => c)
    (fun _ => c.unhinted (keepsIntro cfg full)) (fun _ => rfl) connId
  have ht := @compared_modifyConn cfg full t (fun _ => c')
    (fun _ => c.unhinted (keepsIntro cfg full)) (fun _ => hc) connId
  rw [Agrees, hs, ht, h.eq]

omit h in
/-- A change of the hint alone. -/
theorem compared_hint {g : Conn → Conn} (hg : ∀ c : Conn,
    (g c).unhinted (keepsIntro cfg full) = c.unhinted (keepsIntro cfg full)) (connId : ConnId) :
    (s.modifyConn connId g).compared cfg full = s.compared cfg full :=
  (@compared_modifyConn cfg full s g (fun c => c) hg connId).trans (modifyConn_self _ connId)

/-! ### Logging, sending, closing -/

theorem logRow {row row' : LogRow} (hlevel : row'.level = row.level)
    (hrow : row'.compared full = row.compared full) :
    Agrees cfg full (s.log cfg row) (t.log cfg row') := by
  unfold Server.log
  rw [hlevel]
  split
  · exact h
  · refine h.say ?_
    have hout : (Out.log row').compared full = (Out.log row).compared full :=
      congrArg (Option.map Out.log) hrow
    rw [List.filterMap_cons, List.filterMap_cons, hout]

theorem log (row : LogRow) : Agrees cfg full (s.log cfg row) (t.log cfg row) :=
  h.logRow rfl rfl

theorem logInfo (event : JsString) (fields : List (JsString × LogVal)) :
    Agrees cfg full (s.logInfo cfg event fields) (t.logInfo cfg event fields) := h.log _

theorem logErr (event : JsString) (fields : List (JsString × LogVal)) :
    Agrees cfg full (s.logErr cfg event fields) (t.logErr cfg event fields) := h.log _

theorem logDebug (event : JsString) (fields : List (JsString × LogVal)) :
    Agrees cfg full (s.logDebug cfg event fields) (t.logDebug cfg event fields) := h.log _

/-- The row of an announcement may count its list differently. -/
theorem logAnnounce (connId : ConnId) (peers peers' : Int) (announcedTo : Nat) :
    Agrees cfg full
      (s.logInfo cfg (js "peer-announce") [(js "connId", .str connId), (js "peers", .int peers),
        (js "announcedTo", .int announcedTo)])
      (t.logInfo cfg (js "peer-announce") [(js "connId", .str connId), (js "peers", .int peers'),
        (js "announcedTo", .int announcedTo)]) := h.logRow rfl rfl

/-- So may the row of a list that was asked for, where graduations are left aside. -/
theorem logRerequest (connId : ConnId) (peers : Int) {graduated graduated' : Int}
    (hsame : full = true → graduated' = graduated) :
    Agrees cfg full
      (s.logInfo cfg (js "peer-list-rerequest") [(js "connId", .str connId), (js "peers", .int peers),
        (js "graduated", .int graduated)])
      (t.logInfo cfg (js "peer-list-rerequest") [(js "connId", .str connId), (js "peers", .int peers),
        (js "graduated", .int graduated')]) := by
  cases full with
  | true =>
      rw [hsame rfl]
      exact h.logInfo _ _
  | false =>
      have hother : js "peer-list-rerequest" ≠ js "peer-announce" := by decide
      have hmasked : ∀ fields : List (JsString × LogVal),
          LogRow.compared false ⟨.info, js "peer-list-rerequest", fields⟩ =
            some (LogRow.without (js "graduated") ⟨.info, js "peer-list-rerequest", fields⟩) := by
        intro fields
        unfold LogRow.compared
        rw [if_neg hother, if_neg Bool.false_ne_true, if_pos rfl]
      refine h.logRow rfl ?_
      rw [hmasked, hmasked]
      rfl

theorem tryLog (level : LogLevel) (event : JsString) (fields : List (JsString × JsVal)) :
    (t.tryLog cfg level event fields).2 = (s.tryLog cfg level event fields).2 ∧
      Agrees cfg full (s.tryLog cfg level event fields).1 (t.tryLog cfg level event fields).1 := by
  unfold Server.tryLog
  split
  · exact ⟨rfl, h⟩
  · split
    · exact ⟨rfl, h.log _⟩
    · exact ⟨rfl, h⟩

variable (io) in
theorem wsClose (connId : ConnId) (code : Nat) (reason : JsString) :
    Agrees cfg full (s.wsClose io connId code reason) (t.wsClose io connId code reason) := h.say rfl

variable (io) in
theorem wsSend (connId : ConnId) {msg msg' : Frame} (hmsg : msg'.unlisted full = msg.unlisted full) :
    (t.wsSend io connId msg').1 = (s.wsSend io connId msg).1 ∧
      Agrees cfg full (s.wsSend io connId msg).2 (t.wsSend io connId msg').2 := by
  unfold Server.wsSend
  split
  · exact ⟨rfl, h⟩
  · refine ⟨rfl, h.say ?_⟩
    exact congrArg (fun msg => [Out.frame connId msg]) hmsg

theorem sendFailed (event : JsString) (connId : ConnId) {msg msg' : Frame} (htype : msg'.type = msg.type) :
    Agrees cfg full (s.sendFailed cfg io event connId msg) (t.sendFailed cfg io event connId msg') := by
  unfold Server.sendFailed
  rw [htype]
  exact h.logErr _ _

theorem sendAlike (connId : ConnId) {msg msg' : Frame}
    (hmsg : msg'.unlisted full = msg.unlisted full) (htype : msg'.type = msg.type) :
    (t.sendTo cfg io connId msg').1 = (s.sendTo cfg io connId msg).1 ∧
      Agrees cfg full (s.sendTo cfg io connId msg).2 (t.sendTo cfg io connId msg').2 := by
  obtain ⟨hsent, hsend⟩ := h.wsSend io connId hmsg
  unfold Server.sendTo
  rw [h.has connId]
  split
  · exact ⟨rfl, h⟩
  · dsimp only
    rw [hsent]
    split
    · exact ⟨hsent, hsend⟩
    · refine ⟨rfl, ?_⟩
      dsimp only
      exact hsend.sendFailed _ _ htype

variable (cfg io) in
theorem sendTo (connId : ConnId) (msg : Frame) :
    (t.sendTo cfg io connId msg).1 = (s.sendTo cfg io connId msg).1 ∧
      Agrees cfg full (s.sendTo cfg io connId msg).2 (t.sendTo cfg io connId msg).2 :=
  h.sendAlike connId rfl rfl

variable (io) in
/-- A broadcast reaches the same connections. -/
theorem broadcast (msg : Frame) (exceptId : Option ConnId) :
    (t.broadcast cfg io msg exceptId).1 = (s.broadcast cfg io msg exceptId).1 ∧
      Agrees cfg full (s.broadcast cfg io msg exceptId).2 (t.broadcast cfg io msg exceptId).2 := by
  have hfold : ∀ es es' : List (ConnId × Conn), List.Forall₂ (SameEntry cfg full) es es' →
      ∀ acc acc' : Nat × Server, acc'.1 = acc.1 → Agrees cfg full acc.2 acc'.2 →
        (es'.foldl (broadcastOne cfg io msg exceptId) acc').1 =
            (es.foldl (broadcastOne cfg io msg exceptId) acc).1 ∧
          Agrees cfg full (es.foldl (broadcastOne cfg io msg exceptId) acc).2
            (es'.foldl (broadcastOne cfg io msg exceptId) acc').2 := by
    intro es es' hes
    induction hes with
    | nil => exact fun acc acc' hcount h => ⟨hcount, h⟩
    | @cons e e' es es' he hes ih =>
        intro acc acc' hcount h
        rw [List.foldl_cons, List.foldl_cons]
        have hone : (broadcastOne cfg io msg exceptId acc' e').1 =
              (broadcastOne cfg io msg exceptId acc e).1 ∧
            Agrees cfg full (broadcastOne cfg io msg exceptId acc e).2
              (broadcastOne cfg io msg exceptId acc' e').2 := by
          have hadm : e'.2.admitted = e.2.admitted := he.2.read Conn.admitted fun _ => rfl
          have hmsg : msg.unlisted full = msg.unlisted full := rfl
          obtain ⟨hsent, hsend⟩ := h.wsSend io e.1 hmsg
          unfold broadcastOne
          rw [he.1, hadm]
          split
          · exact ⟨hcount, h⟩
          · dsimp only
            rw [hsent]
            split
            · exact ⟨by rw [hcount], hsend⟩
            · exact ⟨hcount, hsend.sendFailed _ _ rfl⟩
        exact ih _ _ hone.1 hone.2
  exact hfold _ _ h.entries (0, s) (0, t) rfl h

theorem perform (o : NodeOut) : Agrees cfg full (s.perform cfg io o) (t.perform cfg io o) := by
  cases o with
  | send connId payload => exact (h.sendTo cfg io connId _).2
  | signal connId sender payload => exact (h.sendTo cfg io connId _).2
  | close connId reason =>
      unfold Server.perform
      dsimp only
      rw [h.has connId]
      split
      · exact h.wsClose io _ _ _
      · exact h
  | log row => exact h.log row

/-- The node came to the same and asks for the same. -/
theorem withNode (r : Node × List NodeOut) :
    Agrees cfg full (s.withNode cfg io r) (t.withNode cfg io r) := by
  have hfold : ∀ (outs : List NodeOut) (s t : Server), Agrees cfg full s t →
      Agrees cfg full (outs.foldl (fun s o => s.perform cfg io o) s)
        (outs.foldl (fun s o => s.perform cfg io o) t) := by
    intro outs
    induction outs with
    | nil => exact fun s t h => h
    | cons o outs ih => exact fun s t h => ih _ _ (h.perform o)
  refine hfold r.2 _ _ ?_
  exact h.update (fun u => { u with node := r.1 }) (fun u => { u with node := r.1 }) fun _ => rfl

/-- What the node does on its own state it does on both sides. -/
theorem withNodeOf (f : Node → Node × List NodeOut) :
    Agrees cfg full (s.withNode cfg io (f s.node)) (t.withNode cfg io (f t.node)) := by
  rw [h.node]
  exact h.withNode _

end Agrees

end Server

end AxonaBridge
