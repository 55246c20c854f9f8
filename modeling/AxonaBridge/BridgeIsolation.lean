import AxonaBridge.BridgeAdmission
import AxonaBridge.EventMirror

/-!
# Pending connections are apart

A connection that is never admitted is sent its version gate and nothing else, no other connection
hears of it, and the admitted ones hear what they would hear without it: as long as no admitted
connection signals a present one that is not, and no connection that was not admitted closes while
somebody can be told.
-/

open JsText

namespace AxonaBridge

/-- A frame that was sent to a connection. -/
def Out.frameTo (connId : ConnId) : Out → Option Frame
  | .frame recipient msg => if recipient = connId then some msg else none
  | _ => none

/-- A frame to `recipient` that carries the id `connId`. -/
def Out.tells (recipient connId : ConnId) : Out → Bool
  | .frame dest msg => dest = recipient && connId ∈ msg.names
  | _ => false

namespace Server

variable {cfg : Config} {io : Io} {s : Server}

/-- The frames sent to a connection so far. -/
def framesTo (s : Server) (connId : ConnId) : List Frame := s.out.filterMap (Out.frameTo connId)

/-- Nothing is added to the frames of a connection that is sent nothing. -/
theorem framesTo_of_emits {s' : Server} {connId : ConnId}
    (h : Emits (fun recipient _ => recipient ≠ connId) s s') : s'.framesTo connId = s.framesTo connId := by
  obtain ⟨added, hout, hadded⟩ := h
  unfold framesTo
  have hnone : added.filterMap (Out.frameTo connId) = [] := by
    refine List.filterMap_eq_nil_iff.mpr fun o ho => ?_
    cases o with
    | frame recipient frame => exact if_neg (hadded recipient frame ho)
    | _ => rfl
  rw [hout, List.filterMap_append, hnone, List.append_nil]

/-- A connection that opens is sent its version gate, where that can be sent. -/
theorem framesTo_onConnection (id : ConnId) :
    (s.onConnection cfg io id).framesTo id = s.framesTo id ∨
      (s.onConnection cfg io id).framesTo id =
        s.framesTo id ++ [.versionGate cfg.minPeerVersion io.now] := by
  have hquiet : ∀ {u w : Server}, Emits (fun _ _ => False) u w → w.framesTo id = u.framesTo id :=
    fun h => framesTo_of_emits (h.mono fun _ _ hfalse => hfalse.elim)
  have hgate : ∀ u : Server,
      (u.sendTo cfg io id (.versionGate cfg.minPeerVersion io.now)).2.framesTo id = u.framesTo id ∨
        (u.sendTo cfg io id (.versionGate cfg.minPeerVersion io.now)).2.framesTo id =
          u.framesTo id ++ [.versionGate cfg.minPeerVersion io.now] := by
    intro u
    unfold sendTo wsSend
    split
    · exact Or.inl rfl
    · by_cases hfails : (io.sendError id).isSome = true
      · left
        simp only [if_pos hfails, Bool.false_eq_true, if_false]
        exact hquiet (emits_log _)
      · right
        simp only [if_neg hfails, if_true]
        unfold framesTo
        simp [Out.frameTo]
  unfold onConnection
  dsimp only
  refine (hgate _).imp (fun h => h.trans ?_) fun h => h.trans (congrArg (· ++ _) ?_)
  · exact hquiet (Emits.congr_left rfl (emits_logInfo _ _))
  · exact hquiet (Emits.congr_left rfl (emits_logInfo _ _))

end Server

namespace Bridge

variable {cfg : Config}

/-- No signal goes to a present connection that is not admitted, and no connection that is not
admitted closes while an admitted one can be sent to. -/
def Isolates (b : Bridge) (e : Io × Event) : Prop :=
  (∀ id data dest, e.2 = .message id data → b.server.Signals id data dest →
      b.server.IsAdmitted dest) ∧
    ∀ id code reason, e.2 = .closed id code reason → ¬b.server.IsAdmitted id →
      ∀ connId, b.server.IsAdmitted connId → e.1.sendError connId ≠ none

/-- The connection was sent its version gate at most, and no other connection heard of it. -/
structure Apart (cfg : Config) (b : Bridge) (id : ConnId) : Prop where
  frames : b.server.framesTo id = [] ∨
    ∃ serverT, b.server.framesTo id = [.versionGate cfg.minPeerVersion serverT]
  named : ∀ connId frame, .frame connId frame ∈ b.server.out → connId ≠ id → id ∉ frame.names

/-- The event is not of a connection outside `V`. -/
def isVisible (V : List ConnId) (e : Io × Event) : Bool := e.2.socket.all (· ∈ V)

/-- A run without the events of the connections outside `V`. -/
def visible (V : List ConnId) (es : List (Io × Event)) : List (Io × Event) := es.filter (isVisible V)

/-- The same event with the same answers, where the connections of `V` are renumbered. -/
def SameEvent (cfg : Config) (f : Renumbering cfg.node.reservedId) (V : List ConnId)
    (e e' : Io × Event) : Prop :=
  e.1.Renames f V e'.1 ∧ e.2.Renames cfg.node f e'.2

/-! ### The connections admitted by the end -/

theorem along_everAdmitted {reportBound : Bool} (b : Bridge) (es : List (Io × Event)) :
    (system cfg reportBound).Along
      (fun b' e => ∀ connId ∈ (b'.step cfg e).everAdmitted,
        connId ∈ ((system cfg reportBound).after b es).everAdmitted) b es := by
  rw [System.along_iff_split]
  intro es₁ e es₂ hsplit connId h
  rw [hsplit, System.after_append, System.after_cons]
  exact mem_everAdmitted_after h

/-! ### What a connection outside `V` is sent, and what is said of it -/

/-- The connections of `V` are the ones spoken to and of. -/
def scopeOf (V : List ConnId) : Scope where
  admitted := (· ∈ V)
  signalled := (· ∈ V)
  left := (· ∈ V)
  signalled_of_admitted _ h := h

section Step

variable {b : Bridge} {e : Io × Event} {V : List ConnId} (hb : b.Tracked) (he : b.Enabled cfg e)
  (hiso : b.Isolates e) (hV : ∀ connId ∈ (b.step cfg e).everAdmitted, connId ∈ V)

include hV

include hb hiso in
theorem mem_of_signals {id dest : ConnId} {data : Server.Inbound} (hmessage : e.2 = .message id data)
    (h : b.server.Signals id data dest) : dest ∈ V :=
  hV dest (mem_everAdmitted_step.mpr (Or.inl (hb.admitted dest (hiso.1 id data dest hmessage h))))

theorem mem_of_admits {id : ConnId} {data : Server.Inbound} (hmessage : e.2 = .message id data)
    (h : Server.Admits cfg b.server id data) : id ∈ V := by
  refine hV id (mem_everAdmitted_step.mpr (Or.inr (Server.isAdmitted_iff.mpr ?_)))
  unfold step
  rw [hmessage]
  exact ((Server.admission_onMessage id data id).1 h).trans (if_pos rfl)

include hb hiso in
theorem mem_of_closed {id connId : ConnId} {code : Nat} {reason : JsString}
    (hclosed : e.2 = .closed id code reason) (hadm : b.server.IsAdmitted connId)
    (hsend : e.1.sendError connId = none) : id ∈ V := by
  by_contra hid
  have hnot : ¬b.server.IsAdmitted id := fun h =>
    hid (hV id (mem_everAdmitted_step.mpr (Or.inl (hb.admitted id h))))
  exact hiso.2 id code reason hclosed hnot connId hadm hsend

include hb he hiso in
theorem spoken_scopeOf_step (hspoken : b.Spoken cfg (scopeOf V)) :
    (b.step cfg e).Spoken cfg (scopeOf V) := by
  refine hspoken.step hb he hV (fun id data dest hmessage h => ?_)
    fun id code reason hclosed connId _ hadm hsend => ?_
  · exact mem_of_signals hb hiso hV hmessage h
  · exact mem_of_closed hb hiso hV hclosed hadm hsend

include hb he hiso in
/-- A connection outside `V` is sent a frame only as it opens. -/
theorem framesTo_step {id : ConnId} (hid : id ∉ V) (hconnect : e.2 ≠ .connect id) :
    (b.step cfg e).server.framesTo id = b.server.framesTo id := by
  have hold : ∀ connId, b.server.IsAdmitted connId → connId ∈ V := fun connId h =>
    hV connId (mem_everAdmitted_step.mpr (Or.inl (hb.admitted connId h)))
  have hemits : Server.Emits (Server.Says cfg e.1 (· ∈ V) b.server e.2) b.server
      (b.server.step cfg e.1 e.2) := Server.says_step e.2
    (hb.node.mono fun connId h => hV connId (mem_everAdmitted_step.mpr (Or.inl h))) hold
    fun token connId ht hk =>
      hV connId (mem_everAdmitted_step.mpr (Or.inl (mem_everAdmitted_of_doorToken hb he ht hk)))
  refine Server.framesTo_of_emits (hemits.mono fun recipient frame h heq => ?_)
  subst heq
  have hreceives : ∀ {conn json type}, ¬Server.Receives b.server recipient conn json type :=
    fun h => hid (hold recipient ⟨_, h.get, h.admitted⟩)
  generalize hevent : e.2 = event at h
  cases h with
  | versionGate => exact hconnect hevent
  | welcome h => exact hid (mem_of_admits hV hevent h)
  | introduction h graduated => exact hid (mem_of_admits hV hevent h.admits)
  | joined h hadm hne => exact hid (hold recipient hadm)
  | relisted h graduated => exact hreceives h
  | pong h => exact hreceives h
  | turn h credential => exact hreceives h
  | relay h => exact hid (mem_of_signals hb hiso hV hevent h)
  | left code reason hne hadm hsend => exact hid (hold recipient hadm)
  | axona payload h => exact hid h
  | door payload h => exact hid h

end Step

/-- What holds of a connection outside `V` along the run. -/
structure Outside (cfg : Config) (V : List ConnId) (id : ConnId) (b : Bridge) : Prop where
  tracked : b.Tracked
  spoken : b.Spoken cfg (scopeOf V)
  frames : b.server.framesTo id = [] ∨ (∃ i ≤ b.connSeq, id = mintConnId i) ∧
    ∃ serverT, b.server.framesTo id = [.versionGate cfg.minPeerVersion serverT]

theorem Outside.step {V : List ConnId} {id : ConnId} (hid : id ∉ V) {b : Bridge}
    (h : Outside cfg V id b) {e : Io × Event} (he : b.Enabled cfg e) (hiso : b.Isolates e)
    (hV : ∀ connId ∈ (b.step cfg e).everAdmitted, connId ∈ V) : Outside cfg V id (b.step cfg e) := by
  refine ⟨tracked_step h.tracked he, spoken_scopeOf_step h.tracked he hiso hV h.spoken, ?_⟩
  by_cases hconnect : e.2 = .connect id
  · have he' := he.of_event hconnect
    have hseq : (b.step cfg e).connSeq = b.connSeq + 1 := connSeq_step_connect hconnect
    have hserver : (b.step cfg e).server = b.server.onConnection cfg e.1 id :=
      server_step_of_event hconnect
    have hnone : b.server.framesTo id = [] := by
      rcases h.frames with hnone | ⟨hminted, -⟩
      · exact hnone
      · exact absurd hconnect (ne_connect_of_minted he hminted)
    rw [hserver, hseq]
    rcases @Server.framesTo_onConnection cfg e.1 b.server id with hsame | hgate
    · exact Or.inl (hsame.trans hnone)
    · exact Or.inr ⟨⟨b.connSeq + 1, le_rfl, he'⟩, e.1.now, by rw [hgate, hnone, List.nil_append]⟩
  · rw [framesTo_step h.tracked he hiso hV hid hconnect]
    refine h.frames.imp_right fun ⟨⟨i, hi, heq⟩, hgate⟩ => ?_
    exact ⟨⟨i, hi.trans connSeq_le_step, heq⟩, hgate⟩

/-! ### The same run without the connections outside `V` -/

theorem mirrors_step {b : Bridge} (hb : b.Tracked) {e : Io × Event} (he : b.Enabled cfg e)
    (hiso : b.Isolates e) {V : List ConnId} (hV : ∀ connId ∈ (b.step cfg e).everAdmitted, connId ∈ V)
    {f : Renumbering cfg.node.reservedId} {t : Server} (h : Server.Mirrors f V b.server t)
    (hsocket : ∀ id, e.2.socket = some id → id ∈ V) {e' : Io × Event} (hsame : SameEvent cfg f V e e') :
    Server.Mirrors f V (b.step cfg e).server (t.step cfg e'.1 e'.2) := by
  refine h.step hsame.1 ?_ hsame.2 hsocket (fun id data dest hmessage hsignals => ?_)
    fun token connId ht hk => ?_
  · exact hb.node.mono fun connId h => hV connId (mem_everAdmitted_step.mpr (Or.inl h))
  · exact mem_of_signals hb hiso hV hmessage hsignals
  · exact hV connId (mem_everAdmitted_step.mpr (Or.inl (mem_everAdmitted_of_doorToken hb he ht hk)))

theorem mirrors_step_left {b : Bridge} (hb : b.Tracked) {e : Io × Event}
    (hiso : b.Isolates e) {V : List ConnId} (hV : ∀ connId ∈ (b.step cfg e).everAdmitted, connId ∈ V)
    {f : Renumbering cfg.node.reservedId} {t : Server} (h : Server.Mirrors f V b.server t)
    {id : ConnId} (hsocket : e.2.socket = some id) (hid : id ∉ V) :
    Server.Mirrors f V (b.step cfg e).server t := by
  refine h.step_left ?_ hsocket hid (fun data hmessage hadmits => ?_)
    fun code reason hclosed connId _ hadm hsend => ?_
  · exact hb.node.mono fun connId h => hV connId (mem_everAdmitted_step.mpr (Or.inl h))
  · exact hid (mem_of_admits hV hmessage hadmits)
  · exact hid (mem_of_closed hb hiso hV hclosed hadm hsend)

section Runs

variable {reportBound : Bool}

/-- The run without the connections outside `V` is a run of the same events. -/
theorem mirrors_along {V : List ConnId} {f : Renumbering cfg.node.reservedId} {es es' : List (Io × Event)}
    {b : Bridge} {t : Server} (hb : b.Tracked) (h : Server.Mirrors f V b.server t)
    (hC : (system cfg reportBound).Along (fun b e => b.Enabled cfg e ∧ b.Isolates e ∧
      ∀ connId ∈ (b.step cfg e).everAdmitted, connId ∈ V) b es)
    (hsame : List.Forall₂ (SameEvent cfg f V) (visible V es) es') :
    Server.Mirrors f V ((system cfg reportBound).after b es).server
      (es'.foldl (fun t e => t.step cfg e.1 e.2) t) := by
  induction es generalizing b t es' with
  | nil =>
      cases hsame
      exact h
  | cons e es ih =>
      obtain ⟨⟨he, hiso, hV⟩, hrest⟩ := hC
      have hb' := tracked_step hb he
      by_cases hvisible : isVisible V e = true
      · rw [visible, List.filter_cons_of_pos hvisible] at hsame
        cases hsame with
        | cons hhead htail =>
            rw [List.foldl_cons, System.after_cons]
            refine ih hb' ?_ hrest htail
            refine mirrors_step hb he hiso hV h (fun id hid => ?_) hhead
            rw [isVisible, hid] at hvisible
            simpa using hvisible
      · rw [visible, List.filter_cons_of_neg hvisible] at hsame
        obtain ⟨id, hid⟩ : ∃ id, e.2.socket = some id := by
          cases hsocket : e.2.socket with
          | none =>
              rw [isVisible, hsocket] at hvisible
              exact absurd rfl hvisible
          | some id => exact ⟨id, rfl⟩
        refine ih hb' (mirrors_step_left hb hiso hV h hid fun hmem => hvisible ?_) hrest hsame
        rw [isVisible, hid]
        simpa using hmem

theorem mirrors_init (V : List ConnId) (f : Renumbering cfg.node.reservedId) :
    Server.Mirrors f V (init cfg reportBound).server (init cfg reportBound).server := by
  have hstart := Server.Mirrors.intro (f := f) (V := V) (s := (init cfg reportBound).server)
    (show ([] : List Out).filterMap Out.sent = _ from rfl) fun connId hadm => by
      obtain ⟨conn, hget, -⟩ := hadm
      cases hget
  exact hstart

/-- What the connections of `V` hear is all that the mirrored server has sent. -/
theorem heard_eq {V : List ConnId} {f : Renumbering cfg.node.reservedId} {s t : Server}
    (h : Server.Mirrors f V s t) : t.out.filterMap Out.sent = s.heard f V := by
  cases h with
  | intro hout hV => exact hout

/-- Every event is itself under the numbering as it is. -/
theorem sameEvent_refl (V : List ConnId) (e : Io × Event) :
    SameEvent cfg (Renumbering.refl cfg.node.reservedId) V e e := by
  have htoken : ∀ token, RenamesToken (Renumbering.refl cfg.node.reservedId) cfg.node token token :=
    fun token => Option.map_id'.symm
  refine ⟨⟨rfl, fun _ _ => rfl, rfl, rfl, rfl, rfl⟩, ?_⟩
  obtain ⟨io, e⟩ := e
  cases e with
  | connect connId => exact .connect connId
  | message connId data =>
      refine .message connId ?_
      cases data with
      | binary bytes => exact .binary bytes
      | text parsed =>
          cases parsed with
          | error err => exact .malformed err
          | ok json => exact .json ⟨Iff.rfl, fun _ _ => rfl, Option.map_id'.symm⟩
  | closed connId code reason => exact .closed connId code reason
  | helloTimeout connId => exact .helloTimeout connId
  | turnRelease connId => exact .turnRelease connId
  | maybeGraduate => exact .maybeGraduate
  | heartbeat => exact .heartbeat
  | sweep => exact .sweep
  | requestTimeout promise => exact .requestTimeout promise
  | helloBuilt i hello => exact .helloBuilt i hello
  | verified i res => exact .verified i res
  | ackBuilt i ack => exact .ackBuilt i ack
  | answered i ok body => exact .answered i ok body
  | kernel act => exact .kernel act
  | meshUp => exact .meshUp
  | doorSink key payload => exact .doorSink (htoken key) payload
  | doorBind nodeId token input =>
      refine .doorBind nodeId (htoken token) ⟨rfl, rfl, rfl, ?_⟩
      cases input.victim with
      | none => rfl
      | some key => exact congrArg some Option.map_id'.symm
  | routeToDoor nodeId token => exact .routeToDoor nodeId (htoken token)

/-- **Pending connections are apart.** In a run in which no signal goes to a pending connection and no
pending connection closes while somebody can be told, a connection that is never admitted is sent its
version gate at most and is named to nobody; and what the admitted connections hear depends, apart from
the numbering, on the events of admitted connections alone. -/
theorem apart_along {es : List (Io × Event)}
    (hes : (system cfg reportBound).Valid (init cfg reportBound) es)
    (hiso : (system cfg reportBound).Along Isolates (init cfg reportBound) es) :
    (∀ io id, (io, Event.connect id) ∈ es →
      id ∉ ((system cfg reportBound).after (init cfg reportBound) es).everAdmitted →
        Apart cfg ((system cfg reportBound).after (init cfg reportBound) es) id) ∧
    ∀ es', (system cfg reportBound).Valid (init cfg reportBound) es' →
      (system cfg reportBound).Along Isolates (init cfg reportBound) es' →
        ∀ f : Renumbering cfg.node.reservedId,
          List.Forall₂
            (SameEvent cfg f ((system cfg reportBound).after (init cfg reportBound) es).everAdmitted)
            (visible ((system cfg reportBound).after (init cfg reportBound) es).everAdmitted es)
            (visible ((system cfg reportBound).after (init cfg reportBound) es').everAdmitted es') →
          ((system cfg reportBound).after (init cfg reportBound) es).server.heard f
              ((system cfg reportBound).after (init cfg reportBound) es).everAdmitted =
            ((system cfg reportBound).after (init cfg reportBound) es').server.heard
              (Renumbering.refl cfg.node.reservedId)
              ((system cfg reportBound).after (init cfg reportBound) es').everAdmitted := by
  have hsteps : ∀ {fs : List (Io × Event)},
      (system cfg reportBound).Valid (init cfg reportBound) fs →
        (system cfg reportBound).Along Isolates (init cfg reportBound) fs →
          (system cfg reportBound).Along (fun b e => b.Enabled cfg e ∧ b.Isolates e ∧
            ∀ connId ∈ (b.step cfg e).everAdmitted,
              connId ∈ ((system cfg reportBound).after (init cfg reportBound) fs).everAdmitted)
            (init cfg reportBound) fs := fun hvalid hisolates =>
    System.along_and.mpr ⟨hvalid, System.along_and.mpr ⟨hisolates, along_everAdmitted _ _⟩⟩
  constructor
  · intro io id hconnect hid
    have hstart : Outside cfg ((system cfg reportBound).after (init cfg reportBound) es).everAdmitted id
        (init cfg reportBound) :=
      ⟨tracked_init reportBound, fun _ _ hmem => (by cases hmem), Or.inl rfl⟩
    have hend := System.Along.invariant (fun b e h hC => h.step hid hC.1 hC.2.1 hC.2.2) hstart
      (hsteps hes hiso)
    refine ⟨hend.frames.imp_right fun h => h.2, fun connId frame hmem hne hnamed => ?_⟩
    have hrid : id ≠ cfg.node.reservedId := by
      obtain ⟨es₁, es₂, hsplit⟩ := List.append_of_mem hconnect
      have henabled := System.along_iff_split.mp hes es₁ _ es₂ hsplit
      rw [show id = mintConnId _ from henabled]
      exact mintConnId_ne_reservedId _ cfg.node.epoch
    have hallows := hend.spoken connId frame hmem
    cases frame with
    | versionGate => cases hnamed
    | signal sender payload =>
        rw [List.mem_singleton.mp hnamed] at hid hrid
        exact hallows.2.elim hid hrid
    | peerLeft peerId nodeId serverT =>
        rw [List.mem_singleton.mp hnamed] at hid
        exact hid hallows.2
    | _ => exact (hallows.2 id hnamed).elim hid hrid
  · intro es' hes' hiso' f hsame
    have hleft := mirrors_along (tracked_init reportBound) (mirrors_init _ f) (hsteps hes hiso) hsame
    have hright := mirrors_along (f := Renumbering.refl cfg.node.reservedId) (tracked_init reportBound)
      (mirrors_init _ _) (hsteps hes' hiso') (List.forall₂_same.mpr fun e _ => sameEvent_refl _ e)
    exact (heard_eq hleft).symm.trans (heard_eq hright)

end Runs

/-- A client-hello of the present network. -/
def hello (io : Io) (connId : ConnId) : Io × Event :=
  (io, .message connId (.text (.ok (Server.clientHello (.str (js "4.0.0")) (.str (js "4.0"))))))

/-- One connection is admitted, another one is not. -/
def onePendingRun : List (Io × Event) :=
  [({ now := 1 }, .connect (js "c1")), ({ now := 2 }, .connect (js "c2")), hello { now := 3 } (js "c1"),
    ({ now := 4 }, .helloTimeout (js "c2"))]

theorem valid_onePendingRun :
    (system Server.plain false).Valid (init Server.plain false) onePendingRun := by
  refine ⟨?_, ?_, ?_, ⟨{ since := 2, lastSeenAt := 2, helloTimer := true }, ?_, rfl⟩, trivial⟩
  · change js "c1" = mintConnId 1
    decide +kernel
  · change js "c2" = mintConnId 2
    decide +kernel
  · change JsMap.has _ _ = true
    decide +kernel
  · decide +kernel

theorem isolates_onePendingRun :
    (system Server.plain false).Along Isolates (init Server.plain false) onePendingRun := by
  refine ⟨⟨?_, ?_⟩, ⟨?_, ?_⟩, ⟨?_, ?_⟩, ⟨?_, ?_⟩, trivial⟩
  case refine_5 =>
    rintro _ _ dest ⟨⟩ h
    exact absurd (Server.isAdmitted_iff.mp h.1) (by decide +kernel)
  all_goals exact fun _ _ _ h => by cases h

theorem apart_onePendingRun :
    (∀ io id, (io, Event.connect id) ∈ onePendingRun →
      id ∉ ((system Server.plain false).after (init Server.plain false) onePendingRun).everAdmitted →
        Apart Server.plain ((system Server.plain false).after (init Server.plain false) onePendingRun) id) ∧
    ∀ es', (system Server.plain false).Valid (init Server.plain false) es' →
      (system Server.plain false).Along Isolates (init Server.plain false) es' →
        ∀ f : Renumbering Server.plain.node.reservedId,
          List.Forall₂
            (SameEvent Server.plain f
              ((system Server.plain false).after (init Server.plain false) onePendingRun).everAdmitted)
            (visible ((system Server.plain false).after (init Server.plain false)
              onePendingRun).everAdmitted onePendingRun)
            (visible ((system Server.plain false).after (init Server.plain false) es').everAdmitted es') →
          ((system Server.plain false).after (init Server.plain false) onePendingRun).server.heard f
              ((system Server.plain false).after (init Server.plain false) onePendingRun).everAdmitted =
            ((system Server.plain false).after (init Server.plain false) es').server.heard
              (Renumbering.refl Server.plain.node.reservedId)
              ((system Server.plain false).after (init Server.plain false) es').everAdmitted :=
  apart_along valid_onePendingRun isolates_onePendingRun

/-- The first connection signals one that is still pending, which then leaves. -/
def pendingLeaves : List (Io × Event) :=
  [({ now := 1 }, .connect (js "c1")), hello { now := 2 } (js "c1"), ({ now := 3 }, .connect (js "c2")),
    ({ now := 4 }, .message (js "c1") (.text (.ok (.obj [(js "type", .str (js "signal")),
      (js "to", .str (js "c2"))])))), ({ now := 5 }, .closed (js "c2") 1000 [])]

/-- The same without the second connection. -/
def nobodyPending : List (Io × Event) :=
  [({ now := 1 }, .connect (js "c1")), hello { now := 2 } (js "c1"),
    ({ now := 4 }, .message (js "c1") (.text (.ok (.obj [(js "type", .str (js "signal")),
      (js "to", .str (js "c2"))]))))]

/-- The pending connection is sent a signal, its close is announced, and without it the admitted one
would not have heard that. -/
theorem not_apart_pendingLeaves :
    (system Server.plain false).Valid (init Server.plain false) pendingLeaves ∧
      (system Server.plain false).Valid (init Server.plain false) nobodyPending ∧
      ¬(∀ io id, (io, Event.connect id) ∈ pendingLeaves →
        id ∉ ((system Server.plain false).after (init Server.plain false) pendingLeaves).everAdmitted →
          Apart Server.plain
            ((system Server.plain false).after (init Server.plain false) pendingLeaves) id) ∧
      List.Forall₂
        (SameEvent Server.plain (Renumbering.refl Server.plain.node.reservedId)
          ((system Server.plain false).after (init Server.plain false) pendingLeaves).everAdmitted)
        (visible ((system Server.plain false).after (init Server.plain false)
          pendingLeaves).everAdmitted pendingLeaves)
        (visible ((system Server.plain false).after (init Server.plain false)
          nobodyPending).everAdmitted nobodyPending) ∧
      ((system Server.plain false).after (init Server.plain false) pendingLeaves).server.heard
          (Renumbering.refl Server.plain.node.reservedId)
          ((system Server.plain false).after (init Server.plain false) pendingLeaves).everAdmitted ≠
        ((system Server.plain false).after (init Server.plain false) nobodyPending).server.heard
          (Renumbering.refl Server.plain.node.reservedId)
          ((system Server.plain false).after (init Server.plain false) nobodyPending).everAdmitted := by
  have hseen : pendingLeaves.map (isVisible ((system Server.plain false).after (init Server.plain false)
      pendingLeaves).everAdmitted) = [true, true, false, true, false] := by decide +kernel
  have hseen' : nobodyPending.map (isVisible ((system Server.plain false).after
      (init Server.plain false) nobodyPending).everAdmitted) = [true, true, true] := by decide +kernel
  refine ⟨valid_of_openRun (by decide +kernel), valid_of_openRun (by decide +kernel), fun hapart => ?_, ?_,
    fun hheard => ?_⟩
  · have hc2 := hapart { now := 3 } (js "c2") (List.mem_of_getElem? (i := 2) rfl) (by decide +kernel)
    have htold : ((system Server.plain false).after (init Server.plain false) pendingLeaves).server.out.any
        (Out.tells (js "c1") (js "c2")) = true := by decide +kernel
    obtain ⟨o, ho, htells⟩ := List.any_eq_true.mp htold
    cases o with
    | frame recipient frame =>
        obtain ⟨hto, hnamed⟩ := Bool.and_eq_true_iff.mp htells
        refine hc2.named recipient frame ho ?_ (of_decide_eq_true hnamed)
        rw [of_decide_eq_true hto]
        decide
    | _ => cases htells
  · generalize ((system Server.plain false).after (init Server.plain false)
      pendingLeaves).everAdmitted = V at hseen ⊢
    generalize ((system Server.plain false).after (init Server.plain false)
      nobodyPending).everAdmitted = V' at hseen' ⊢
    simp only [pendingLeaves, nobodyPending, List.map_cons, List.cons.injEq, List.map_nil,
      and_true] at hseen hseen'
    obtain ⟨h1, h2, h3, h4, h5⟩ := hseen
    obtain ⟨h1', h2', h3'⟩ := hseen'
    simp only [pendingLeaves, nobodyPending, visible, List.filter_cons, List.filter_nil, h1, h2, h3, h4,
      h5, h1', h2', h3', if_true]
    exact .cons (sameEvent_refl V _) (.cons (sameEvent_refl V _) (.cons (sameEvent_refl V _) .nil))
  · exact absurd (congrArg List.length hheard) (by decide +kernel)

end Bridge

end AxonaBridge
