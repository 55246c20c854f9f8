import AxonaBridge.ServerHint
import AxonaBridge.ServerMirror

/-!
# Events and the region hint

Every event keeps two servers in agreement. A client-hello with another claim chooses other anchors,
which is where the agreement of what the introductions reached has to be given; everything else the
server does is decided on what the two have in common.
-/

open JsText

namespace AxonaBridge

namespace Server

/-- What an introduction reaches outside the cohort of the newcomer, as the server comes to record it. -/
def reaches (cfg : Config) (s : Server) (conn : Conn) (peers : List ConnId) : Bool :=
  s.record.reachesOlder cfg.cohortMs conn.since peers

theorem reaches_congr {cfg : Config} {s u : Server} (hrecord : u.record = s.record) (conn : Conn)
    (peers : List ConnId) : u.reaches cfg conn peers = s.reaches cfg conn peers := by
  unfold reaches
  rw [hrecord]

/-- The table once a connection is let in. -/
abbrev joined (s : Server) (id : ConnId) : Server :=
  s.modifyConn id fun c => { c with helloTimer := false, admitted := true }

/-- Count an introduction, and whether it fell back to the whole list. -/
def tally (fellBack : Bool) (s : Server) : Server :=
  { s with
    nurseryIntros := s.nurseryIntros + 1
    nurseryFellBack := if fellBack then s.nurseryFellBack + 1 else s.nurseryFellBack }

namespace Agrees

variable {cfg : Config} {full : Bool} {io : Io} {s t : Server} (h : Agrees cfg full s t)

include h

/-! ### Introductions -/

omit h in
theorem compared_countUses (anchors : List ConnId) (s : Server) :
    (anchors.foldl (fun s aid =>
      s.modifyConn aid fun ac => { ac with anchorUses := ac.anchorUses + 1 }) s).compared cfg full =
        s.compared cfg full := by
  induction anchors generalizing s with
  | nil => rfl
  | cons aid anchors ih =>
      rw [List.foldl_cons, ih]
      refine compared_hint ?_ aid
      exact fun _ => rfl

omit h in
/-- Tests that read the same pass the same entries. -/
theorem filter_alike {es es' : List (ConnId × Conn)} {p p' : ConnId × Conn → Bool}
    (hes : List.Forall₂ (SameEntry cfg full) es es')
    (hp : ∀ e e', SameEntry cfg full e e' → p' e' = p e) :
    List.Forall₂ (SameEntry cfg full) (es.filter p) (es'.filter p') :=
  List.rel_filter (fun e e' he => iff_of_eq (congrArg (fun b => b = true) (hp e e' he).symm)) hes

theorem filter_entries {p : ConnId × Conn → Bool}
    (hp : ∀ e e', SameEntry cfg full e e' → p e' = p e) :
    List.Forall₂ (SameEntry cfg full) (s.connections.entries.filter p) (t.connections.entries.filter p) :=
  filter_alike h.entries hp

theorem length_eligible (id : ConnId) (r r' : Option JsString) :
    (AnchorSelect.eligible (Mirrors.anchorOptions cfg io id r') (Mirrors.candidates t)).length =
      (AnchorSelect.eligible (Mirrors.anchorOptions cfg io id r) (Mirrors.candidates s)).length := by
  unfold AnchorSelect.eligible AnchorSelect.admitted Mirrors.candidates Mirrors.anchorOptions
  rw [List.filter_map, List.filter_map, List.filter_map, List.filter_map, List.length_map,
    List.length_map, List.filter_filter, List.filter_filter]
  refine (h.filter_entries fun e e' he => ?_).length_eq.symm
  have hadm := he.2.read Conn.admitted fun _ => rfl
  have hsince := he.2.read Conn.since fun _ => rfl
  dsimp only [Function.comp_apply]
  rw [he.1, hadm, hsince]

variable (io) in
/-- The newcomers may claim different regions. -/
theorem introduce (id : ConnId) (r r' : Option JsString) :
    Agrees cfg full (s.introduce cfg io id r).2 (t.introduce cfg io id r').2 := by
  rw [Mirrors.introduce_eq, Mirrors.introduce_eq]
  split
  · dsimp only
    rw [AnchorSelect.fellBack_eq, AnchorSelect.fellBack_eq, h.length_eligible id r r']
    have hcounted : ∀ anchors anchors' : List ConnId, Agrees cfg full
        (anchors.foldl (fun s aid =>
          s.modifyConn aid fun ac => { ac with anchorUses := ac.anchorUses + 1 }) s)
        (anchors'.foldl (fun s aid =>
          s.modifyConn aid fun ac => { ac with anchorUses := ac.anchorUses + 1 }) t) := by
      intro anchors anchors'
      rw [Agrees, compared_countUses, compared_countUses, h.eq]
    exact (hcounted _ _).update (tally _) (tally _) fun _ => rfl
  · exact h

theorem registry (hfull : full = true) : t.registry = s.registry := by
  have hfield := congrArg Server.registry h.eq
  subst hfull
  exact hfield

variable (io) in
theorem graduatedSample (id : ConnId) :
    (full = true → (t.graduatedSample cfg io id).1 = (s.graduatedSample cfg io id).1) ∧
      Agrees cfg full (s.graduatedSample cfg io id).2 (t.graduatedSample cfg io id).2 := by
  cases full with
  | true =>
      have hregistry := h.registry rfl
      unfold Server.graduatedSample
      rw [hregistry, h.connNodeHex]
      split
      · refine ⟨fun _ => rfl, ?_⟩
        exact h.update (fun u => { u with registry := _ }) (fun u => { u with registry := _ })
          fun _ => rfl
      · exact ⟨fun _ => rfl, h⟩
  | false =>
      have hhidden : ∀ u : Server, (u.graduatedSample cfg io id).2.compared cfg false =
          u.compared cfg false := by
        intro u
        unfold Server.graduatedSample
        split <;> rfl
      refine ⟨fun hfull => (by cases hfull), ?_⟩
      rw [Agrees, hhidden, hhidden, h.eq]

/-- What is recorded is the same, or not compared. -/
theorem recordIntroduction (id : ConnId) (conn conn' : Conn) (peers peers' : List ConnId)
    (listed listed' : Bool)
    (hreach : keepsIntro cfg full = true →
      t.reaches cfg conn' peers' = s.reaches cfg conn peers ∧ listed' = listed) :
    Agrees cfg full (s.recordIntroduction cfg id conn peers listed)
      (t.recordIntroduction cfg id conn' peers' listed') := by
  unfold Server.recordIntroduction
  unfold Server.reaches at hreach
  rw [reachesOlder_record, reachesOlder_record] at hreach
  dsimp only
  cases hkept : keepsIntro cfg full with
  | false =>
      have hhint : ∀ (u : Server) (i : Conn → Option Intro),
          (u.modifyConn id fun c => { c with intro := i c }).compared cfg full =
            u.compared cfg full := by
        intro u i
        refine compared_hint (fun c => ?_) id
        rw [hkept]
        rfl
      rw [Agrees, hhint, hhint, h.eq]
  | true =>
      obtain ⟨holder, rfl⟩ := hreach hkept
      rw [holder]
      refine h.modifyConn id fun c => ?_
      rw [hkept]
      rfl

variable (io) in
theorem sendPeerList (id : ConnId) (conn conn' : Conn) (peers peers' : List ConnId)
    (hreach : keepsIntro cfg full = true → t.reaches cfg conn' peers' = s.reaches cfg conn peers) :
    (full = true → (t.sendPeerList cfg io id conn' peers').1 = (s.sendPeerList cfg io id conn peers).1) ∧
      Agrees cfg full (s.sendPeerList cfg io id conn peers).2
        (t.sendPeerList cfg io id conn' peers').2 := by
  obtain ⟨hsample, hsampled⟩ := h.graduatedSample io id
  have hrecorded := hsampled.recordIntroduction id conn conn' peers peers'
    ((s.graduatedSample cfg io id).1 ≠ []) ((t.graduatedSample cfg io id).1 ≠ []) fun hkept => by
      have hfull : full = true := (Bool.and_eq_true_iff.mp hkept).1
      rw [reaches_congr (record_graduatedSample _), reaches_congr (record_graduatedSample _),
        hsample hfull]
      exact ⟨hreach hkept, rfl⟩
  unfold Server.sendPeerList
  dsimp only
  refine ⟨hsample, (hrecorded.sendAlike id ?_ ?_).2⟩
  · cases full with
    | true =>
        rw [hsample rfl]
        rfl
    | false => rfl
  · rfl

theorem releaseLater (id : ConnId) {conn conn' : Conn} (hconn : SameConn cfg full conn conn') :
    Agrees cfg full (s.releaseLater cfg id conn) (t.releaseLater cfg id conn') := by
  have hversion := hconn.read Conn.peerVersion fun _ => rfl
  unfold Server.releaseLater
  dsimp only
  rw [hversion]
  refine Agrees.modifyConn ?_ id fun _ => rfl
  refine Agrees.logInfo ?_ _ _
  exact h.update (fun u => { u with turnRefreshOnlyTotal := u.turnRefreshOnlyTotal + 1 })
    (fun u => { u with turnRefreshOnlyTotal := u.turnRefreshOnlyTotal + 1 }) fun _ => rfl

variable (io) in
theorem announce (id : ConnId) (conn conn' : Conn)
    (hreach : keepsIntro cfg full = true →
      t.reaches cfg conn' (t.introductions cfg io id conn') =
        s.reaches cfg conn (s.introductions cfg io id conn)) :
    Agrees cfg full (s.announce cfg io id conn) (t.announce cfg io id conn') := by
  have hintroduced := h.introduce io id conn.claimedRegion conn'.claimedRegion
  have hlisted := (hintroduced.sendPeerList io id conn conn' (s.introductions cfg io id conn)
    (t.introductions cfg io id conn') fun hkept => by
      rw [reaches_congr (record_introduce _ _), reaches_congr (record_introduce _ _)]
      exact hreach hkept).2
  obtain ⟨hcount, hannounced⟩ := hlisted.broadcast io (.peerJoined id io.now) (some id)
  unfold Server.announce
  dsimp only
  rw [withReserved_introduce, withReserved_introduce, hcount]
  exact (hannounced.logAnnounce _ _ _ _).withNodeOf fun n => n.sendHello id io.nonce

variable (io) in
theorem admitConnection (id : ConnId) {conn conn' : Conn} (hconn : SameConn cfg full conn conn')
    (hreach : keepsIntro cfg full = true → conn.turnRefreshOnly = false →
      (t.joined id).reaches cfg conn' ((t.joined id).introductions cfg io id conn') =
        (s.joined id).reaches cfg conn ((s.joined id).introductions cfg io id conn)) :
    Agrees cfg full (s.admitConnection cfg io id conn) (t.admitConnection cfg io id conn') := by
  have hadmitted : Agrees cfg full (s.joined id) (t.joined id) := h.modifyConn id fun _ => rfl
  have hrefresh := hconn.read Conn.turnRefreshOnly fun _ => rfl
  have hwelcomed := (hadmitted.sendTo cfg io id (.welcome id io.now cfg.version cfg.kernelVersion
    io.nonce (makeTurnCredential cfg io))).2
  unfold Server.admitConnection
  dsimp only
  rw [hrefresh]
  split
  · exact hwelcomed.releaseLater id hconn
  · rename_i hfull
    refine hwelcomed.announce io id conn conn' fun hkept => ?_
    rw [reaches_congr (record_sendTo _ _), reaches_congr (record_sendTo _ _),
      introductions_congr (connections_sendTo _ _) (node_sendTo _ _),
      introductions_congr (connections_sendTo _ _) (node_sendTo _ _)]
    exact hreach hkept (Bool.eq_false_of_not_eq_true hfull)

theorem refuse (id : ConnId) (r : Refusal) :
    (t.refuse cfg io id r).2 = (s.refuse cfg io id r).2 ∧
      Agrees cfg full (s.refuse cfg io id r).1 (t.refuse cfg io id r).1 := by
  obtain ⟨herror, hlogged⟩ := h.tryLog .error r.event r.fields
  unfold Server.refuse
  cases hs : s.tryLog cfg .error r.event r.fields with
  | mk s' e =>
      cases ht : t.tryLog cfg .error r.event r.fields with
      | mk t' e' =>
          rw [hs, ht] at herror hlogged
          dsimp only at herror hlogged
          subst herror
          cases e' with
          | some e => exact ⟨rfl, hlogged⟩
          | none =>
              dsimp only
              split
              · exact ⟨rfl, hlogged⟩
              · exact ⟨rfl, hlogged.wsClose io _ _ _⟩

end Agrees

/-! ### Client-hellos -/

/-- Two messages of one meaning, but for the `nodeId` of a client-hello. -/
structure SameButClaim (msg msg' : JsVal) : Prop where
  null : msg' = .null ↔ msg = .null
  field : ∀ name, name ≠ js "nodeId" → msg'.field name = msg.field name
  hello : JsVal.asString (msg.field (js "type")) = some (js "client-hello")

theorem SameButClaim.gate {cfg : Config} {msg msg' : JsVal} (h : SameButClaim msg msg') :
    gate cfg msg' = gate cfg msg := by
  unfold Server.gate
  rw [h.field _ (by decide), h.field _ (by decide), h.field _ (by decide)]

theorem SameButClaim.refusal {cfg : Config} {id : ConnId} {msg msg' : JsVal}
    (h : SameButClaim msg msg') (verdict : GateVerdict) :
    refusal cfg id msg' verdict = refusal cfg id msg verdict := by
  unfold Server.refusal
  rw [h.field _ (by decide)]

namespace Agrees

variable {cfg : Config} {full : Bool} {io : Io} {s t : Server} (h : Agrees cfg full s t)

include h

omit h in
theorem ofHello {conn conn' : Conn} {msg msg' : JsVal} (hconn : SameConn cfg full conn conn')
    (hmsg : SameButClaim msg msg') :
    SameConn cfg full (Conn.ofHello conn msg) (Conn.ofHello conn' msg') := by
  have hread : Conn.ofHello conn' msg' = { Conn.ofHello conn' msg with
      claimedRegion := claimedRegion (JsVal.asString (msg'.field (js "nodeId"))) } := by
    have hversion := hmsg.field (js "version") (by decide)
    have hkernel := hmsg.field (js "kernelVersion") (by decide)
    have hintent := hmsg.field (js "intent") (by decide)
    unfold Conn.ofHello
    rw [hversion, hkernel, hintent]
  have hsame : SameConn cfg full (Conn.ofHello conn msg) (Conn.ofHello conn' msg) :=
    hconn.change (fun c => { Conn.ofHello c msg with claimedRegion := none }) fun _ => rfl
  rw [hread]
  exact hsame

omit h in
/-- The list reaches as far after a row of the log. -/
theorem reaches_logged {u : Server} (event : JsString) (fields : List (JsString × LogVal)) (id : ConnId)
    (conn : Conn) :
    ((u.logInfo cfg event fields).joined id).reaches cfg conn
        (((u.logInfo cfg event fields).joined id).introductions cfg io id conn) =
      (u.joined id).reaches cfg conn ((u.joined id).introductions cfg io id conn) := by
  have hrecord : ((u.logInfo cfg event fields).joined id).record = (u.joined id).record := by
    rw [record_modifyConn (g := fun m => { m with admitted := true }) fun _ _ => rfl,
      record_modifyConn (g := fun m => { m with admitted := true }) fun _ _ => rfl, record_logInfo]
  rw [reaches_congr hrecord,
    introductions_congr (connections_modifyConn_congr (connections_logInfo _ _) id _)
      (by rw [node_modifyConn, node_logInfo, node_modifyConn])]

variable (io) in
theorem onClientHello (id : ConnId) {conn conn' : Conn} {msg msg' : JsVal}
    (hconn : SameConn cfg full conn conn') (hmsg : SameButClaim msg msg')
    (hreach : keepsIntro cfg full = true → Passes cfg msg →
      (Conn.ofHello conn msg).turnRefreshOnly = false →
        ((t.modifyConn id fun _ => Conn.ofHello conn' msg').joined id).reaches cfg
            (Conn.ofHello conn' msg')
            (((t.modifyConn id fun _ => Conn.ofHello conn' msg').joined id).introductions cfg io id
              (Conn.ofHello conn' msg')) =
          ((s.modifyConn id fun _ => Conn.ofHello conn msg).joined id).reaches cfg
            (Conn.ofHello conn msg)
            (((s.modifyConn id fun _ => Conn.ofHello conn msg).joined id).introductions cfg io id
              (Conn.ofHello conn msg))) :
    Agrees cfg full (s.onClientHello cfg io id conn msg).1 (t.onClientHello cfg io id conn' msg').1 := by
  have hread := ofHello hconn hmsg
  have hheard := h.replace id hread
  unfold Server.onClientHello
  dsimp only
  rw [hmsg.gate]
  rw [hmsg.refusal]
  split
  · exact (hheard.refuse id _).2
  · rename_i peerVersion ns floor hnone hpassed
    refine (hheard.logInfo _ _).admitConnection io id hread fun hkept hfull => ?_
    rw [reaches_logged, reaches_logged]
    exact hreach hkept ⟨_, _, _, hpassed⟩ hfull
  · exact hheard

/-! ### Graduation -/

variable (io) in
theorem noteGraduated (nh : Option JsString) :
    Agrees cfg full (s.noteGraduated io nh) (t.noteGraduated io nh) := by
  cases nh with
  | none => exact h
  | some nh =>
      cases full with
      | true =>
          exact h.update (fun u => u.noteGraduated io (some nh))
            (fun u => u.noteGraduated io (some nh)) fun _ => rfl
      | false => exact h.update (fun u => u.noteGraduated io (some nh)) (fun u => u) fun _ => rfl

variable (io) in
/-- A close that remembers the identity it releases. -/
theorem closeAndNote (connId : ConnId) (reason : JsString) :
    Agrees cfg full
      ((s.wsClose io connId AxonaBridge.graduated reason).noteGraduated io (s.connNodeHex connId))
      ((t.wsClose io connId AxonaBridge.graduated reason).noteGraduated io (t.connNodeHex connId)) := by
  rw [h.connNodeHex]
  exact (h.wsClose io _ _ _).noteGraduated io _

section Aside

variable (cfg io)

omit h

theorem compared_log_aside (s : Server) {row : LogRow} (hrow : row.compared false = none) :
    (s.log cfg row).compared cfg false = s.compared cfg false := by
  unfold Server.log
  split
  · rfl
  · have hout : (Out.log row).compared false = none := congrArg (Option.map Out.log) hrow
    unfold compared
    dsimp only
    rw [List.filterMap_append, List.filterMap_cons_none hout]
    exact congrArg (fun out => { s.compared cfg false with out }) (List.append_nil _)

theorem compared_graduate_aside (s : Server) (pick : GraduationSelect.Pick) (c : Conn) (admitted : Nat) :
    (s.graduate cfg io pick c admitted).compared cfg false = s.compared cfg false := by
  have hclose : (s.wsClose io pick.id AxonaBridge.graduated graduationReason).compared cfg false =
      s.compared cfg false := by
    unfold Server.wsClose compared
    dsimp only
    rw [List.filterMap_append]
    exact congrArg (fun out => { s.compared cfg false with out }) (List.append_nil _)
  have hnote : ∀ (u : Server) (nh : Option JsString),
      (u.noteGraduated io nh).compared cfg false = u.compared cfg false := by
    intro u nh
    cases nh <;> rfl
  have hcohort : ∀ u : Server, (u.noteCohortOnly cfg io pick c).compared cfg false =
      u.compared cfg false := by
    intro u
    unfold Server.noteCohortOnly
    split
    · exact compared_log_aside cfg _ rfl
    · rfl
  unfold Server.graduate
  exact (hcohort _).trans ((compared_log_aside cfg _ rfl).trans ((hnote _ _).trans hclose))

/-- With the graduations left aside, `maybeGraduate` does nothing. -/
theorem compared_maybeGraduate_aside (s : Server) :
    (s.maybeGraduate cfg io).compared cfg false = s.compared cfg false := by
  have hfrom : ∀ (gated : List (ConnId × Conn)) (held admitted : Nat),
      (s.graduateFrom cfg io gated held admitted).compared cfg false = s.compared cfg false := by
    intro gated held admitted
    unfold Server.graduateFrom
    dsimp only
    split
    · rfl
    · split
      · rfl
      · exact compared_graduate_aside cfg io _ _ _ _
  rw [maybeGraduate_eq]
  split
  · rfl
  · split
    · rfl
    · split
      · rfl
      · exact hfrom _ _ _

end Aside

theorem introducedOutsideCohort {e e' : ConnId × Conn} (hkept : keepsIntro cfg full = true)
    (he : SameEntry cfg full e e') :
    t.introducedOutsideCohort cfg e'.1 e'.2 = s.introducedOutsideCohort cfg e.1 e.2 := by
  have hintro : e'.2.intro = e.2.intro := he.2.read Conn.intro fun c => by
    rw [hkept]
    rfl
  unfold Server.introducedOutsideCohort
  rw [he.1, hintro, h.node]

theorem heldBack {e e' : ConnId × Conn} (hkept : keepsIntro cfg full = true)
    (he : SameEntry cfg full e e') : t.heldBack cfg io e' = s.heldBack cfg io e := by
  have hsince := he.2.read Conn.since fun _ => rfl
  unfold Server.heldBack
  rw [h.introducedOutsideCohort hkept he, hsince]

omit h in
theorem freshMeshBound {c c' : Conn} (hc : SameConn cfg full c c') :
    Server.freshMeshBound cfg io c' = Server.freshMeshBound cfg io c := by
  have hmesh := hc.read Conn.meshBound fun _ => rfl
  have hat := hc.read Conn.meshBoundAt fun _ => rfl
  unfold Server.freshMeshBound
  rw [hmesh, hat]

theorem describe (hfull : full = true) {e e' : ConnId × Conn} (he : SameEntry cfg full e e') :
    t.describe cfg io e' = s.describe cfg io e := by
  have hrecent : t.graduatedRecently = s.graduatedRecently := by
    have hfield := congrArg Server.graduatedRecently h.eq
    subst hfull
    exact hfield
  have hsince := he.2.read Conn.since fun _ => rfl
  have hversion := he.2.read Conn.effectiveVersion fun _ => rfl
  unfold Server.describe
  rw [he.1, h.connRegion, h.connNodeHex, hrecent, freshMeshBound he.2, hsince, hversion]

theorem graduationCandidates :
    List.Forall₂ (SameEntry cfg full) s.graduationCandidates t.graduationCandidates :=
  h.filter_entries fun _ _ he => he.2.read Conn.admitted fun _ => rfl

theorem cohortSizeOf {c c' : Conn} (hc : SameConn cfg full c c') :
    t.cohortSizeOf cfg c' = s.cohortSizeOf cfg c := by
  have hsince := hc.read Conn.since fun _ => rfl
  unfold Server.cohortSizeOf
  rw [List.countP_eq_length_filter, List.countP_eq_length_filter, hsince]
  refine (h.filter_entries fun e e' he => ?_).length_eq.symm
  have hadm := he.2.read Conn.admitted fun _ => rfl
  have hother := he.2.read Conn.since fun _ => rfl
  rw [hadm, hother]

theorem noteCohortOnly (hfull : full = true) (pick : GraduationSelect.Pick) {c c' : Conn}
    (hc : SameConn cfg full c c') :
    Agrees cfg full (s.noteCohortOnly cfg io pick c) (t.noteCohortOnly cfg io pick c') := by
  have hsince := hc.read Conn.since fun _ => rfl
  unfold Server.noteCohortOnly
  cases hgate : cfg.graduationGateOn with
  | false =>
      rw [if_neg (by simp), if_neg (by simp)]
      exact h
  | true =>
      have hkept : keepsIntro cfg full = true := by
        unfold keepsIntro
        rw [hfull, hgate]
        rfl
      have hentry : SameEntry cfg full (pick.id, c) (pick.id, c') := ⟨rfl, hc⟩
      have houtside := h.introducedOutsideCohort hkept hentry
      dsimp only at houtside
      rw [houtside]
      split
      · subst hfull
        have hcounted := h.update
          (fun u => { u with cohortOnlyGraduated := u.cohortOnlyGraduated + 1 })
          (fun u => { u with cohortOnlyGraduated := u.cohortOnlyGraduated + 1 }) fun _ => rfl
        rw [h.cohortSizeOf hc, hsince]
        exact hcounted.logInfo _ _
      · exact h

theorem graduate (hfull : full = true) (pick : GraduationSelect.Pick) {c c' : Conn}
    (hc : SameConn cfg full c c') (admitted : Nat) :
    Agrees cfg full (s.graduate cfg io pick c admitted) (t.graduate cfg io pick c' admitted) := by
  have hsince := hc.read Conn.since fun _ => rfl
  have hversion := hc.read Conn.kernelVersion fun _ => rfl
  subst hfull
  have hstamped := (h.closeAndNote io pick.id graduationReason).update
    (fun u => { u with lastGraduationAt := io.now, graduatedTotal := u.graduatedTotal + 1 })
    (fun u => { u with lastGraduationAt := io.now, graduatedTotal := u.graduatedTotal + 1 })
    fun _ => rfl
  unfold Server.graduate
  dsimp only
  rw [hsince, hversion]
  refine Agrees.update ?_ (fun u => u.pruneCooldowns cfg io) (fun u => u.pruneCooldowns cfg io)
    fun _ => rfl
  refine Agrees.noteCohortOnly ?_ rfl pick hc
  exact Agrees.logInfo hstamped _ _

theorem graduateFrom (hfull : full = true) {gated gated' : List (ConnId × Conn)}
    (hgated : List.Forall₂ (SameEntry cfg full) gated gated') (held admitted : Nat) :
    Agrees cfg full (s.graduateFrom cfg io gated held admitted)
      (t.graduateFrom cfg io gated' held admitted) := by
  have hcounted : Agrees cfg full { s with gateHeldTotal := s.gateHeldTotal + held }
      { t with gateHeldTotal := t.gateHeldTotal + held } := by
    subst hfull
    exact h.update (fun u => { u with gateHeldTotal := u.gateHeldTotal + held })
      (fun u => { u with gateHeldTotal := u.gateHeldTotal + held }) fun _ => rfl
  have hdescribed :
      gated'.map ({ t with gateHeldTotal := t.gateHeldTotal + held }.describe cfg io) =
        gated.map ({ s with gateHeldTotal := s.gateHeldTotal + held }.describe cfg io) := by
    rw [← List.forall₂_eq_eq_eq, List.forall₂_map_left_iff, List.forall₂_map_right_iff]
    exact hgated.flip.imp fun e' e he => hcounted.describe hfull he
  unfold Server.graduateFrom
  dsimp only
  rw [hdescribed]
  split
  · exact hcounted
  · rename_i pick _
    rcases h.get_cases pick.id with ⟨hs, ht⟩ | ⟨c, c', hs, ht, hc⟩
    · rw [hs, ht]
      exact hcounted
    · rw [hs, ht]
      exact hcounted.graduate hfull pick hc admitted

variable (io) in
theorem maybeGraduate : Agrees cfg full (s.maybeGraduate cfg io) (t.maybeGraduate cfg io) := by
  cases hfull : full with
  | false =>
      subst hfull
      rw [Agrees, compared_maybeGraduate_aside, compared_maybeGraduate_aside, h.eq]
  | true =>
      have hlast : t.lastGraduationAt = s.lastGraduationAt := by
        have hfield := congrArg Server.lastGraduationAt h.eq
        subst hfull
        exact hfield
      have hcandidates := h.graduationCandidates
      subst hfull
      rw [maybeGraduate_eq, maybeGraduate_eq, hlast, hcandidates.length_eq]
      split
      · exact h
      · split
        · exact h
        · split
          · exact h
          · cases hgate : cfg.graduationGateOn with
            | false =>
                rw [if_neg Bool.false_ne_true, if_neg Bool.false_ne_true, if_neg Bool.false_ne_true,
                  if_neg Bool.false_ne_true]
                exact h.graduateFrom rfl hcandidates _ _
            | true =>
                have hkept : keepsIntro cfg true = true := hgate
                have hheld : t.graduationCandidates.countP (t.heldBack cfg io) =
                    s.graduationCandidates.countP (s.heldBack cfg io) := by
                  rw [List.countP_eq_length_filter, List.countP_eq_length_filter]
                  exact (filter_alike hcandidates fun e e' he => h.heldBack hkept he).length_eq.symm
                rw [if_pos rfl, if_pos rfl, if_pos rfl, if_pos rfl, hheld]
                refine h.graduateFrom rfl ?_ _ _
                exact filter_alike hcandidates fun e e' he => by rw [h.heldBack hkept he]

end Agrees

end Server

end AxonaBridge
