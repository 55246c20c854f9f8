import AxonaBridge.BridgeDeparture
import AxonaBridge.BridgeFarewell
import AxonaBridge.BridgeReach
import AxonaBridge.BridgeRoster
import AxonaBridge.Hub

/-!
# The bridge is a hub

Who is connected, who is admitted and for what, and what every connection is told of it is what a hub
makes of it that sees nothing but the connections that open, are admitted, ask for a list and go. The
frames, the timers, the mesh and the embedded node are of no concern to it.
-/

open JsText

namespace AxonaBridge

/-- What a frame tells of the hub. -/
def Frame.news : Frame → Option (Hub.News ConnId)
  | .versionGate .. => some .gate
  | .welcome .. => some .welcome
  | .peerList .. => some .list
  | .peerJoined connId _ => some (.joined connId)
  | .peerLeft connId .. => some (.left connId)
  | _ => none

def Mark.rank (m : Mark) : Hub.Rank :=
  if m.admitted then if m.turnRefreshOnly then .guest else .member else .pending

namespace Server

variable {cfg : Config} {io : Io} {s t u : Server} {e : Event} {x y : ConnId} {conn : Conn} {json : JsVal}

/-! ### News -/

/-- What a connection has been told. -/
def newsTo (s : Server) (y : ConnId) : List (Hub.News ConnId) := (s.framesTo y).filterMap Frame.news

theorem Hears.newsTo {frames : List Frame} (h : Hears y s t frames) :
    t.newsTo y = s.newsTo y ++ frames.filterMap Frame.news := by
  unfold Server.newsTo
  rw [h, List.filterMap_append]

/-- What tells a connection nothing. -/
theorem newsTo_of_emits {P : ConnId → Frame → Prop} (h : Emits P s t)
    (hP : ∀ frame, P y frame → frame.news = none) : t.newsTo y = s.newsTo y := by
  obtain ⟨frames, hheard, hall⟩ := exists_hears h y
  rw [hheard.newsTo, List.filterMap_eq_nil_iff.mpr fun frame hmem => hP frame (hall frame hmem).1,
    List.append_nil]

/-- What a frame tells is of the connection it is sent to, or of one that joins or leaves. -/
inductive Tells (cfg : Config) (s : Server) (y : ConnId) : Event → Hub.News ConnId → Prop
  | gate : Tells cfg s y (.connect y) .gate
  | hailed {conn : Conn} {json : JsVal} (h : Hails cfg s y conn json) (n : Hub.News ConnId) :
      Tells cfg s y (.message y (.text (.ok json))) n
  | relisted {conn : Conn} {json : JsVal} (h : Receives s y conn json (js "peer-list-request")) :
      Tells cfg s y (.message y (.text (.ok json))) .list
  | joined {x : ConnId} {conn : Conn} {json : JsVal} (h : Introduces cfg s x conn json)
      (hadm : s.IsAdmitted y) (hne : y ≠ x) : Tells cfg s y (.message x (.text (.ok json))) (.joined x)
  | left {x : ConnId} (code : Nat) (reason : JsString) (hadm : s.IsAdmitted y) (hne : y ≠ x) :
      Tells cfg s y (.closed x code reason) (.left x)

theorem Says.tells {A : ConnId → Prop} {frame : Frame} {n : Hub.News ConnId}
    (h : Says cfg io A s e y frame) (hn : frame.news = some n) : Tells cfg s y e n := by
  cases h with
  | versionGate => exact Option.some.inj hn ▸ .gate
  | welcome h =>
      obtain ⟨-, json, rfl, -⟩ := id h
      obtain ⟨conn, hget⟩ := Option.isSome_iff_exists.mp
        (has_iff_admission.mpr (show (s.admission y).isSome = true by rw [h.1]; rfl))
      exact .hailed ⟨h, hget⟩ n
  | introduction h graduated => exact .hailed h.hails n
  | joined h hadm hne => exact Option.some.inj hn ▸ .joined h hadm hne
  | relisted h graduated => exact Option.some.inj hn ▸ .relisted h
  | left code reason hne hadm hsend => exact Option.some.inj hn ▸ .left code reason hadm hne
  | _ => cases hn

/-- What an event tells a connection. -/
theorem exists_news {A : ConnId → Prop} (h : Emits (Says cfg io A s e) s t) (y : ConnId) :
    ∃ ns, t.newsTo y = s.newsTo y ++ ns ∧ ∀ n ∈ ns, Tells cfg s y e n := by
  obtain ⟨frames, hheard, hall⟩ := exists_hears h y
  refine ⟨_, hheard.newsTo, fun n hmem => ?_⟩
  obtain ⟨frame, hframe, hn⟩ := List.mem_filterMap.mp hmem
  exact (hall frame hframe).1.tells hn

/-! ### An announcement -/

/-- A connection is told one thing at most. -/
def Brief (y : ConnId) (s t : Server) : Prop := ∃ ns, t.newsTo y = s.newsTo y ++ ns ∧ ns.length ≤ 1

theorem Brief.of_eq (h : t.newsTo y = s.newsTo y) : Brief y s t :=
  ⟨[], by rw [h, List.append_nil], Nat.zero_le 1⟩

theorem Brief.congr_left (h : Brief y t u) (hquiet : t.newsTo y = s.newsTo y) : Brief y s u := by
  obtain ⟨ns, hns, hle⟩ := h
  exact ⟨ns, by rw [hns, hquiet], hle⟩

theorem Brief.congr_right (h : Brief y s t) (hquiet : u.newsTo y = t.newsTo y) : Brief y s u := by
  obtain ⟨ns, hns, hle⟩ := h
  exact ⟨ns, by rw [hquiet, hns], hle⟩

theorem newsTo_of_out_eq (h : t.out = s.out) : t.newsTo y = s.newsTo y := by
  unfold newsTo framesTo
  rw [h]

theorem newsTo_sendTo_of_ne {msg : Frame} (hne : y ≠ x) : (s.sendTo cfg io x msg).2.newsTo y = s.newsTo y :=
  newsTo_of_emits (P := fun recipient _ => recipient = x) (emits_sendTo fun _ => rfl) fun _ heq => absurd heq hne

theorem newsTo_logInfo (event : JsString) (fields : List (JsString × LogVal)) :
    (s.logInfo cfg event fields).newsTo y = s.newsTo y :=
  newsTo_of_emits (P := fun _ _ => False) (emits_logInfo event fields) fun _ h => h.elim

theorem brief_broadcast (msg : Frame) (exceptId : Option ConnId) :
    Brief y s (s.broadcast cfg io msg exceptId).2 := by
  rw [broadcast_eq]
  obtain ⟨frames, hheard, hframes⟩ := @hears_broadcasts cfg io y msg exceptId s.connections.entries
    s.connections.nodup (0, s)
  refine ⟨_, hheard.newsTo, ?_⟩
  rcases hframes with rfl | ⟨-, rfl⟩
  · exact Nat.zero_le 1
  · exact List.length_filterMap_le _ _

theorem newsTo_withNode (r : Node × List NodeOut) : (s.withNode cfg io r).newsTo y = s.newsTo y := by
  refine newsTo_of_emits (P := fun _ frame => frame.news = none) (emits_withNode fun o _ => ?_) fun _ h => h
  cases o with
  | send connId payload => exact fun _ => rfl
  | signal connId sender payload => exact fun _ => rfl
  | close connId reason => trivial
  | log row => trivial

theorem brief_announce (hne : y ≠ x) : Brief y s (s.announce cfg io x conn) := by
  unfold announce
  dsimp only
  refine Brief.congr_right ?_ (newsTo_withNode _)
  refine Brief.congr_right ?_ (newsTo_logInfo _ _)
  refine (brief_broadcast _ _).congr_left ?_
  have hlist : ∀ peers,
      ((s.introduce cfg io x conn.claimedRegion).2.sendPeerList cfg io x conn peers).2.newsTo y =
        (s.introduce cfg io x conn.claimedRegion).2.newsTo y := fun peers =>
    newsTo_of_emits (P := fun recipient _ => recipient = x) (emits_sendPeerList fun _ => rfl)
      fun _ heq => absurd heq hne
  rw [hlist]
  exact newsTo_of_out_eq (out_introduce _ _)

theorem brief_admitConnection (hne : y ≠ x) : Brief y s (s.admitConnection cfg io x conn) := by
  unfold admitConnection
  dsimp only
  split
  · refine Brief.of_eq ?_
    rw [newsTo_of_emits (P := fun _ _ => False) (emits_releaseLater _ _) fun _ h => h.elim,
      newsTo_sendTo_of_ne hne]
    rfl
  · refine (brief_announce hne).congr_left ?_
    rw [newsTo_sendTo_of_ne hne]
    rfl

theorem brief_onMessage (h : Hails cfg s x conn json) (hne : y ≠ x) :
    Brief y s (s.onMessage cfg io x (.text (.ok json))).1 := by
  obtain ⟨hpending, json', heq, htype, peerVersion, ns, floor, hpassed⟩ := h.admits
  cases heq
  have hadm : conn.admitted = false := by
    rw [admission, h.get, Option.map_some] at hpending
    exact Option.some.inj hpending
  rw [onMessage_hello h.get hadm htype]
  unfold onClientHello
  dsimp only
  rw [refusal_eq_none_iff.mpr ⟨_, _, _, hpassed⟩, hpassed]
  dsimp only
  refine (brief_admitConnection hne).congr_left ?_
  rw [newsTo_logInfo]
  rfl

/-! ### What each act tells -/

theorem mem_news_of_sent {frame : Frame} {n : Hub.News ConnId} {ns : List (Hub.News ConnId)}
    (h : Sent s t y frame) (hn : frame.news = some n) (hns : t.newsTo y = s.newsTo y ++ ns) : n ∈ ns := by
  obtain ⟨added, hout, hmem⟩ := h
  have hheard : Hears y s t (added.filterMap (Out.frameTo y)) := by
    unfold Hears framesTo
    rw [hout, List.filterMap_append]
  rw [List.append_cancel_left (hns.symm.trans hheard.newsTo)]
  exact List.mem_filterMap.mpr ⟨frame, List.mem_filterMap.mpr ⟨_, hmem, if_pos rfl⟩, hn⟩

/-- Where it is told one thing at most, it is told what it was sent and nothing besides. -/
theorem Brief.newsTo {n : Hub.News ConnId} {p : Bool} (hbrief : Brief y s t)
    (hall : ∃ ns, t.newsTo y = s.newsTo y ++ ns ∧ ∀ m ∈ ns, m = n ∧ p = true)
    (hsent : p = true → ∃ frame, Sent s t y frame ∧ frame.news = some n) :
    t.newsTo y = s.newsTo y ++ if p then [n] else [] := by
  obtain ⟨ns, hns, hle⟩ := hbrief
  obtain ⟨ns', hns', hall⟩ := hall
  obtain rfl := List.append_cancel_left (hns.symm.trans hns')
  rw [hns]
  refine congrArg _ ?_
  match ns, hle with
  | [], _ =>
      cases p with
      | false => rfl
      | true =>
          obtain ⟨frame, hframe, hn⟩ := hsent rfl
          exact absurd (mem_news_of_sent hframe hn hns) List.not_mem_nil
  | [m], _ =>
      obtain ⟨rfl, rfl⟩ := hall m (List.mem_singleton_self m)
      rfl

/-! ### Ranks -/

/-- What a connection is to the bridge. -/
def rank (s : Server) (y : ConnId) : Option Hub.Rank := (s.record.marks y).map Mark.rank

theorem admission_eq_rank : s.admission y = (s.rank y).map Hub.Rank.admitted := by
  rw [rank, marks_record, Option.map_map, Option.map_map, admission]
  refine congrArg (fun g => Option.map g _) (funext fun c => ?_)
  change c.admitted = c.mark.rank.admitted
  unfold Mark.rank
  split
  · rename_i hadm
    rw [show c.admitted = true from hadm]
    split <;> rfl
  · rename_i hadm
    exact Bool.eq_false_iff.mpr hadm

theorem isAdmitted_iff_rank : s.IsAdmitted y ↔ (s.rank y).any Hub.Rank.admitted = true := by
  rw [isAdmitted_iff, admission_eq_rank]
  cases s.rank y with
  | none => exact ⟨fun h => (by cases h), fun h => (by cases h)⟩
  | some r => exact ⟨fun h => Option.some.inj h, fun h => congrArg some h⟩

theorem rank_eq_pending_iff : s.rank y = some .pending ↔ s.admission y = some false := by
  rw [admission_eq_rank]
  cases s.rank y with
  | none => exact ⟨fun h => (by cases h), fun h => (by cases h)⟩
  | some r => cases r <;> exact ⟨fun h => (by cases h <;> rfl), fun h => (by cases h <;> rfl)⟩

theorem isSome_rank : (s.rank y).isSome = s.connections.has y := by
  rw [rank, Option.isSome_map, marks_record, Option.isSome_map]
  rfl

/-- A step that neither opens, admits nor closes leaves every connection what it is. -/
theorem rank_step_of_quiet (hconnect : ∀ x, e ≠ .connect x)
    (hclosed : ∀ x code reason, e ≠ .closed x code reason)
    (hhails : ∀ x conn json, e = .message x (.text (.ok json)) → ¬Hails cfg s x conn json) (y : ConnId) :
    (s.step cfg io e).rank y = s.rank y := by
  unfold rank
  have hremembers := remembers_step cfg io s e
  generalize (s.step cfg io e).record = r at hremembers
  have hmodify : ∀ {f : Mark → Mark} {x : ConnId},
      (∀ m, s.record.marks x = some m → (f m).rank = m.rank) →
      ((s.record.modify x f).marks y).map Mark.rank = (s.record.marks y).map Mark.rank := by
    intro f x hf
    unfold Record.modify
    dsimp only
    split
    · rename_i hid
      rw [hid]
      cases hm : s.record.marks x with
      | none => rfl
      | some m => exact congrArg some (hf m hm)
    · rfl
  cases hremembers with
  | connect x => exact absurd rfl (hconnect x)
  | closed x code reason => exact absurd rfl (hclosed x code reason)
  | grace => exact hmodify fun _ _ => rfl
  | refused hget hadm =>
      refine hmodify fun m hm => ?_
      obtain rfl := Option.some.inj ((congrArg (Option.map Conn.mark) hget).symm.trans hm)
      unfold Mark.rank
      dsimp only
      rw [if_neg (by rw [show (Conn.mark _).admitted = false from hadm]; exact Bool.false_ne_true),
        if_neg (by rw [show (Conn.mark _).admitted = false from hadm]; exact Bool.false_ne_true)]
  | credential hadmits hget => exact absurd ⟨hadmits, hget⟩ (hhails _ _ _ rfl)
  | introduced hintro => exact absurd hintro.hails (hhails _ _ _ rfl)
  | relisted => exact hmodify fun _ _ => rfl
  | released => rw [Record.marks_noteGraduated]
  | graduated =>
      unfold afterGraduation
      dsimp only
      rw [Record.marks_noteGraduated]
  | _ => rfl

theorem rank_step_of_hails (h : Hails cfg s x conn json) (y : ConnId) :
    (s.step cfg io (.message x (.text (.ok json)))).rank y = if y = x then
      some (if (Conn.ofHello conn json.revive).turnRefreshOnly then .guest else .member) else s.rank y := by
  obtain ⟨hpending, json', heq, htype, hpass⟩ := h.admits
  cases heq
  have hadm : conn.admitted = false := by
    rw [admission, h.get, Option.map_some] at hpending
    exact Option.some.inj hpending
  have hmark : s.record.marks x = some conn.mark := by
    rw [marks_record, h.get]
    rfl
  change ((s.onMessage cfg io x (.text (.ok json))).1.record.marks y).map Mark.rank = _
  rw [onMessage_hello h.get hadm htype, (record_onClientHello (get_heard h.get) json.revive).2 hpass,
    record_heard h.get]
  by_cases hid : y = x
  · rw [if_pos hid, hid]
    split <;> rename_i hrefresh
    · rw [show (Conn.ofHello conn json.revive).turnRefreshOnly = true from hrefresh, Record.modify]
      dsimp only
      rw [if_pos rfl, hmark]
      rfl
    · rw [show (Conn.ofHello conn json.revive).turnRefreshOnly = false from Bool.eq_false_iff.mpr hrefresh,
        Record.introduce, Record.modify, Record.modify]
      dsimp only
      rw [if_pos rfl, if_pos rfl, hmark]
      rfl
  · rw [if_neg hid]
    split
    · rw [Record.modify]
      dsimp only
      rw [if_neg hid]
      rfl
    · rw [Record.introduce, Record.modify, Record.modify]
      dsimp only
      rw [if_neg hid, if_neg hid]
      rfl

theorem Hails.newsTo (h : Hails cfg s x conn json) (hsend : io.sendError x = none) :
    (s.step cfg io (.message x (.text (.ok json)))).newsTo x = s.newsTo x ++
      if (Conn.ofHello conn json.revive).turnRefreshOnly then [.welcome] else [.welcome, .list] := by
  obtain ⟨frames, hheard, hframes⟩ := hears_onMessage h hsend
  have hnews := hheard.newsTo
  rw [hframes] at hnews
  refine hnews.trans (congrArg _ ?_)
  split <;> rfl

theorem rank_onConnection : (s.onConnection cfg io x).rank y = if y = x then some .pending else s.rank y := by
  rw [rank, record_onConnection, Record.enter]
  dsimp only
  split <;> rfl

theorem rank_onClose (code : Nat) (reason : JsString) :
    (s.onClose cfg io x code reason).rank y = if y = x then none else s.rank y := by
  rw [rank, record_onClose, Record.enter]
  dsimp only
  split <;> rfl

end Server

namespace Bridge

variable {cfg : Config} {b : Bridge} {e : Io × Event} {x y : ConnId} {as : List (Hub.Act ConnId)}

/-- The hub after its acts has everyone at the rank the bridge has them at, and has had them told the
same. -/
structure IsHub (b : Bridge) (as : List (Hub.Act ConnId)) : Prop where
  rank : ∀ y, (Hub.run as).rank y = b.server.rank y
  news : ∀ y, b.server.newsTo y = Hub.heard y as
  seen : ∀ x ∈ (Hub.run as).seen, ∃ i, i ≤ b.connSeq ∧ x = mintConnId i

/-- Whom a step tells nothing. -/
theorem newsTo_step_of_silent (h : ∀ n, ¬Server.Tells cfg b.server y e.2 n) :
    (b.step cfg e).server.newsTo y = b.server.newsTo y := by
  obtain ⟨ns, hns, htells⟩ := Server.exists_news (@says_step cfg b e) y
  have hnil : ns = [] := List.eq_nil_iff_forall_not_mem.mpr fun n hmem => h n (htells n hmem)
  rw [hns, hnil, List.append_nil]

section Step

variable (h : b.IsHub as)

include h

theorem IsHub.admitted (y : ConnId) : (Hub.run as).admitted y = true ↔ b.server.IsAdmitted y := by
  rw [Hub.State.admitted, h.rank, Server.isAdmitted_iff_rank]

/-- An act of the hub for a step of the bridge. -/
theorem IsHub.act {a : Hub.Act ConnId}
    (hrank : ∀ y, ((Hub.run as).step a).rank y = (b.step cfg e).server.rank y)
    (hnews : ∀ y, (b.step cfg e).server.newsTo y = b.server.newsTo y ++ (Hub.run as).tells y a)
    (hseen : ∀ x ∈ ((Hub.run as).step a).seen, ∃ i, i ≤ (b.step cfg e).connSeq ∧ x = mintConnId i) :
    (b.step cfg e).IsHub (as ++ [a]) := by
  refine ⟨fun y => ?_, fun y => ?_, fun x => ?_⟩
  · rw [Hub.run_snoc]
    exact hrank y
  · rw [Hub.heard_snoc, hnews, h.news]
  · rw [Hub.run_snoc]
    exact hseen x

theorem IsHub.seen_step : ∀ x ∈ (Hub.run as).seen, ∃ i, i ≤ (b.step cfg e).connSeq ∧ x = mintConnId i :=
  fun x hmem => by
    obtain ⟨i, hi, heq⟩ := h.seen x hmem
    exact ⟨i, hi.trans connSeq_le_step, heq⟩

theorem IsHub.opens (he : b.Enabled cfg e) (hsend : e.1.SendsReturn) (hconnect : e.2 = .connect x) :
    (Hub.run as).enabled (.opens x) ∧ (b.step cfg e).IsHub (as ++ [.opens x]) := by
  have hserver : (b.step cfg e).server = b.server.onConnection cfg e.1 x := server_step_of_event hconnect
  refine ⟨fun hmem => ne_connect_of_minted he (h.seen x hmem) hconnect, h.act (fun y => ?_) (fun y => ?_) ?_⟩
  · rw [hserver, Server.rank_onConnection, ← h.rank]
    rfl
  · by_cases hid : y = x
    · rw [hserver, hid, (Server.hears_onConnection (hsend x)).newsTo, Hub.State.tells, if_pos rfl]
      rfl
    · have hsilent : ∀ n, ¬Server.Tells cfg b.server y e.2 n := fun n htold => by
        rw [hconnect] at htold
        cases htold
        exact hid rfl
      rw [newsTo_step_of_silent hsilent, Hub.State.tells, if_neg hid, List.append_nil]
  · intro z hmem
    rcases List.mem_cons.mp hmem with rfl | hmem
    · exact ⟨_, (connSeq_step_connect hconnect).ge, he.of_event hconnect⟩
    · exact h.seen_step z hmem

theorem IsHub.leaves (he : b.Enabled cfg e) (hsend : e.1.SendsReturn) {code : Nat} {reason : JsString}
    (hclosed : e.2 = .closed x code reason) :
    (Hub.run as).enabled (.leaves x) ∧ (b.step cfg e).IsHub (as ++ [.leaves x]) := by
  have hserver : (b.step cfg e).server = b.server.onClose cfg e.1 x code reason := server_step_of_event hclosed
  have hhas : b.server.connections.has x = true := he.of_event hclosed
  refine ⟨?_, h.act (fun y => ?_) (fun y => ?_) h.seen_step⟩
  · change ((Hub.run as).rank x).isSome = true
    rw [h.rank, Server.isSome_rank]
    exact hhas
  · rw [hserver, Server.rank_onClose, ← h.rank]
    rfl
  · have hbrief : Server.Brief y b.server (b.step cfg e).server := by
      obtain ⟨frames, hheard, hle⟩ := @Server.hears_onClose cfg e.1 b.server y x code reason
      rw [hserver]
      exact ⟨_, hheard.newsTo, (List.length_filterMap_le _ _).trans hle⟩
    refine hbrief.newsTo ?_ fun htold => ?_
    · obtain ⟨ns, hns, htells⟩ := Server.exists_news (@says_step cfg b e) y
      refine ⟨ns, hns, fun n hmem => ?_⟩
      have htold := htells n hmem
      rw [hclosed] at htold
      cases htold with
      | left code reason hadm hne =>
          exact ⟨rfl, Bool.and_eq_true_iff.mpr ⟨decide_eq_true hne, (h.admitted y).mpr hadm⟩⟩
    · obtain ⟨hne, hadm⟩ := Bool.and_eq_true_iff.mp htold
      rw [hserver]
      exact ⟨_, Server.sent_onClose hhas (of_decide_eq_true hne) ((h.admitted y).mp hadm) (hsend y), rfl⟩

theorem IsHub.lists (hsend : e.1.SendsReturn) {conn : Conn} {json : JsVal}
    (hmessage : e.2 = .message x (.text (.ok json)))
    (hreceives : Server.Receives b.server x conn json (js "peer-list-request")) :
    (Hub.run as).enabled (.lists x) ∧ (b.step cfg e).IsHub (as ++ [.lists x]) := by
  have hserver : (b.step cfg e).server = b.server.step cfg e.1 (.message x (.text (.ok json))) :=
    server_step_of_event hmessage
  have hadm : b.server.IsAdmitted x := ⟨conn, hreceives.get, hreceives.admitted⟩
  have hnot : ∀ {conn json}, ¬Server.Hails cfg b.server x conn json := fun hhails => by
    cases (Server.isAdmitted_iff.mp hadm).symm.trans hhails.admits.1
  refine ⟨(h.admitted x).mpr hadm, h.act (fun y => ?_) (fun y => ?_) h.seen_step⟩
  · rw [hserver, Server.rank_step_of_quiet (fun _ heq => by cases heq) (fun _ _ _ heq => by cases heq),
      ← h.rank]
    · rfl
    · rintro z conn' json' heq hhails
      cases heq
      exact hnot hhails
  · by_cases hid : y = x
    · rw [hserver, hid, (Server.hears_relisted hreceives (hsend x)).newsTo, Hub.State.tells, if_pos rfl]
      rfl
    · have hsilent : ∀ n, ¬Server.Tells cfg b.server y e.2 n := fun n htold => by
        rw [hmessage] at htold
        cases htold with
        | hailed hhails => exact hid rfl
        | relisted hrelisted => exact hid rfl
        | joined hintro => exact hnot hintro.hails
      rw [newsTo_step_of_silent hsilent, Hub.State.tells, if_neg hid, List.append_nil]

theorem IsHub.admits (hsend : e.1.SendsReturn) {conn : Conn} {json : JsVal}
    (hmessage : e.2 = .message x (.text (.ok json))) (hhails : Server.Hails cfg b.server x conn json) :
    (Hub.run as).enabled (.admits x (Server.Conn.ofHello conn json.revive).turnRefreshOnly) ∧
      (b.step cfg e).IsHub (as ++ [.admits x (Server.Conn.ofHello conn json.revive).turnRefreshOnly]) := by
  have hserver : (b.step cfg e).server = b.server.step cfg e.1 (.message x (.text (.ok json))) :=
    server_step_of_event hmessage
  refine ⟨(h.rank x).trans (Server.rank_eq_pending_iff.mpr hhails.admits.1),
    h.act (fun y => ?_) (fun y => ?_) h.seen_step⟩
  · rw [hserver, Server.rank_step_of_hails hhails, ← h.rank]
    rfl
  · by_cases hid : y = x
    · rw [hserver, hid, hhails.newsTo (hsend x), Hub.State.tells, if_pos rfl]
    · have hbrief : Server.Brief y b.server (b.step cfg e).server := by
        rw [hserver]
        exact Server.brief_onMessage hhails hid
      rw [Hub.State.tells, if_neg hid]
      refine hbrief.newsTo ?_ fun htold => ?_
      · obtain ⟨ns, hns, htells⟩ := Server.exists_news (@says_step cfg b e) y
        refine ⟨ns, hns, fun n hmem => ?_⟩
        have htold := htells n hmem
        rw [hmessage] at htold
        cases htold with
        | hailed hhails' => exact absurd rfl hid
        | relisted hrelisted => exact absurd rfl hid
        | joined hintro hadm hne =>
            obtain rfl := Option.some.inj (hintro.get.symm.trans hhails.get)
            exact ⟨rfl, Bool.and_eq_true_iff.mpr ⟨by rw [hintro.full]; rfl, (h.admitted y).mpr hadm⟩⟩
      · obtain ⟨hfull, hadm⟩ := Bool.and_eq_true_iff.mp htold
        have hintro : Server.Introduces cfg b.server x conn json :=
          ⟨hhails.admits, hhails.get, (Bool.not_eq_true' _).mp hfull⟩
        rw [hserver]
        exact ⟨_, hintro.sent_joined ((h.admitted y).mp hadm) (hsend y), rfl⟩

/-- A step that nobody opens, is admitted, asks for a list or goes by is none of the hub's. -/
theorem IsHub.quiet (hconnect : ∀ x, e.2 ≠ .connect x)
    (hclosed : ∀ x code reason, e.2 ≠ .closed x code reason)
    (hhails : ∀ x conn json, e.2 = .message x (.text (.ok json)) → ¬Server.Hails cfg b.server x conn json)
    (hlists : ∀ x conn json, e.2 = .message x (.text (.ok json)) →
      ¬Server.Receives b.server x conn json (js "peer-list-request")) : (b.step cfg e).IsHub as := by
  have hserver : (b.step cfg e).server = b.server.step cfg e.1 e.2 := server_step_of_event rfl
  refine ⟨fun y => ?_, fun y => ?_, h.seen_step⟩
  · rw [h.rank, hserver, Server.rank_step_of_quiet hconnect hclosed hhails]
  · have hsilent : ∀ n, ¬Server.Tells cfg b.server y e.2 n := fun n htold => by
      generalize hevent : e.2 = event at htold
      cases htold with
      | gate => exact hconnect y hevent
      | hailed hhails' => exact hhails _ _ _ hevent hhails'
      | relisted hrelisted => exact hlists _ _ _ hevent hrelisted
      | joined hintro => exact hhails _ _ _ hevent hintro.hails
      | left code reason => exact hclosed _ _ _ hevent
    rw [newsTo_step_of_silent hsilent, h.news]

/-- Every step is one act of the hub, or none. -/
theorem IsHub.step (he : b.Enabled cfg e) (hsend : e.1.SendsReturn) :
    ∃ bs, (Hub.system ConnId).Valid (Hub.run as) bs ∧ (b.step cfg e).IsHub (as ++ bs) := by
  have one : ∀ {a}, (Hub.run as).enabled a ∧ (b.step cfg e).IsHub (as ++ [a]) →
      ∃ bs, (Hub.system ConnId).Valid (Hub.run as) bs ∧ (b.step cfg e).IsHub (as ++ bs) :=
    fun {a} hact => ⟨[a], ⟨hact.1, trivial⟩, hact.2⟩
  by_cases hconnect : ∃ x, e.2 = .connect x
  · obtain ⟨x, hconnect⟩ := hconnect
    exact one (h.opens he hsend hconnect)
  by_cases hclosed : ∃ x code reason, e.2 = .closed x code reason
  · obtain ⟨x, code, reason, hclosed⟩ := hclosed
    exact one (h.leaves he hsend hclosed)
  by_cases hhails : ∃ x conn json, e.2 = .message x (.text (.ok json)) ∧ Server.Hails cfg b.server x conn json
  · obtain ⟨x, conn, json, hmessage, hhails⟩ := hhails
    exact one (h.admits hsend hmessage hhails)
  by_cases hlists : ∃ x conn json, e.2 = .message x (.text (.ok json)) ∧
      Server.Receives b.server x conn json (js "peer-list-request")
  · obtain ⟨x, conn, json, hmessage, hreceives⟩ := hlists
    exact one (h.lists hsend hmessage hreceives)
  refine ⟨[], trivial, ?_⟩
  rw [List.append_nil]
  exact h.quiet (fun x heq => hconnect ⟨x, heq⟩) (fun x code reason heq => hclosed ⟨x, code, reason, heq⟩)
    (fun x conn json heq hh => hhails ⟨x, conn, json, heq, hh⟩)
    (fun x conn json heq hh => hlists ⟨x, conn, json, heq, hh⟩)

end Step

section Runs

variable {reportBound : Bool} {es : List (Io × Event)}

theorem isHub_of_valid (hes : (system cfg reportBound).Valid (init cfg reportBound) es)
    (hsend : ∀ e ∈ es, e.1.SendsReturn) :
    ∃ as, (Hub.system ConnId).Valid (Hub.system ConnId).init as ∧
      ((system cfg reportBound).after (init cfg reportBound) es).IsHub as := by
  have hboth := System.along_and.mpr ⟨hes, System.along_of_forall_mem (s := init cfg reportBound)
    (S := system cfg reportBound) hsend⟩
  have hnil : (Hub.system ConnId).Valid (Hub.system ConnId).init [] := trivial
  have hinit : (init cfg reportBound).IsHub [] := ⟨fun _ => rfl, fun _ => rfl, fun _ hmem => by cases hmem⟩
  exact System.Along.simulated (fun b e as _ hstep h => h.step hstep.1 hstep.2) hnil hinit hboth

/-- **The bridge refines the hub.** For every run there is a run of the hub that has every connection at
the rank the bridge has it at and told what the bridge had it told. -/
theorem refines_hub (cfg : Config) (reportBound : Bool) (es : List (Io × Event))
    (hes : (system cfg reportBound).Valid (init cfg reportBound) es) (hsend : ∀ e ∈ es, e.1.SendsReturn) :
    ∃ as, (Hub.system ConnId).Valid (Hub.system ConnId).init as ∧
      (∀ y, ((system cfg reportBound).after (init cfg reportBound) es).server.rank y = (Hub.run as).rank y) ∧
      ∀ y, ((system cfg reportBound).after (init cfg reportBound) es).server.newsTo y = Hub.heard y as := by
  obtain ⟨as, has, h⟩ := isHub_of_valid hes hsend
  exact ⟨as, has, fun y => (h.rank y).symm, h.news⟩

theorem refines_hub_twoAdmitted :
    ∃ as, (Hub.system ConnId).Valid (Hub.system ConnId).init as ∧
      (∀ y, ((system Server.plain false).after (init Server.plain false) twoAdmitted).server.rank y =
        (Hub.run as).rank y) ∧
      ∀ y, ((system Server.plain false).after (init Server.plain false) twoAdmitted).server.newsTo y =
        Hub.heard y as :=
  refines_hub Server.plain false twoAdmitted valid_twoAdmitted sendsReturn_twoAdmitted

/-- **One log.** The notices of who came and went that the connections were sent are of one log, the same
for all. A connection has been sent one stretch of it, without what is of itself, and of each connection the
log has at most that it joined and then that it left. -/
theorem notices_of_one_log (cfg : Config) (reportBound : Bool) (es : List (Io × Event))
    (hes : (system cfg reportBound).Valid (init cfg reportBound) es) (hsend : ∀ e ∈ es, e.1.SendsReturn) :
    ∃ log : List (Hub.News ConnId), (∀ x, (log.filter (Hub.News.about x)).Sublist [.joined x, .left x]) ∧
      ∀ y, ∃ front here back, log = front ++ here ++ back ∧
        (((system cfg reportBound).after (init cfg reportBound) es).server.newsTo y).filter Hub.News.notice =
          here.filter fun n => !n.about y := by
  obtain ⟨as, has, h⟩ := isHub_of_valid hes hsend
  refine ⟨Hub.log as, Hub.filter_log_sublist has, fun y => ?_⟩
  rw [h.news]
  exact Hub.heard_stretch has y

theorem notices_of_one_log_twoAdmitted :
    ∃ log : List (Hub.News ConnId), (∀ x, (log.filter (Hub.News.about x)).Sublist [.joined x, .left x]) ∧
      ∀ y, ∃ front here back, log = front ++ here ++ back ∧
        (((system Server.plain false).after (init Server.plain false) twoAdmitted).server.newsTo y).filter
          Hub.News.notice = here.filter fun n => !n.about y :=
  notices_of_one_log Server.plain false twoAdmitted valid_twoAdmitted sendsReturn_twoAdmitted

end Runs

end Bridge

end AxonaBridge
