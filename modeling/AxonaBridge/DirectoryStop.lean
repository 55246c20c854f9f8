import AxonaBridge.DirectoryPublisher

/-!
# Stopping the directory publisher

`stop` sets a flag, clears the timer of the heartbeat and stops the subscriptions the start-up sequence has
left behind. Only the poll of `whenEstablished` looks at the flag, and there is nothing to stop before the
last `peer.sub` of the loop has resolved, or once one of them is rejected.
-/

open JsText

namespace AxonaBridge

namespace Directory

/-- A call of `peer.pub`, `peer.sub` or `peer.setAuthorClass`. -/
def Out.isCall : Out → Bool
  | .pub _ _ _ => true
  | .sub _ => true
  | .setAuthorClass _ => true
  | _ => false

def Out.unsubRegion : Out → Option Region
  | .unsub region => some region
  | _ => none

/-- The subscription that an event opens. -/
def Publisher.opened (p : Publisher) : Event → List Region
  | .subSettles (.ok _) =>
      match p.startup with
      | .subscribing _ region _ => [region]
      | _ => []
  | _ => []

/-- The publisher with the subscriptions that are open. -/
structure Watched where
  publisher : Publisher := {}
  live : List Region := []

def Watched.step (cfg : Config) (s : Watched) (e : Io × Event) : Watched where
  publisher := (s.publisher.act cfg e.1 e.2).1
  live := (s.live ++ s.publisher.opened e.2).filter fun r =>
    r ∉ (s.publisher.act cfg e.1 e.2).2.filterMap Out.unsubRegion

/-- The publisher of an enabled directory, with its subscriptions. -/
def watched (cfg : Config) : System Watched (Io × Event) where
  init := {}
  enabled s e := (system cfg).enabled s.publisher e
  step := Watched.step cfg

/-- An event after `stop` calls nothing of the peer, and leaves no subscription open. -/
def StopEnds (cfg : Config) (s : Watched) (e : Io × Event) : Prop :=
  (s.publisher.stopped = true → ∀ o ∈ (s.publisher.act cfg e.1 e.2).2, o.isCall = false) ∧
    ((s.step cfg e).publisher.stopped = true → (s.step cfg e).live = [])

/-- The event takes the publisher past an `await` to the next call of the peer, or opens a subscription. -/
def Config.Proceeds (cfg : Config) (io : Io) (p : Publisher) : Event → Prop
  | .resume => ∃ region rest entry, cfg.Publishes io region rest entry
  | .heartbeat => ∃ region rest entry, cfg.Publishes io region rest entry
  | .republish _ => ∃ region rest entry, cfg.Publishes io region rest entry
  | .pubSettles i res => p.goesOn (.pubSettles i res) = true
  | .declare => True
  | .classSettles _ => cfg.hasBook = true ∧ cfg.bridgeRegions io.book ≠ []
  | .subSettles (.ok _) => True
  | _ => False

/-- `stop` is called while no subscription is open or `sub` has them all, and nothing proceeds after it. -/
def StopsInTime (cfg : Config) (s : Watched) (e : Io × Event) : Prop :=
  (e.2 = .stop → s.live = [] ∨ s.publisher.sub.isSome = true) ∧
    (s.publisher.stopped = true → ¬cfg.Proceeds e.1 s.publisher e.2)

variable {cfg : Config} {io : Io} {p : Publisher} {ev : Event} {s : Watched} {e : Io × Event}

theorem proceeds_of_publish {x : JsString × Bool} (h : ev.publish = some x) :
    cfg.Proceeds io p ev ↔ ∃ region rest entry, cfg.Publishes io region rest entry := by
  cases ev with
  | resume => exact Iff.rfl
  | heartbeat => exact Iff.rfl
  | republish reason => exact Iff.rfl
  | _ => cases h

theorem opened_of_publish {x : JsString × Bool} (h : ev.publish = some x) : p.opened ev = [] := by
  cases ev with
  | resume => rfl
  | heartbeat => rfl
  | republish reason => rfl
  | _ => cases h

theorem Config.Publishes.not_throws {region : Region} {rest : List Region} {entry : JsVal}
    (h : cfg.Publishes io region rest entry) : ¬cfg.Throws io := by
  rintro ⟨-, -, err, herr⟩
  cases herr.symm.trans h.2.2

theorem not_isCall_of_log {out : List Out} (h : ∀ o ∈ out, ∃ event fields, o = .log event fields) :
    ∀ o ∈ out, o.isCall = false := by
  intro o ho
  obtain ⟨event, fields, rfl⟩ := h o ho
  rfl

/-- A single row of the log calls nothing. -/
theorem not_isCall_row {event : JsString} {fields : List (JsString × LogVal)} :
    ∀ o ∈ [Out.log event fields], o.isCall = false :=
  not_isCall_of_log fun _ ho => ⟨event, fields, List.mem_singleton.mp ho⟩

theorem not_quiet {out : List Out} {o : Out} (ho : o ∈ out) (hcall : o.isCall = true) {Q : Prop} :
    ¬((∀ o ∈ out, o.isCall = false) ∧ Q) := fun h =>
  Bool.false_ne_true ((h.1 o ho).symm.trans hcall)

/-- An event proceeds exactly when it calls something of the peer or opens a subscription. -/
theorem quiet_iff (he : p.Enabled ev) :
    ((∀ o ∈ (p.act cfg io ev).2, o.isCall = false) ∧ p.opened ev = []) ↔ ¬cfg.Proceeds io p ev := by
  have hmoves := Publisher.moves cfg io p ev
  generalize (p.act cfg io ev).1 = p' at hmoves
  generalize (p.act cfg io ev).2 = out at hmoves ⊢
  cases hmoves with
  | authorFails => exact iff_of_true ⟨by simp, rfl⟩ not_false
  | polls he' hstartup hrows =>
      refine iff_of_true ⟨not_isCall_of_log hrows, ?_⟩ ?_
      · rcases he' with rfl | rfl <;> rfl
      · rcases he' with rfl | rfl <;> exact not_false
  | publishes he' hpublishes =>
      rw [proceeds_of_publish he']
      exact iff_of_false (not_quiet List.mem_cons_self rfl) (not_not_intro ⟨_, _, _, hpublishes⟩)
  | throws he' hthrows =>
      rw [proceeds_of_publish he']
      refine iff_of_true ⟨by simp, opened_of_publish he'⟩ ?_
      rintro ⟨region, rest, entry, hpublishes⟩
      exact hpublishes.not_throws hthrows
  | defers he' hnot hthrows =>
      rw [proceeds_of_publish he']
      refine iff_of_true ⟨not_isCall_row, opened_of_publish he'⟩ ?_
      rintro ⟨region, rest, entry, hpublishes⟩
      exact hnot region rest entry hpublishes
  | goesOn hw hrest =>
      refine iff_of_false (not_quiet (List.mem_cons_of_mem _ List.mem_cons_self) rfl) (not_not_intro ?_)
      change p.goesOn _ = true
      rw [Publisher.goesOn_pubSettles, hw, Option.any_some, hrest]
      exact decide_eq_true (List.cons_ne_nil _ _)
  | returns hw hrest =>
      refine iff_of_true ⟨not_isCall_row, rfl⟩ ?_
      change ¬p.goesOn _ = true
      rw [Publisher.goesOn_pubSettles, hw, Option.any_some, hrest]
      exact fun h => of_decide_eq_true h rfl
  | nobodyWaits hnone => exact absurd hnone (List.getElem?_eq_none_iff.not.mpr he.not_ge)
  | declares => exact iff_of_false (not_quiet List.mem_cons_self rfl) (not_not_intro trivial)
  | subscribes hbook hregions =>
      refine iff_of_false (not_quiet (List.mem_cons_of_mem _ List.mem_cons_self) rfl) (not_not_intro ⟨hbook, ?_⟩)
      rw [hregions]
      exact List.cons_ne_nil _ _
  | subscribesNowhere hbook hregions => exact iff_of_true ⟨not_isCall_row, rfl⟩ fun h => h.2 hregions
  | noBook hbook => exact iff_of_true ⟨not_isCall_row, rfl⟩ fun h => Bool.false_ne_true (hbook.symm.trans h.1)
  | opens hstartup => exact iff_of_false (not_quiet List.mem_cons_self rfl) (not_not_intro trivial)
  | opensLast hstartup =>
      refine iff_of_false (fun h => ?_) (not_not_intro trivial)
      have hopened := h.2
      unfold Publisher.opened at hopened
      rw [hstartup] at hopened
      cases hopened
  | opensNothing hstartup =>
      obtain ⟨subs, region, rest, hsub⟩ := he
      exact absurd hsub (hstartup subs region rest)
  | rejected => exact iff_of_true ⟨not_isCall_row, rfl⟩ not_false
  | stops =>
      refine iff_of_true ⟨fun o ho => ?_, rfl⟩ not_false
      obtain ⟨region, -, rfl⟩ := List.mem_map.mp ho
      rfl

/-! ### The subscriptions -/

/-- What is open while the publisher runs and after it has been stopped. -/
structure Keeps (s : Watched) : Prop where
  orderly : s.publisher.Orderly
  stopped : s.publisher.stopped = true → s.live = []
  /-- What is open is what `sub` stops, once it is there. -/
  sub : ∀ rs, s.publisher.sub = some rs → s.live ⊆ rs
  subscribing : ∀ subs region rest, s.publisher.startup = .subscribing subs region rest → s.live ⊆ subs
  /-- Nothing is open before the first `peer.sub`. -/
  before : s.publisher.startup.isEarly = true → s.live = []

/-- Only `stop` sets the flag and stops a subscription. -/
theorem act_of_ne_stop (hne : ev ≠ .stop) : (p.act cfg io ev).1.stopped = p.stopped ∧
    (p.act cfg io ev).2.filterMap Out.unsubRegion = [] := by
  have hmoves := Publisher.moves cfg io p ev
  generalize (p.act cfg io ev).1 = p' at hmoves ⊢
  generalize (p.act cfg io ev).2 = out at hmoves ⊢
  cases hmoves with
  | polls he' hstartup hrows =>
      refine ⟨rfl, List.filterMap_eq_nil_iff.mpr fun o ho => ?_⟩
      obtain ⟨event, fields, rfl⟩ := hrows o ho
      rfl
  | @throws _ _ starts he' hthrows => cases starts <;> exact ⟨rfl, rfl⟩
  | @defers _ _ starts _ _ he' hnot hthrows => cases starts <;> exact ⟨rfl, rfl⟩
  | @returns _ _ w _ _ hw hrest =>
      refine ⟨?_, rfl⟩
      cases w.starts <;> rfl
  | stops => exact absurd rfl hne
  | _ => exact ⟨rfl, rfl⟩

theorem live_step (hne : ev ≠ .stop) : (s.step cfg (io, ev)).live = s.live ++ s.publisher.opened ev := by
  unfold Watched.step
  dsimp only
  rw [(act_of_ne_stop hne).2]
  exact List.filter_eq_self.mpr fun r _ => decide_eq_true List.not_mem_nil

theorem live_stop : (s.step cfg (io, .stop)).live = s.live.filter fun r => r ∉ s.publisher.sub.getD [] := by
  have hunsub : ((s.publisher.sub.getD []).map Out.unsub).filterMap Out.unsubRegion = s.publisher.sub.getD [] := by
    rw [List.filterMap_map]
    exact List.filterMap_some
  change (s.live ++ []).filter (fun r => r ∉ ((s.publisher.sub.getD []).map Out.unsub).filterMap Out.unsubRegion) = _
  rw [hunsub, List.append_nil]

/-- `stop` leaves nothing open exactly when nothing was open or the start-up sequence had left its
subscriptions behind. -/
theorem Keeps.live_stop_iff (hs : Keeps s) :
    (s.step cfg (io, .stop)).live = [] ↔ s.live = [] ∨ s.publisher.sub.isSome = true := by
  rw [live_stop]
  cases hsub : s.publisher.sub with
  | none =>
      have hall : (s.live.filter fun r => r ∉ (none : Option (List Region)).getD []) = s.live :=
        List.filter_eq_self.mpr fun r _ => decide_eq_true List.not_mem_nil
      rw [hall]
      exact (or_iff_left Bool.false_ne_true).symm
  | some rs =>
      refine iff_of_true (List.filter_eq_nil_iff.mpr fun r hr => ?_) (Or.inr rfl)
      exact fun hnot => of_decide_eq_true hnot (hs.sub rs hsub hr)

theorem stopEnds_iff (hs : Keeps s) (he : (watched cfg).enabled s e) :
    StopEnds cfg s e ↔ StopsInTime cfg s e := by
  obtain ⟨io, ev⟩ := e
  by_cases hstop : ev = .stop
  · subst hstop
    have hquiet : (∀ o ∈ (s.publisher.act cfg io .stop).2, o.isCall = false) ∧ s.publisher.opened .stop = [] :=
      (quiet_iff he.2).mpr not_false
    have hflag : (s.step cfg (io, .stop)).publisher.stopped = true := rfl
    unfold StopEnds StopsInTime
    rw [hs.live_stop_iff]
    exact ⟨fun h => ⟨fun _ => h.2 hflag, fun _ => not_false⟩, fun h => ⟨fun _ => hquiet.1, fun _ => h.1 rfl⟩⟩
  · have hflag : (s.step cfg (io, ev)).publisher.stopped = s.publisher.stopped := (act_of_ne_stop hstop).1
    unfold StopEnds StopsInTime
    rw [hflag, live_step hstop, and_iff_right fun h => absurd h hstop, ← imp_and]
    refine forall_congr' fun hstopped => ?_
    rw [hs.stopped hstopped, List.nil_append]
    exact quiet_iff he.2

theorem Keeps.of_empty (hp : p.Orderly) : Keeps { publisher := p, live := [] } where
  orderly := hp
  stopped _ := rfl
  sub _ _ := List.nil_subset _
  subscribing _ _ _ _ := List.nil_subset _
  before _ := rfl

theorem Keeps.of_same (hs : Keeps s) (hp : p.Orderly) (hstopped : p.stopped = s.publisher.stopped)
    (hsub : p.sub = s.publisher.sub) (hstartup : p.startup = s.publisher.startup) :
    Keeps { publisher := p, live := s.live } where
  orderly := hp
  stopped h := hs.stopped (hstopped ▸ h)
  sub rs h := hs.sub rs (hsub ▸ h)
  subscribing subs region rest h := hs.subscribing subs region rest (hstartup ▸ h)
  before h := hs.before (hstartup ▸ h)

/-- A publish changes nothing the subscriptions depend on. -/
theorem Keeps.of_starts (hs : Keeps s) (hp : p.Orderly) (starts : Bool)
    (hbefore : starts = true → s.publisher.startup = .established ∨ s.publisher.startup = .publishing)
    (hsame : starts = false → p.stopped = s.publisher.stopped ∧ p.sub = s.publisher.sub ∧
      p.startup = s.publisher.startup) : Keeps { publisher := p, live := s.live } := by
  cases starts with
  | false =>
      obtain ⟨hstopped, hsub, hstartup⟩ := hsame rfl
      exact hs.of_same hp hstopped hsub hstartup
  | true =>
      have hempty : s.live = [] := by
        apply hs.before
        rcases hbefore rfl with h | h <;> rw [h] <;> rfl
      rw [hempty]
      exact Keeps.of_empty hp

theorem grows {rs rs' : List Region} {region : Region} (h : rs ⊆ rs') : rs ++ [region] ⊆ rs' ++ [region] :=
  List.append_subset.mpr ⟨List.Subset.trans h (List.subset_append_left _ _), List.subset_append_right _ _⟩

theorem opened_subSettles {subs : List Region} {region : Region} {rest : List Region}
    (h : p.startup = .subscribing subs region rest) : p.opened (.subSettles (.ok ())) = [region] := by
  unfold Publisher.opened
  rw [h]

/-- **What an event leaves open**, where `stop` comes in time. -/
theorem keeps_step (hs : Keeps s) (he : (watched cfg).enabled s e) (hintime : StopsInTime cfg s e) :
    Keeps ((watched cfg).step s e) := by
  obtain ⟨io, ev⟩ := e
  have hp : (s.publisher.act cfg io ev).1.Orderly := Publisher.orderly_act hs.orderly he.2
  by_cases hstop : ev = .stop
  · subst hstop
    have hlive : (s.step cfg (io, .stop)).live = [] := hs.live_stop_iff.mpr (hintime.1 rfl)
    change Keeps { publisher := _, live := (s.step cfg (io, .stop)).live }
    rw [hlive]
    exact Keeps.of_empty hp
  have hmoves := Publisher.moves cfg io s.publisher ev
  have henabled : s.publisher.Enabled ev := he.2
  change Keeps { publisher := (s.publisher.act cfg io ev).1, live := (s.step cfg (io, ev)).live }
  rw [live_step hstop]
  generalize (s.publisher.act cfg io ev).1 = p at hp hmoves ⊢
  generalize (s.publisher.act cfg io ev).2 = out at hmoves
  have hearly : ∀ {startup : Startup} {p : Publisher}, s.publisher.startup = startup → startup.isEarly = true →
      p.Orderly → Keeps { publisher := p, live := s.live ++ [] } := by
    intro startup p hstartup hearly hp
    rw [hs.before (hstartup ▸ hearly)]
    exact Keeps.of_empty hp
  cases hmoves with
  | authorFails => exact hearly henabled rfl hp
  | polls he' hstartup hrows =>
      rcases he' with rfl | rfl
      · exact hearly henabled rfl hp
      · exact hearly henabled rfl hp
  | @publishes _ _ starts _ _ _ he' hpublishes =>
      rw [opened_of_publish he', List.append_nil]
      refine hs.of_starts hp starts (fun hstarts => Or.inl ?_) fun hnot => ?_
      · exact Publisher.established_of_starts (hstarts ▸ he') henabled
      · rw [hnot]
        exact ⟨rfl, rfl, rfl⟩
  | @throws _ _ starts he' hthrows =>
      rw [opened_of_publish he', List.append_nil]
      refine hs.of_starts hp starts (fun hstarts => Or.inl ?_) fun hnot => ?_
      · exact Publisher.established_of_starts (hstarts ▸ he') henabled
      · rw [hnot]
        exact ⟨rfl, rfl, rfl⟩
  | @defers _ _ starts _ _ he' hnot hthrows =>
      rw [opened_of_publish he', List.append_nil]
      refine hs.of_starts hp starts (fun hstarts => Or.inl ?_) fun hnot => ?_
      · exact Publisher.established_of_starts (hstarts ▸ he') henabled
      · rw [hnot]
        exact ⟨rfl, rfl, rfl⟩
  | goesOn hw hrest =>
      change Keeps { publisher := _, live := s.live ++ [] }
      rw [List.append_nil]
      exact hs.of_same hp rfl rfl rfl
  | @returns _ _ w _ _ hw hrest =>
      change Keeps { publisher := _, live := s.live ++ [] }
      rw [List.append_nil]
      refine hs.of_starts hp w.starts (fun hstarts => Or.inr ?_) fun hnot => ?_
      · exact hs.orderly.publishing_of_starts hw hstarts
      · rw [hnot]
        exact ⟨rfl, rfl, rfl⟩
  | nobodyWaits hnone => exact absurd hnone (List.getElem?_eq_none_iff.not.mpr henabled.not_ge)
  | declares => exact hearly henabled rfl hp
  | subscribes hbook hregions => exact hearly henabled rfl hp
  | subscribesNowhere hbook hregions =>
      exact hearly henabled rfl hp
  | noBook hbook => exact hearly henabled rfl hp
  | @opens subs region next rest hstartup =>
      have hrunning : ¬s.publisher.stopped = true := fun hstopped => hintime.2 hstopped trivial
      rw [opened_subSettles hstartup]
      have hlive := hs.subscribing subs region (next :: rest) hstartup
      refine ⟨hp, fun h => absurd h hrunning, fun rs hrs => ?_, fun subs' region' rest' h => ?_, fun h => ?_⟩
      · cases (hp.sub rs hrs)
      · cases h
        exact grows hlive
      · cases h
  | @opensLast subs region hstartup =>
      have hrunning : ¬s.publisher.stopped = true := fun hstopped => hintime.2 hstopped trivial
      rw [opened_subSettles hstartup]
      have hlive := hs.subscribing subs region [] hstartup
      refine ⟨hp, fun h => absurd h hrunning, fun rs hrs => ?_, fun subs' region' rest' h => ?_, fun h => ?_⟩
      · cases hrs
        exact grows hlive
      · cases h
      · cases h
  | opensNothing hstartup =>
      obtain ⟨subs, region, rest, hsub⟩ := henabled
      exact absurd hsub (hstartup subs region rest)
  | rejected =>
      change Keeps { publisher := _, live := s.live ++ [] }
      rw [List.append_nil]
      refine ⟨hp, hs.stopped, hs.sub, fun subs region rest h => ?_, fun h => ?_⟩
      · cases h
      · cases h
  | stops => exact absurd rfl hstop

/-- **Stopping the publisher.** Along a run of the publisher from its start `stop` ends it, for good and with
every subscription stopped, exactly when it is called in time. -/
theorem stopEnds_along_iff (cfg : Config) {es : List (Io × Event)}
    (hes : (watched cfg).Valid (watched cfg).init es) :
    (watched cfg).Along (StopEnds cfg) (watched cfg).init es ↔
      (watched cfg).Along (StopsInTime cfg) (watched cfg).init es :=
  System.along_congr_of_invariant (fun _ _ hs he => stopEnds_iff hs he) (fun _ _ hs he h => keeps_step hs he h)
    (Keeps.of_empty ⟨rfl, fun _ h => by cases h⟩) hes

/-- `stop` while the entry is published in the first region. -/
def stopsWithin : List (Io × Event) :=
  [({ now := 0 }, .authorReady true), ({ now := 300000, peers := some 3 }, .tick),
    ({ now := 300000, peers := some 3 }, .resume), ({ now := 300500 }, .stop),
    ({ now := 301000 }, .pubSettles 0 (.ok ()))]

/-- `stop` when the start-up sequence is through, and a call of `republish` in an empty mesh. -/
def stopsAtLast : List (Io × Event) :=
  publishesInto 3 ++ [({ now := 301000 }, .pubSettles 0 (.ok ())), ({ now := 301000 }, .declare),
    ({ now := 301000 }, .classSettles (.ok ())), ({ now := 302000 }, .subSettles (.ok ())),
    ({ now := 302000 }, .subSettles (.ok ())), ({ now := 303000 }, .stop),
    ({ now := 304000 }, .republish (js "manual"))]

theorem valid_stopsAtLast : (watched ownRegion).Valid (watched ownRegion).init stopsAtLast := by
  have henabled : ownRegion.isEnabled = true := by decide +kernel
  refine ⟨⟨henabled, rfl⟩, ⟨henabled, rfl⟩, ⟨henabled, rfl⟩, ⟨henabled, ?_⟩, ⟨henabled, ?_⟩, ⟨henabled, rfl⟩,
    ⟨henabled, rfl⟩, ⟨henabled, ?_⟩, ⟨henabled, ?_⟩, ⟨henabled, trivial⟩, ⟨henabled, trivial⟩, trivial⟩
  · change _ < List.length _
    decide +kernel
  · change _ < List.length _
    decide +kernel
  · exact ⟨[], js "eagle", [js "uk"], rfl⟩
  · exact ⟨[js "eagle"], js "uk", [], rfl⟩

theorem stopEnds_stopsAtLast :
    (watched ownRegion).Along (StopEnds ownRegion) (watched ownRegion).init stopsAtLast := by
  refine (stopEnds_along_iff ownRegion valid_stopsAtLast).mpr ?_
  have hrunning : ∀ {s : Watched} {e : Io × Event}, e.2 ≠ .stop → s.publisher.stopped = false →
      StopsInTime ownRegion s e := by
    intro s e hne hstopped
    exact ⟨fun h => absurd h hne, fun h => absurd (hstopped.symm.trans h) Bool.false_ne_true⟩
  refine ⟨hrunning Event.noConfusion rfl, hrunning Event.noConfusion rfl, hrunning Event.noConfusion rfl,
    hrunning Event.noConfusion rfl, hrunning Event.noConfusion rfl, hrunning Event.noConfusion rfl,
    hrunning Event.noConfusion rfl, hrunning Event.noConfusion rfl, hrunning Event.noConfusion rfl, ?_, ?_, trivial⟩
  · exact ⟨fun _ => Or.inr rfl, fun _ => not_false⟩
  · refine ⟨fun h => (by cases h), fun _ => ?_⟩
    rintro ⟨region, rest, entry, hpublishes⟩
    exact absurd hpublishes.1 (by decide)

/-- The publisher calls `peer.pub` in the second region after `stop`. -/
theorem not_stopEnds_stopsWithin :
    (watched ownRegion).Valid (watched ownRegion).init stopsWithin ∧
      ¬(watched ownRegion).Along (StopEnds ownRegion) (watched ownRegion).init stopsWithin := by
  have henabled : ownRegion.isEnabled = true := by decide +kernel
  refine ⟨⟨⟨henabled, rfl⟩, ⟨henabled, rfl⟩, ⟨henabled, rfl⟩, ⟨henabled, trivial⟩, ⟨henabled, ?_⟩, trivial⟩,
    fun h => ?_⟩
  · change _ < List.length _
    decide +kernel
  · obtain ⟨-, -, -, -, hlast, -⟩ := h
    have hquiet := hlast.1 rfl
    revert hquiet
    decide +kernel

end Directory

end AxonaBridge
