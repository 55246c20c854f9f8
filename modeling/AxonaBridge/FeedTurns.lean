import AxonaBridge.DirectoryFeed

/-!
# The deliveries of the directory feed

The feed and the timers of the event loop, one operation or one timer a turn. A cleared timer does not
fire; any timer that is armed may fire next.
-/

open JsText

namespace AxonaBridge

namespace DirectoryFeed

/-- The feed and the timers that are armed; `fresh` is the handle of the next timer. -/
structure Turns (η : Type) where
  feed : DirectoryFeed η
  armed : List Timer := []
  fresh : Nat := 0

inductive Event (η : Type) where
  | request (answer : Answer) (draws : List Nat)
  | setSource (source : Bool)
  | onPeerList (handler : η)
  | unsubscribe (handler : η)
  | stop
  | start
  | fire (handle : Nat)

namespace Turns

variable {η : Type}

/-- What the request of a turn returns: the timer it arms, where it returns true. -/
def requested (s : Turns η) (answer : Answer) (draws : List Nat) : Option Timer :=
  (s.feed.request answer draws s.fresh).1

/-- The armed timer of a handle. -/
def timer (s : Turns η) (handle : Nat) : Option Timer :=
  s.armed.find? fun t => t.handle = handle

/-- What the turn hands to whom. -/
def delivered (s : Turns η) : Event η → List (η × List JsString)
  | .fire handle => ((s.timer handle).map fun t => (s.feed.fired t).1).getD []
  | _ => []

variable [DecidableEq η]

def step (s : Turns η) : Event η → Turns η
  | .request answer draws =>
      { feed := (s.feed.request answer draws s.fresh).2
        armed := s.armed ++ (s.requested answer draws).toList
        fresh := s.fresh + (s.requested answer draws).toList.length }
  | .setSource source => { s with feed := s.feed.setSource source }
  | .onPeerList handler => { s with feed := s.feed.onPeerList handler }
  | .unsubscribe handler => { s with feed := s.feed.unsubscribe handler }
  -- every pending timer is cleared before the set of them is
  | .stop =>
      { s with
        feed := s.feed.stop
        armed := s.armed.filter fun t => !s.feed.pending.has t.handle }
  | .start => s
  | .fire handle =>
      { s with
        feed := ((s.timer handle).map fun t => (s.feed.fired t).2).getD s.feed
        armed := s.armed.filter fun t => t.handle ≠ handle }

def Enabled (s : Turns η) : Event η → Prop
  | .fire handle => ∃ t ∈ s.armed, t.handle = handle
  | _ => True

/-- The turns of a feed, from when it is made. -/
def system (feed : DirectoryFeed η) : System (Turns η) (Event η) where
  init := { feed }
  enabled := Enabled
  step := step

/-- What every turn keeps: the armed timers are pending, of the present generation and told apart by
their handles, and the feed is the one that was made. -/
structure Inv (feed : DirectoryFeed η) (s : Turns η) : Prop where
  selfHex : s.feed.selfHex = feed.selfHex
  sampleSize : s.feed.sampleSize = feed.sampleSize
  pending : ∀ t ∈ s.armed, s.feed.pending.has t.handle = true
  current : ∀ t ∈ s.armed, t.generation = s.feed.generation
  distinct : (s.armed.map Timer.handle).Nodup
  earlier : ∀ t ∈ s.armed, t.handle < s.fresh

variable {feed : DirectoryFeed η} {s : Turns η} {e : Event η} {es es₁ es₂ : List (Event η)}
  {t : Timer}
  {answer : Answer} {draws : List Nat} {handle : Nat} {h : JsString}

/-! ### One turn -/

omit [DecidableEq η] in
theorem request_cases (f : DirectoryFeed η) (answer : Answer) (draws : List Nat) (handle : Nat) :
    ((f.request answer draws handle).1 = none ∧
        (f.request answer draws handle).2.pending = f.pending ∧
        (f.source = false ∨ ∀ pool, answer ≠ .array pool)) ∨
      ∃ pool, answer = .array pool ∧ f.source = true ∧
        (f.request answer draws handle).1 =
          some ⟨handle, f.generation, draw f.sampleSize draws (candidates f.selfHex pool)⟩ ∧
        (f.request answer draws handle).2.pending = f.pending.set handle () := by
  cases hsource : f.source with
  | false => exact Or.inl ⟨by simp [request, hsource], by simp [request, hsource], Or.inl rfl⟩
  | true =>
      cases answer with
      | array pool =>
          exact Or.inr ⟨pool, rfl, rfl, request_array hsource, by simp [request, hsource]⟩
      | threw =>
          exact Or.inl ⟨by simp [request, hsource], by simp [request, hsource],
            Or.inr fun _ => Answer.noConfusion⟩
      | malformed =>
          exact Or.inl ⟨by simp [request, hsource], by simp [request, hsource],
            Or.inr fun _ => Answer.noConfusion⟩

omit [DecidableEq η] in
/-- A request leaves all of the feed but its timers and its counters. -/
theorem request_frame (f : DirectoryFeed η) (answer : Answer) (draws : List Nat) (handle : Nat) :
    (f.request answer draws handle).2.selfHex = f.selfHex ∧
      (f.request answer draws handle).2.sampleSize = f.sampleSize ∧
      (f.request answer draws handle).2.generation = f.generation ∧
      (f.request answer draws handle).2.handlers = f.handlers := by
  unfold request
  dsimp only
  split
  · split <;> exact ⟨rfl, rfl, rfl, rfl⟩
  · exact ⟨rfl, rfl, rfl, rfl⟩

omit [DecidableEq η] in
theorem fired_snd (f : DirectoryFeed η) (t : Timer) :
    (f.fired t).2 = { f with pending := f.pending.delete t.handle } := by
  unfold fired
  dsimp only
  split <;> rfl

omit [DecidableEq η] in
theorem timer_spec (h : s.timer handle = some t) : t ∈ s.armed ∧ t.handle = handle := by
  have hfound := List.find?_some h
  exact ⟨List.mem_of_find?_eq_some h, of_decide_eq_true hfound⟩

omit [DecidableEq η] in
/-- Among timers told apart by their handles, the one of a handle is the one with it. -/
theorem timer_of_mem (hdistinct : (s.armed.map Timer.handle).Nodup) (ht : t ∈ s.armed) :
    s.timer t.handle = some t := by
  cases h : s.timer t.handle with
  | none =>
      have hnone := List.find?_eq_none.mp h t ht
      exact absurd (decide_eq_true rfl) hnone
  | some t' =>
      obtain ⟨ht', hhandle⟩ := timer_spec h
      rw [List.inj_on_of_nodup_map hdistinct ht' ht hhandle]

omit [DecidableEq η] in
theorem inv_init : Inv feed { feed } where
  selfHex := rfl
  sampleSize := rfl
  pending := fun _ h => absurd h List.not_mem_nil
  current := fun _ h => absurd h List.not_mem_nil
  distinct := List.nodup_nil
  earlier := fun _ h => absurd h List.not_mem_nil

theorem Inv.request (hI : Inv feed s) : Inv feed (step s (.request answer draws)) := by
  obtain ⟨hself, hsize, hgeneration, -⟩ := request_frame s.feed answer draws s.fresh
  have hsame : (step s (.request answer draws)).feed = (s.feed.request answer draws s.fresh).2 := rfl
  rcases request_cases s.feed answer draws s.fresh with ⟨hnone, hpending, -⟩ | ⟨pool, -, -, hsome, hpending⟩
  · have harmed : (step s (.request answer draws)).armed = s.armed := by
      rw [step, requested, hnone, Option.toList_none, List.append_nil]
    refine ⟨hself.trans hI.selfHex, hsize.trans hI.sampleSize, fun t ht => ?_, fun t ht => ?_, ?_,
      fun t ht => ?_⟩
    · rw [hsame, hpending]
      exact hI.pending t (harmed ▸ ht)
    · rw [hsame, hgeneration]
      exact hI.current t (harmed ▸ ht)
    · rw [harmed]
      exact hI.distinct
    · exact (hI.earlier t (harmed ▸ ht)).trans_le (Nat.le_add_right _ _)
  · have harmed : ∀ t ∈ (step s (.request answer draws)).armed, t ∈ s.armed ∨
        t.handle = s.fresh ∧ t.generation = s.feed.generation := by
      intro t ht
      rw [step, requested, hsome, Option.toList_some] at ht
      rcases List.mem_append.mp ht with ht | ht
      · exact Or.inl ht
      · rw [List.mem_singleton.mp ht]
        exact Or.inr ⟨rfl, rfl⟩
    have hfresh : (step s (.request answer draws)).fresh = s.fresh + 1 := by
      rw [step, requested, hsome]
      rfl
    refine ⟨hself.trans hI.selfHex, hsize.trans hI.sampleSize, fun t ht => ?_, fun t ht => ?_, ?_,
      fun t ht => ?_⟩
    · rw [hsame, hpending, JsMap.has, JsMap.get_set]
      split
      · rfl
      · rename_i hne
        exact hI.pending t ((harmed t ht).resolve_right fun hnew => hne hnew.1)
    · rw [hsame, hgeneration]
      exact (harmed t ht).elim (hI.current t) And.right
    · rw [step, requested, hsome, Option.toList_some, List.map_append]
      refine List.nodup_append.mpr ⟨hI.distinct, List.nodup_singleton _, fun a ha b hb hab => ?_⟩
      obtain ⟨t, ht, rfl⟩ := List.mem_map.mp ha
      rw [List.map_singleton, List.mem_singleton] at hb
      exact absurd (hab.trans hb) (hI.earlier t ht).ne
    · rw [hfresh]
      rcases harmed t ht with hold | ⟨hnew, -⟩
      · exact (hI.earlier t hold).trans (Nat.lt_succ_self _)
      · omega

theorem Inv.fire (hI : Inv feed s) : Inv feed (step s (.fire handle)) := by
  have hfeed : (step s (.fire handle)).feed = s.feed ∨
      (step s (.fire handle)).feed = { s.feed with pending := s.feed.pending.delete handle } := by
    rw [step]
    cases h : s.timer handle with
    | none => exact Or.inl rfl
    | some t => exact Or.inr (by rw [Option.map_some, Option.getD_some, fired_snd, (timer_spec h).2])
  have harmed : ∀ t ∈ (step s (.fire handle)).armed, t ∈ s.armed ∧ t.handle ≠ handle := fun t ht =>
    ⟨List.mem_of_mem_filter ht, of_decide_eq_true (List.mem_filter.mp ht).2⟩
  refine ⟨?_, ?_, fun t ht => ?_, fun t ht => ?_, ?_, fun t ht => hI.earlier t (harmed t ht).1⟩
  · rcases hfeed with h | h <;> rw [h] <;> exact hI.selfHex
  · rcases hfeed with h | h <;> rw [h] <;> exact hI.sampleSize
  · obtain ⟨hmem, hne⟩ := harmed t ht
    rcases hfeed with h | h
    · rw [h]
      exact hI.pending t hmem
    · rw [h, JsMap.has, JsMap.get_delete_of_ne _ hne]
      exact hI.pending t hmem
  · rcases hfeed with h | h <;> rw [h] <;> exact hI.current t (harmed t ht).1
  · exact hI.distinct.sublist (List.filter_sublist.map Timer.handle)

theorem armed_stop (hI : Inv feed s) : (step s .stop).armed = [] := by
  refine List.filter_eq_nil_iff.mpr fun t ht => ?_
  simp [hI.pending t ht]

theorem Inv.step (hI : Inv feed s) (e : Event η) : Inv feed (Turns.step s e) := by
  cases e with
  | request answer draws => exact hI.request
  | setSource source => exact ⟨hI.selfHex, hI.sampleSize, hI.pending, hI.current, hI.distinct, hI.earlier⟩
  | onPeerList handler => exact ⟨hI.selfHex, hI.sampleSize, hI.pending, hI.current, hI.distinct, hI.earlier⟩
  | unsubscribe handler => exact ⟨hI.selfHex, hI.sampleSize, hI.pending, hI.current, hI.distinct, hI.earlier⟩
  | stop =>
      have hnone : ∀ t, t ∉ (Turns.step s .stop).armed := fun t ht => by
        rw [armed_stop hI] at ht
        exact absurd ht List.not_mem_nil
      refine ⟨hI.selfHex, hI.sampleSize, fun t ht => absurd ht (hnone t),
        fun t ht => absurd ht (hnone t), ?_, fun t ht => absurd ht (hnone t)⟩
      rw [armed_stop hI]
      exact List.nodup_nil
  | start => exact hI
  | fire handle => exact hI.fire

theorem inv_after (hes : (system feed).Valid (system feed).init es) :
    Inv feed ((system feed).after (system feed).init es) :=
  hes.invariant inv_init fun _ e hI _ => hI.step e

/-! ### From a request to its delivery -/

/-- What is armed under a handle that was given out meets `p`. -/
def Confined (p : Timer → Prop) (handle : Nat) (s : Turns η) : Prop :=
  (∀ t ∈ s.armed, t.handle = handle → p t) ∧ handle < s.fresh

theorem mem_armed_step (ht : t ∈ (step s e).armed) :
    t ∈ s.armed ∨ ∃ answer draws, e = .request answer draws ∧ s.requested answer draws = some t := by
  cases e with
  | request answer draws =>
      refine (List.mem_append.mp ht).imp id fun hnew => ⟨answer, draws, rfl, ?_⟩
      exact Option.mem_toList.mp hnew
  | stop => exact Or.inl (List.mem_of_mem_filter ht)
  | fire handle => exact Or.inl (List.mem_of_mem_filter ht)
  | setSource source => exact Or.inl ht
  | onPeerList handler => exact Or.inl ht
  | unsubscribe handler => exact Or.inl ht
  | start => exact Or.inl ht

omit [DecidableEq η] in
theorem requested_spec (h : s.requested answer draws = some t) :
    t.handle = s.fresh ∧ s.feed.source = true ∧ ∃ pool, answer = .array pool ∧
      t.sample = draw s.feed.sampleSize draws (candidates s.feed.selfHex pool) := by
  rcases request_cases s.feed answer draws s.fresh with ⟨hnone, -⟩ | ⟨pool, hpool, hsource, hsome, -⟩
  · rw [requested, hnone] at h
    cases h
  · rw [requested, hsome] at h
    cases h
    exact ⟨rfl, hsource, pool, hpool, rfl⟩

omit [DecidableEq η] in
theorem requested_eq_none_iff : s.requested answer draws = none ↔
    s.feed.source = false ∨ ∀ pool, answer ≠ .array pool := by
  rcases request_cases s.feed answer draws s.fresh with ⟨hnone, -, hwhy⟩ | ⟨pool, hpool, hsource, hsome, -⟩
  · exact ⟨fun _ => hwhy, fun _ => hnone⟩
  · constructor
    · intro h
      rw [requested, hsome] at h
      cases h
    · rintro (h | h)
      · rw [hsource] at h
        cases h
      · exact absurd hpool (h pool)

theorem fresh_le_step : s.fresh ≤ (step s e).fresh := by
  cases e with
  | request answer draws => exact Nat.le_add_right _ _
  | _ => exact le_rfl

theorem Confined.step {p : Timer → Prop} (h : Confined p handle s) (e : Event η) :
    Confined p handle (Turns.step s e) := by
  refine ⟨fun t ht hhandle => ?_, h.2.trans_le fresh_le_step⟩
  rcases mem_armed_step ht with hold | ⟨answer, draws, -, hnew⟩
  · exact h.1 t hold hhandle
  · exact absurd ((requested_spec hnew).1.symm.trans hhandle) h.2.ne'

theorem Confined.after {p : Timer → Prop} (h : Confined p handle s)
    (hes : (system feed).Along Enabled s es) : Confined p handle ((system feed).after s es) :=
  hes.invariant (fun _ e hc _ => hc.step e) h

/-- Nothing is armed under a handle after its timer fired or was cleared, and nothing fires. -/
theorem Confined.not_mem (h : Confined (fun _ => False) handle s)
    (hes : (system feed).Along Enabled s es) : .fire handle ∉ es := by
  have hfire : (system feed).Along (fun _ e => e ≠ .fire handle) s es := by
    refine hes.of_invariant (I := Confined (fun _ => False) handle) (fun s e hc he => ?_) h
    refine ⟨?_, hc.step e⟩
    rintro rfl
    obtain ⟨t, ht, hhandle⟩ := he
    exact hc.1 t ht hhandle
  intro hmem
  obtain ⟨es₁, es₂, hsplit⟩ := List.append_of_mem hmem
  exact System.along_iff_split.mp hfire es₁ _ es₂ hsplit rfl

theorem confined_fire (hI : Inv feed s) (he : Enabled s (.fire handle)) :
    Confined (fun _ => False) handle (step s (.fire handle)) := by
  refine ⟨fun t ht hhandle => ?_, ?_⟩
  · exact of_decide_eq_true (List.mem_filter.mp ht).2 hhandle
  · obtain ⟨t, ht, rfl⟩ := he
    exact hI.earlier t ht

/-- A request of the run armed the timer, with no stop and no firing of it since. -/
def Pending (feed : DirectoryFeed η) (es : List (Event η)) (t : Timer) : Prop :=
  ∃ fs answer draws gs, es = fs ++ .request answer draws :: gs ∧
    ((system feed).after (system feed).init fs).requested answer draws = some t ∧
    .stop ∉ gs ∧ .fire t.handle ∉ gs

theorem pending_of_armed (hes : (system feed).Valid (system feed).init es) :
    ∀ t ∈ ((system feed).after (system feed).init es).armed, Pending feed es t := by
  refine hes.history
    (P := fun es => ∀ t ∈ ((system feed).after (system feed).init es).armed, Pending feed es t)
    (fun t ht => absurd ht List.not_mem_nil) fun es e hes _ ih t ht => ?_
  rw [System.after_append] at ht
  rcases mem_armed_step ht with hold | ⟨answer, draws, rfl, hnew⟩
  · obtain ⟨fs, answer, draws, gs, rfl, hrequested, hstop, hfire⟩ := ih t hold
    refine ⟨fs, answer, draws, gs ++ [e], by simp, hrequested, fun hmem => ?_, fun hmem => ?_⟩
    · rcases List.mem_append.mp hmem with hmem | hmem
      · exact hstop hmem
      · obtain rfl := (List.mem_singleton.mp hmem).symm
        have hnone : t ∈ (step _ .stop).armed := ht
        rw [armed_stop (inv_after hes)] at hnone
        exact absurd hnone List.not_mem_nil
    · rcases List.mem_append.mp hmem with hmem | hmem
      · exact hfire hmem
      · obtain rfl := (List.mem_singleton.mp hmem).symm
        have hgone : t ∈ (step _ (.fire t.handle)).armed := ht
        exact of_decide_eq_true (List.mem_filter.mp hgone).2 rfl
  · exact ⟨es, answer, draws, [], rfl, hnew, List.not_mem_nil, List.not_mem_nil⟩

omit [DecidableEq η] in
/-- The firing of an armed timer hands its sample to everyone subscribed. -/
theorem delivered_fire (hI : Inv feed s) (ht : t ∈ s.armed) :
    delivered s (.fire t.handle) = s.feed.handlers.keys.map fun h => (h, t.sample) := by
  rw [delivered, timer_of_mem hI.distinct ht, Option.map_some, Option.getD_some, fired]
  exact congrArg Prod.fst (if_neg (not_not.mpr (hI.current t ht)))

/-! ### Who is subscribed, and what is sampled -/

/-- The handler was subscribed and has not been unsubscribed since. -/
def Subscribed (es : List (Event η)) (handler : η) : Prop :=
  ∃ fs gs, es = fs ++ .onPeerList handler :: gs ∧ .unsubscribe handler ∉ gs

/-- The subscribed handlers after a turn. -/
def subscribers (handlers : JsMap η Unit) : Event η → JsMap η Unit
  | .onPeerList handler => handlers.set handler ()
  | .unsubscribe handler => handlers.delete handler
  | _ => handlers

theorem handlers_step : (step s e).feed.handlers = subscribers s.feed.handlers e := by
  cases e with
  | request answer draws => exact (request_frame s.feed answer draws s.fresh).2.2.2
  | fire handle =>
      rw [step]
      cases s.timer handle with
      | none => rfl
      | some t =>
          rw [Option.map_some, Option.getD_some, fired_snd]
          rfl
  | _ => rfl

omit [DecidableEq η] in
theorem subscribed_concat {handler : η} :
    Subscribed (es ++ [e]) handler ↔ e = .onPeerList handler ∨
      e ≠ .unsubscribe handler ∧ Subscribed es handler := by
  constructor
  · rintro ⟨fs, gs, hsplit, hnot⟩
    rcases List.eq_nil_or_concat gs with rfl | ⟨gs, f, rfl⟩
    · obtain ⟨-, heq⟩ := List.append_inj' hsplit rfl
      exact Or.inl (List.cons.inj heq).1
    · rw [List.concat_eq_append, ← List.cons_append, ← List.append_assoc] at hsplit
      obtain ⟨rfl, heq⟩ := List.append_inj' hsplit rfl
      rw [List.concat_eq_append, List.mem_append, not_or] at hnot
      refine Or.inr ⟨fun he => hnot.2 ?_, fs, gs, rfl, hnot.1⟩
      rw [← (List.cons.inj heq).1, he]
      exact List.mem_singleton_self _
  · rintro (rfl | ⟨hne, fs, gs, rfl, hnot⟩)
    · exact ⟨es, [], rfl, List.not_mem_nil⟩
    · refine ⟨fs, gs ++ [e], by simp, fun hmem => ?_⟩
      rcases List.mem_append.mp hmem with hmem | hmem
      · exact hnot hmem
      · exact hne (List.mem_singleton.mp hmem).symm

theorem mem_handlers_iff (hfeed : feed.handlers = JsMap.empty) {handler : η} :
    handler ∈ ((system feed).after (system feed).init es).feed.handlers.keys ↔
      Subscribed es handler := by
  induction es using List.reverseRecOn with
  | nil =>
      refine ⟨fun h => ?_, ?_⟩
      · have h : handler ∈ feed.handlers.keys := h
        rw [hfeed] at h
        exact absurd h List.not_mem_nil
      · rintro ⟨fs, gs, hsplit, -⟩
        exact absurd hsplit (by simp)
  | append_singleton es e ih =>
      rw [System.after_append, subscribed_concat, ← ih]
      change handler ∈ (step _ e).feed.handlers.keys ↔ _
      rw [handlers_step]
      cases e with
      | onPeerList other =>
          rw [subscribers, JsMap.mem_keys_set]
          simp [@eq_comm _ handler other]
      | unsubscribe other =>
          rw [subscribers, JsMap.keys_delete, List.mem_filter, and_comm]
          simp [@eq_comm _ handler other]
      | _ => simp [subscribers]

theorem toLowerCase_of_isHex66 (h' : isHex66 h = true) : toLowerCase h = h := by
  rw [isHex66, Bool.and_eq_true, List.all_eq_true] at h'
  rw [toLowerCase, List.map_congr_left (g := id), List.map_id]
  intro u hu
  have hdigit := h'.2 u hu
  refine if_neg fun hupper => ?_
  simp only [isHexDigit, Bool.or_eq_true, Bool.and_eq_true, decide_eq_true_eq, UInt16.le_iff_toNat_le]
    at hdigit hupper
  have h65 : (65 : UInt16).toNat = 65 := rfl
  have h90 : (90 : UInt16).toNat = 90 := rfl
  have h48 : (48 : UInt16).toNat = 48 := rfl
  have h57 : (57 : UInt16).toNat = 57 := rfl
  have h97 : (97 : UInt16).toNat = 97 := rfl
  omega

/-- What a sample is: as many distinct ids of the answer as there are, up to the sample size, well-formed,
in lower case, and in no letter case the bridge's own. -/
structure Samples (own : JsString) (feed : DirectoryFeed η) (pool : List (Option JsVal))
    (sample : List JsString) : Prop where
  nodup : sample.Nodup
  length : sample.length = min feed.sampleSize (offered feed.selfHex pool).dedup.length
  hex : ∀ h ∈ sample, isHex66 h = true
  answered : ∀ h ∈ sample, ∃ p, some (.str p) ∈ pool ∧ toLowerCase p = h
  other : ∀ h ∈ sample, toLowerCase h ≠ toLowerCase own

omit [DecidableEq η] in
theorem samples_of_requested {own : JsString} {source : Bool} {sampleSize : Int}
    (hcreate : create own source sampleSize = .ok feed) (hI : Inv feed s)
    (hrequested : s.requested answer draws = some t) :
    ∃ pool, answer = .array pool ∧ Samples own feed pool t.sample := by
  obtain ⟨-, -, pool, hpool, hsample⟩ := requested_spec hrequested
  have hself : feed.selfHex = toLowerCase own := by
    unfold create at hcreate
    split at hcreate
    · cases hcreate
      rfl
    · cases hcreate
  rw [hI.selfHex, hI.sampleSize, draw_eq_pick] at hsample
  have hperm := PartialShuffle.foldl_swap_perm draws
    (List.range (min feed.sampleSize (candidates feed.selfHex pool).length))
    (candidates feed.selfHex pool)
  have hmem : ∀ h ∈ t.sample, h ∈ offered feed.selfHex pool := fun h hmem => by
    rw [hsample] at hmem
    exact mem_candidates.mp (PartialShuffle.pick_subset hmem)
  refine ⟨pool, hpool, ?_, ?_, fun h hh => (mem_offered.mp (hmem h hh)).2.1,
    fun h hh => (mem_offered.mp (hmem h hh)).1, fun h hh => ?_⟩
  · rw [hsample]
    exact (hperm.nodup_iff.mpr nodup_candidates).sublist (List.take_sublist _ _)
  · rw [hsample, PartialShuffle.pick, List.length_take, hperm.length_eq, length_candidates]
    omega
  · obtain ⟨-, hhex, hne⟩ := mem_offered.mp (hmem h hh)
    rw [toLowerCase_of_isHex66 hhex, ← hself]
    exact hne

/-! ### The discipline -/

/-- After the request of `t`, with the events `es₁` up to it and `es₂` behind it: no firing under its
handle before, no other timer of that handle later, and one firing at the most, which no stop precedes
and which hands the sample to those subscribed by then. -/
structure DeliveredOnce (feed : DirectoryFeed η) (es₁ es₂ : List (Event η)) (t : Timer) : Prop where
  not_before : .fire t.handle ∉ es₁
  own_handle : ∀ fs answer draws gs t', es₂ = fs ++ .request answer draws :: gs →
    ((system feed).after (system feed).init (es₁ ++ fs)).requested answer draws = some t' →
    t'.handle ≠ t.handle
  once : ∀ fs gs, es₂ = fs ++ .fire t.handle :: gs →
    .stop ∉ fs ∧ .fire t.handle ∉ fs ∧ .fire t.handle ∉ gs
  to_subscribed : ∀ fs gs, es₂ = fs ++ .fire t.handle :: gs →
    ∃ handlers : List η, handlers.Nodup ∧
      (∀ handler, handler ∈ handlers ↔ Subscribed (es₁ ++ fs) handler) ∧
      delivered ((system feed).after (system feed).init (es₁ ++ fs)) (.fire t.handle) =
        handlers.map fun handler => (handler, t.sample)

theorem confined_request (hI : Inv feed s) (h : s.requested answer draws = some t) :
    Confined (· = t) t.handle (step s (.request answer draws)) := by
  have hhandle := (requested_spec h).1
  refine ⟨fun t' ht' heq => ?_, ?_⟩
  · rcases mem_armed_step ht' with hold | ⟨answer', draws', hevent, hnew⟩
    · exact absurd (heq.trans hhandle) (hI.earlier t' hold).ne
    · cases hevent
      exact Option.some.inj (hnew.symm.trans h)
  · rw [step, h, hhandle]
    exact Nat.lt_succ_self _

theorem confined_stop (hI : Inv feed s) (h : handle < s.fresh) :
    Confined (fun _ => False) handle (step s .stop) := by
  refine ⟨fun t ht _ => ?_, h⟩
  rw [armed_stop hI] at ht
  exact absurd ht List.not_mem_nil

theorem deliveredOnce (hempty : feed.handlers = JsMap.empty)
    (hes₁ : (system feed).Valid (system feed).init es₁)
    (hrequested : ((system feed).after (system feed).init es₁).requested answer draws = some t)
    (hes₂ : (system feed).Along Enabled
      ((system feed).after (system feed).init (es₁ ++ [.request answer draws])) es₂) :
    DeliveredOnce feed (es₁ ++ [.request answer draws]) es₂ t := by
  have hvalid : ∀ {fs gs}, es₂ = fs ++ gs → (system feed).Valid (system feed).init
      (es₁ ++ [.request answer draws] ++ fs) := fun {fs gs} hsplit => by
    rw [hsplit, System.along_append] at hes₂
    exact System.along_append.mpr ⟨System.along_append.mpr ⟨hes₁, trivial, trivial⟩, hes₂.1⟩
  have hI₁ := inv_after hes₁
  have hconfined : ∀ {fs gs}, es₂ = fs ++ gs → Confined (· = t) t.handle
      ((system feed).after (system feed).init (es₁ ++ [.request answer draws] ++ fs)) :=
    fun {fs gs} hsplit => by
      rw [hsplit, System.along_append] at hes₂
      rw [System.after_append]
      refine Confined.after ?_ hes₂.1
      rw [System.after_append]
      exact confined_request hI₁ hrequested
  -- Once nothing is armed under the handle, nothing fires under it.
  have hnever : ∀ {fs e gs}, es₂ = fs ++ e :: gs → Confined (fun _ => False) t.handle
      (step ((system feed).after (system feed).init (es₁ ++ [.request answer draws] ++ fs)) e) →
      .fire t.handle ∉ gs := fun {fs e gs} hsplit hnone => by
    rw [hsplit, System.along_append] at hes₂
    rw [System.after_append] at hnone
    exact hnone.not_mem hes₂.2.2
  have hafter : ∀ {fs gs}, es₂ = fs ++ .fire t.handle :: gs → .fire t.handle ∉ gs :=
    fun {fs gs} hsplit => by
      refine hnever hsplit (confined_fire (inv_after (hvalid hsplit)) ?_)
      have halong := hes₂
      rw [hsplit, System.along_append, ← System.after_append] at halong
      exact halong.2.1
  refine ⟨fun hmem => ?_, fun fs answer' draws' gs t' hsplit ht' => ?_, fun fs gs hsplit => ?_,
    fun fs gs hsplit => ?_⟩
  · have hmem : .fire t.handle ∈ es₁ :=
      (List.mem_append.mp hmem).resolve_right fun h => nomatch List.mem_singleton.mp h
    obtain ⟨as, bs, rfl⟩ := List.append_of_mem hmem
    obtain ⟨has, hfire, hbs⟩ := System.along_append.mp hes₁
    have hgone := (confined_fire (inv_after has) hfire).after hbs
    have hfresh := (requested_spec hrequested).1
    rw [System.after_append] at hfresh
    exact hgone.2.ne hfresh
  · have := (hconfined hsplit).2
    rw [(requested_spec ht').1]
    exact this.ne'
  · refine ⟨fun hmem => ?_, fun hmem => ?_, hafter hsplit⟩
    · obtain ⟨as, bs, rfl⟩ := List.append_of_mem hmem
      rw [List.append_assoc, List.cons_append] at hsplit
      refine hnever hsplit (confined_stop (inv_after (hvalid hsplit)) (hconfined hsplit).2) ?_
      exact List.mem_append_right _ List.mem_cons_self
    · obtain ⟨as, bs, rfl⟩ := List.append_of_mem hmem
      rw [List.append_assoc, List.cons_append] at hsplit
      exact hafter hsplit (List.mem_append_right _ List.mem_cons_self)
  · have halong := hes₂
    rw [hsplit, System.along_append, ← System.after_append] at halong
    obtain ⟨t', ht', hhandle⟩ := halong.2.1
    obtain rfl := (hconfined hsplit).1 t' ht' hhandle
    refine ⟨_, JsMap.nodup _, fun handler => mem_handlers_iff hempty, ?_⟩
    exact delivered_fire (inv_after (hvalid hsplit)) ht'

/-- The discipline of the deliveries. A delivery is the firing of a timer that one request armed, with no
stop since; what a request that returned true sampled is delivered once at the most, later, to those
subscribed by then; a request that returned false armed nothing. -/
theorem delivery_discipline {own : JsString} {source : Bool} {sampleSize : Int}
    (hcreate : create own source sampleSize = .ok feed)
    (hes : (system feed).Valid (system feed).init es) :
    (∀ es₁ e es₂, es = es₁ ++ e :: es₂ →
      delivered ((system feed).after (system feed).init es₁) e ≠ [] →
        ∃ t, e = .fire t.handle ∧ Pending feed es₁ t) ∧
    ∀ es₁ answer draws es₂, es = es₁ ++ .request answer draws :: es₂ →
      (((system feed).after (system feed).init es₁).requested answer draws = none ↔
        ((system feed).after (system feed).init es₁).feed.source = false ∨
          ∀ pool, answer ≠ .array pool) ∧
      ∀ t, ((system feed).after (system feed).init es₁).requested answer draws = some t →
        DeliveredOnce feed (es₁ ++ [.request answer draws]) es₂ t ∧
          ∃ pool, answer = .array pool ∧ Samples own feed pool t.sample := by
  constructor
  · rintro es₁ e es₂ rfl hdelivered
    obtain ⟨hes₁, he, -⟩ := System.along_append.mp hes
    cases e with
    | fire handle =>
        obtain ⟨t, ht, rfl⟩ := he
        exact ⟨t, rfl, pending_of_armed hes₁ t ht⟩
    | _ => exact absurd rfl hdelivered
  · rintro es₁ answer draws es₂ rfl
    have hempty : feed.handlers = JsMap.empty := by
      unfold create at hcreate
      split at hcreate
      · cases hcreate
        rfl
      · cases hcreate
    obtain ⟨hes₁, -, hes₂⟩ := System.along_append.mp hes
    refine ⟨requested_eq_none_iff, fun t ht => ⟨?_, ?_⟩⟩
    · refine deliveredOnce hempty hes₁ ht ?_
      rw [System.after_append]
      exact hes₂
    · exact samples_of_requested hcreate (inv_after hes₁) ht

/-- A feed with a source, one handler and one request for one id. -/
def oneFeed : DirectoryFeed Nat := { selfHex := .replicate 66 99, source := true, sampleSize := 2 }

def oneRequest : List (Event Nat) :=
  [.onPeerList 7, .request (.array [some (.str (.replicate 66 65)), none]) [0]]

theorem delivery_discipline_one :
    create (.replicate 66 67) true 2 = .ok oneFeed ∧
      delivered ((system oneFeed).after (system oneFeed).init oneRequest) (.fire 0) =
        [(7, [.replicate 66 97])] ∧
      ∃ t, Event.fire 0 = (.fire t.handle : Event Nat) ∧ Pending oneFeed oneRequest t := by
  have hcreate : create (.replicate 66 67) true 2 = .ok oneFeed := by
    unfold create
    exact if_pos (by decide +kernel)
  have hdelivered : delivered ((system oneFeed).after (system oneFeed).init oneRequest) (.fire 0) =
      [(7, [.replicate 66 97])] := by decide +kernel
  have harmed : ∃ t ∈ ((system oneFeed).after (system oneFeed).init oneRequest).armed,
      t.handle = 0 := by decide +kernel
  have hvalid : (system oneFeed).Valid (system oneFeed).init (oneRequest ++ [.fire 0]) :=
    ⟨trivial, trivial, harmed, trivial⟩
  refine ⟨hcreate, hdelivered, ?_⟩
  exact (delivery_discipline hcreate hvalid).1 oneRequest (.fire 0) [] rfl (by simp [hdelivered])

end Turns

end DirectoryFeed

end AxonaBridge
