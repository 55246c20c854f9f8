import AxonaBridge.JsValue
import AxonaBridge.RegistryRuns

/-!
# The directory step on a bridge

`DirectoryFeed` of `directory_feed.js`: a request draws a sample of what the source answers and leaves
its delivery to a timer. What the source answers and what the random draws are is given with the
request; the handle of the timer is the event loop's.
-/

open JsText

namespace AxonaBridge

/-- `R_SAMPLE` -/
def R_SAMPLE : Nat := 16

namespace DirectoryFeed

/-- What the source answers when it is called. -/
inductive Answer where
  | threw
  /-- Anything but an array. -/
  | malformed
  | array (pool : List (Option JsVal))

/-- A deferred delivery. -/
structure Timer where
  handle : Nat
  generation : Nat
  sample : List JsString
  deriving DecidableEq

structure Stats where
  requests : Nat := 0
  unavailable : Nat := 0
  served : Nat := 0
  failed : Nat := 0
  lastPool : Nat := 0
  lastSample : Nat := 0

end DirectoryFeed

/-- The feed; its handlers and its pending timers are sets in the order of insertion. -/
structure DirectoryFeed (η : Type) where
  selfHex : JsString
  /-- Whether there is a source. -/
  source : Bool
  sampleSize : Nat
  handlers : JsMap η Unit := JsMap.empty
  pending : JsMap Nat Unit := JsMap.empty
  generation : Nat := 0
  stats : DirectoryFeed.Stats := {}

namespace DirectoryFeed

variable {η : Type}

/-- The constructor; what is not a whole number is passed as a sample size of zero. -/
def create (selfHex : JsString) (source : Bool) (sampleSize : Int) :
    Except JsString (DirectoryFeed η) :=
  if isHex66 (toLowerCase selfHex) then
    .ok {
      selfHex := toLowerCase selfHex
      source
      sampleSize := if 0 < sampleSize then sampleSize.toNat else R_SAMPLE }
  else .error (js "DirectoryFeed: selfHex must be a 66-hex nodeId")

def setSource (f : DirectoryFeed η) (source : Bool) : DirectoryFeed η := { f with source }

def onPeerList [DecidableEq η] (f : DirectoryFeed η) (handler : η) : DirectoryFeed η :=
  { f with handlers := f.handlers.set handler () }

/-- What `onPeerList` returns, called. -/
def unsubscribe [DecidableEq η] (f : DirectoryFeed η) (handler : η) : DirectoryFeed η :=
  { f with handlers := f.handlers.delete handler }

/-- One element of an answer, next to the candidates so far. -/
def addCandidate (selfHex : JsString) (cand : List JsString) (p : Option JsVal) : List JsString :=
  match JsVal.asString p with
  | none => cand
  | some p =>
      let h := toLowerCase p
      if !isHex66 h || h = selfHex || h ∈ cand then cand else cand ++ [h]

/-- The candidates of an answer; `seen` of the program holds what `cand` lists. -/
def candidates (selfHex : JsString) (pool : List (Option JsVal)) : List JsString :=
  pool.foldl (addCandidate selfHex) []

/-- The sample of the candidates; the loop runs while both of its bounds allow it. -/
def draw (sampleSize : Nat) (draws : List Nat) (cand : List JsString) : List JsString :=
  (((List.range cand.length).takeWhile (· < sampleSize)).foldl (PartialShuffle.swap draws) cand).take
    sampleSize

/-- `request`: the timer it arms where it returns true, and the feed after it. -/
def request (f : DirectoryFeed η) (answer : Answer) (draws : List Nat) (handle : Nat) :
    Option Timer × DirectoryFeed η :=
  let f := { f with stats := { f.stats with requests := f.stats.requests + 1 } }
  let unavailable := { f.stats with unavailable := f.stats.unavailable + 1 }
  if f.source then
    match answer with
    | .array pool =>
        let cand := candidates f.selfHex pool
        let sample := draw f.sampleSize draws cand
        (some { handle, generation := f.generation, sample }, { f with
          pending := f.pending.set handle ()
          stats := { f.stats with
            served := f.stats.served + 1
            lastPool := cand.length
            lastSample := sample.length } })
    | _ => (none, { f with stats := { unavailable with failed := f.stats.failed + 1 } })
  else (none, { f with stats := unavailable })

/-- The callback of the timer: who is handed the sample, and the feed after it. -/
def fired (f : DirectoryFeed η) (t : Timer) : List (η × List JsString) × DirectoryFeed η :=
  let f := { f with pending := f.pending.delete t.handle }
  if t.generation ≠ f.generation then ([], f)
  else (f.handlers.keys.map fun h => (h, t.sample), f)

/-- `stop`, which also clears the timers that are pending. -/
def stop (f : DirectoryFeed η) : DirectoryFeed η :=
  { f with generation := f.generation + 1, pending := JsMap.empty }

/-! ### The candidates -/

/-- The well-formed ids of an answer, in lower case and without the bridge's own. -/
def offered (selfHex : JsString) (pool : List (Option JsVal)) : List JsString :=
  (pool.filterMap fun p => (JsVal.asString p).map toLowerCase).filter fun h =>
    isHex66 h && h ≠ selfHex

variable {selfHex h : JsString} {pool : List (Option JsVal)} {p : Option JsVal}
  {cand : List JsString} {draws : List Nat} {handle count : Nat} {f : DirectoryFeed η}
  {answer : Answer}

theorem mem_offered : h ∈ offered selfHex pool ↔
    (∃ p, some (.str p) ∈ pool ∧ toLowerCase p = h) ∧ isHex66 h = true ∧ h ≠ selfHex := by
  rw [offered, List.mem_filter, List.mem_filterMap, Bool.and_eq_true, decide_eq_true_iff]
  refine and_congr_left fun _ => ⟨?_, ?_⟩
  · rintro ⟨p, hp, hmap⟩
    obtain ⟨v, hv, rfl⟩ := Option.map_eq_some_iff.mp hmap
    refine ⟨v, ?_, rfl⟩
    unfold JsVal.asString at hv
    split at hv
    · cases hv
      exact hp
    · cases hv
  · rintro ⟨p, hp, rfl⟩
    exact ⟨some (.str p), hp, rfl⟩

theorem offered_cons :
    offered selfHex (p :: pool) = offered selfHex [p] ++ offered selfHex pool := by
  rw [offered, offered, offered, ← List.filter_append, ← List.filterMap_append,
    List.singleton_append]

/-- An element adds the id it offers, if it is new. -/
theorem addCandidate_eq :
    addCandidate selfHex cand p = cand ∧ offered selfHex [p] ⊆ cand ∨
      ∃ h, h ∉ cand ∧ addCandidate selfHex cand p = cand ++ [h] ∧ offered selfHex [p] = [h] := by
  unfold addCandidate offered
  rw [List.filterMap_cons]
  cases JsVal.asString p with
  | none => exact Or.inl ⟨rfl, List.nil_subset _⟩
  | some v =>
      dsimp only [Option.map_some, List.filterMap_nil]
      by_cases hin : toLowerCase v ∈ cand
      · left
        simp only [hin, decide_true, Bool.or_true, if_true, true_and]
        exact fun a ha => List.mem_singleton.mp (List.mem_of_mem_filter ha) ▸ hin
      · cases hhex : isHex66 (toLowerCase v) with
        | false => exact Or.inl ⟨by simp, by simp [hhex]⟩
        | true =>
            by_cases hself : toLowerCase v = selfHex
            · exact Or.inl ⟨by simp [hself], by simp [hself]⟩
            · exact Or.inr ⟨toLowerCase v, hin, by simp [hself, hin], by simp [hhex, hself]⟩

theorem mem_candidates : h ∈ candidates selfHex pool ↔ h ∈ offered selfHex pool := by
  suffices hacc : ∀ cand, h ∈ pool.foldl (addCandidate selfHex) cand ↔
      h ∈ cand ∨ h ∈ offered selfHex pool by
    rw [candidates, hacc []]
    exact ⟨fun hor => hor.resolve_left List.not_mem_nil, Or.inr⟩
  induction pool with
  | nil => simp [offered]
  | cons p pool ih =>
      intro cand
      rw [List.foldl_cons, ih, offered_cons, List.mem_append, ← or_assoc]
      refine or_congr_left ?_
      rcases @addCandidate_eq selfHex p cand with ⟨hsame, hsub⟩ | ⟨new, -, hadd, hnew⟩
      · rw [hsame]
        exact ⟨Or.inl, fun hor => hor.elim id fun hmem => hsub hmem⟩
      · rw [hadd, hnew, List.mem_append]

theorem nodup_candidates : (candidates selfHex pool).Nodup := by
  suffices hacc : ∀ cand : List JsString, cand.Nodup →
      (pool.foldl (addCandidate selfHex) cand).Nodup from hacc [] List.nodup_nil
  induction pool with
  | nil => exact fun _ hnd => hnd
  | cons p pool ih =>
      intro cand hnd
      refine ih _ ?_
      rcases @addCandidate_eq selfHex p cand with ⟨hsame, -⟩ | ⟨new, hnot, hadd, -⟩
      · rwa [hsame]
      · rw [hadd]
        refine List.nodup_append.mpr ⟨hnd, List.nodup_singleton new, fun a ha b hb hab => hnot ?_⟩
        rwa [← List.mem_singleton.mp hb, ← hab]

theorem length_candidates :
    (candidates selfHex pool).length = (offered selfHex pool).dedup.length := by
  refine List.Perm.length_eq ?_
  rw [List.perm_ext_iff_of_nodup nodup_candidates (List.nodup_dedup _)]
  intro h
  rw [mem_candidates, List.mem_dedup]

/-! ### The sample -/

theorem takeWhile_range (n m : Nat) : (List.range n).takeWhile (· < m) = List.range (min m n) := by
  induction n with
  | zero => simp
  | succ n ih =>
      rw [List.range_succ, List.takeWhile_append, ih]
      by_cases hn : n < m
      · have hmin : min m n = n := Nat.min_eq_right hn.le
        have hmin' : min m (n + 1) = n + 1 := Nat.min_eq_right hn
        rw [hmin, hmin', List.range_succ]
        simp [hn]
      · have hmin : min m n = m := Nat.min_eq_left (Nat.le_of_not_lt hn)
        have hmin' : min m (n + 1) = m := by omega
        rw [hmin, hmin', List.length_range, List.length_range]
        split
        · rename_i heq
          simp [heq]
        · rfl

theorem draw_eq_pick :
    draw count draws cand = PartialShuffle.pick (min count cand.length) draws cand := by
  have hlen := (PartialShuffle.foldl_swap_perm draws
    (List.range (min count cand.length)) cand).length_eq
  rw [draw, takeWhile_range, PartialShuffle.pick]
  by_cases h : count ≤ cand.length
  · rw [Nat.min_eq_left h]
  · rw [List.take_of_length_le (by omega), List.take_of_length_le (by omega)]

theorem request_array (h : f.source = true) :
    (f.request (.array pool) draws handle).1 =
      some ⟨handle, f.generation, draw f.sampleSize draws (candidates f.selfHex pool)⟩ := by
  simp [request, h]

/-- Both samplers draw every ordered tuple of distinct members of a pool by exactly one sequence of
draws, and from the same pool by the same draws both draw the same. -/
theorem samplers_uniform (pool : List JsString) (count : Nat) :
    (∀ (r : GraduatedRegistry) exclude now, r.pool exclude now = pool →
      Set.BijOn (fun draws => (r.sample count exclude now draws).1)
        (PartialShuffle.Draws pool.length (min count pool.length))
        (PartialShuffle.Tuples pool (min count pool.length))) ∧
    (∀ (f : DirectoryFeed η) answer handle, f.source = true → f.sampleSize = count →
      candidates f.selfHex answer = pool →
      Set.BijOn (fun draws => (f.request (.array answer) draws handle).1.map Timer.sample)
        (PartialShuffle.Draws pool.length (min count pool.length))
        (some '' PartialShuffle.Tuples pool (min count pool.length))) ∧
    ∀ (r : GraduatedRegistry) exclude now (f : DirectoryFeed η) answer handle draws,
      r.pool exclude now = pool → f.source = true → f.sampleSize = count →
      candidates f.selfHex answer = pool →
      (f.request (.array answer) draws handle).1.map Timer.sample =
        some (r.sample count exclude now draws).1 := by
  have hregistry : ∀ (r : GraduatedRegistry) exclude now draws, r.pool exclude now = pool →
      (r.sample count exclude now draws).1 =
        PartialShuffle.pick (min count pool.length) draws pool := by
    rintro r exclude now draws rfl
    by_cases hcount : count = 0
    · rw [hcount, GraduatedRegistry.sample_zero, Nat.zero_min]
      rfl
    · rw [GraduatedRegistry.sample_of_ne_zero hcount]
  have hfeed : ∀ (f : DirectoryFeed η) answer handle draws, f.source = true →
      f.sampleSize = count → candidates f.selfHex answer = pool →
      (f.request (.array answer) draws handle).1.map Timer.sample =
        some (PartialShuffle.pick (min count pool.length) draws pool) := by
    rintro f answer handle draws hsource rfl rfl
    rw [request_array hsource, draw_eq_pick]
    rfl
  refine ⟨?_, ?_, ?_⟩
  · rintro r exclude now hpool
    have hnodup : pool.Nodup := hpool ▸ (r.prune now).map.nodup.filter _
    refine (PartialShuffle.pick_bijOn hnodup (Nat.min_le_right count _)).congr fun draws _ => ?_
    exact (hregistry r exclude now draws hpool).symm
  · rintro f answer handle hsource hsize hcand
    have hnodup : pool.Nodup := hcand ▸ nodup_candidates
    have hpick := PartialShuffle.pick_bijOn hnodup (Nat.min_le_right count _)
    have hsome := ((Option.some_injective _).injOn.bijOn_image).comp hpick
    refine hsome.congr fun draws _ => ?_
    exact (hfeed f answer handle draws hsource hsize hcand).symm
  · rintro r exclude now f answer handle draws hpool hsource hsize hcand
    rw [hfeed f answer handle draws hsource hsize hcand, hregistry r exclude now draws hpool]

/-- Two ids in the registry and on offer: by the draw `1` both samplers of one return the second. -/
theorem samplers_uniform_pair :
    let ids : List JsString := [.replicate 66 97, .replicate 66 98]
    let r := GraduatedRegistry.run 1000 4 [.note (.replicate 66 97) 0, .note (.replicate 66 98) 5]
    let f : DirectoryFeed Nat := { selfHex := .replicate 66 99, source := true, sampleSize := 1 }
    (f.request (.array (ids.map fun v => some (.str v))) [1] 0).1.map Timer.sample =
        some (r.sample 1 none 10 [1]).1 ∧
      (r.sample 1 none 10 [1]).1 = [.replicate 66 98] :=
  ⟨(samplers_uniform [.replicate 66 97, .replicate 66 98] 1).2.2 _ _ _ _ _ _ _
      (by decide +kernel) rfl rfl (by decide +kernel),
    by decide +kernel⟩

end DirectoryFeed

end AxonaBridge
