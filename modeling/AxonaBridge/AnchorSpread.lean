import AxonaBridge.AnchorContract
import AxonaBridge.BridgeLists
import AxonaBridge.Runs
import AxonaBridge.ServerMirror

/-!
# Introductions spread evenly

A fixed pool of one region, old enough for its uptime to count in full, is introduced from again and
again. The least used are chosen each time, so the uses of two candidates drift apart by one at most.
-/

open JsText

namespace AxonaBridge

namespace AnchorSelect

/-- The chosen are used once more. -/
def use (anchors : List JsString) (pool : List Candidate) : List Candidate :=
  pool.map fun c => if c.id ∈ anchors then { c with anchorUses := c.anchorUses + 1 } else c

/-- One introduction: the options it is made with and the candidates it is made from. -/
abbrev Introduction : Type := Options × List Candidate

/-- An introduction from the pool: its admitted candidates other than the newcomer are the pool. -/
structure FromPool (pool : List Candidate) (e : Introduction) : Prop where
  candidates : admitted e.1 e.2 = pool
  slots : 1 ≤ e.1.k
  uptime : 1 ≤ e.1.minUptimeMs
  load : 0 < e.1.wLoad
  enough : e.1.minPool ≤ pool.length
  seasoned : ∀ c ∈ pool, 10 * e.1.minUptimeMs ≤ e.1.now - c.since

def rotation (pool : List Candidate) : System (List Candidate) Introduction where
  init := pool
  enabled := FromPool
  step pool e := use (selectAnchors e.1 e.2).anchors pool

/-- How far the most used of the pool is ahead of the least used. -/
def spread (pool : List Candidate) : Nat :=
  (pool.map Candidate.anchorUses).max?.getD 0 - (pool.map Candidate.anchorUses).min?.getD 0

theorem spread_le_iff {pool : List Candidate} {n : Nat} : spread pool ≤ n ↔
    ∀ c ∈ pool, ∀ d ∈ pool, c.anchorUses ≤ d.anchorUses + n := by
  unfold spread
  cases hmax : (pool.map Candidate.anchorUses).max? with
  | none =>
      have hnil : pool = [] := List.map_eq_nil_iff.mp (List.max?_eq_none_iff.mp hmax)
      subst hnil
      simp
  | some most =>
      cases hmin : (pool.map Candidate.anchorUses).min? with
      | none =>
          rw [List.min?_eq_none_iff.mp hmin] at hmax
          cases hmax
      | some least =>
          obtain ⟨hmost, htop⟩ := List.max?_eq_some_iff.mp hmax
          obtain ⟨hleast, hbottom⟩ := List.min?_eq_some_iff.mp hmin
          obtain ⟨a, ha, rfl⟩ := List.mem_map.mp hmost
          obtain ⟨b, hb, rfl⟩ := List.mem_map.mp hleast
          rw [Option.getD_some, Option.getD_some]
          constructor
          · intro h c hc d hd
            have hca := htop _ (List.mem_map_of_mem hc)
            have hbd := hbottom _ (List.mem_map_of_mem hd)
            omega
          · intro h
            have hab := h a ha b hb
            omega

variable {o : Options} {pool : List Candidate} {e : Introduction}

/-! ### The least used are chosen -/

theorem le_maxUses {c : Candidate} (hc : c ∈ pool) : c.anchorUses ≤ maxUses pool := by
  have hfold : ∀ (pool : List Candidate) (m : Nat),
      m ≤ pool.foldl (fun m c => max m c.anchorUses) m ∧
        ∀ c ∈ pool, c.anchorUses ≤ pool.foldl (fun m c => max m c.anchorUses) m := by
    intro pool
    induction pool with
    | nil => exact fun m => ⟨le_refl m, fun c hc => absurd hc List.not_mem_nil⟩
    | cons d pool ih =>
        intro m
        obtain ⟨hstart, hrest⟩ := ih (max m d.anchorUses)
        rw [List.foldl_cons]
        refine ⟨(le_max_left _ _).trans hstart, fun c hc => ?_⟩
        rcases List.mem_cons.mp hc with rfl | hc
        · exact (le_max_right _ _).trans hstart
        · exact hrest c hc
  exact (hfold pool 0).2 c hc

/-- A candidate that is old enough is scored by its use alone. -/
theorem score_of_seasoned {m : Nat} {c : Candidate} (hup : 1 ≤ o.minUptimeMs)
    (hc : 10 * o.minUptimeMs ≤ o.now - c.since) :
    (score o m c).s = 1 - o.wLoad * if 0 < m then (c.anchorUses : ℚ) / m else 0 := by
  have hpos : (0 : ℚ) < ((o.minUptimeMs * 10 : Int) : ℚ) := by
    rw [Int.cast_pos]
    omega
  have hfull : (1 : ℚ) ≤ ((o.now - c.since : Int) : ℚ) / ((o.minUptimeMs * 10 : Int) : ℚ) := by
    rw [one_le_div hpos, Int.cast_le]
    omega
  unfold score
  dsimp only
  rw [min_eq_left hfull]

/-- Of two that are old enough the less used scores better. -/
theorem anchorUses_le_of_score_le {m : Nat} {u v : Candidate} (hup : 1 ≤ o.minUptimeMs)
    (hload : 0 < o.wLoad) (hu : 10 * o.minUptimeMs ≤ o.now - u.since)
    (hv : 10 * o.minUptimeMs ≤ o.now - v.since) (hm : v.anchorUses ≤ m)
    (h : (score o m u).s ≤ (score o m v).s) : v.anchorUses ≤ u.anchorUses := by
  rw [score_of_seasoned hup hu, score_of_seasoned hup hv, sub_le_sub_iff_left,
    mul_le_mul_iff_right₀ hload] at h
  by_cases hpos : 0 < m
  · have hmpos : (0 : ℚ) < m := Nat.cast_pos.mpr hpos
    rw [if_pos hpos, if_pos hpos, div_le_div_iff_of_pos_right hmpos] at h
    exact Nat.cast_le.mp h
  · omega

theorem FromPool.not_newId (h : FromPool pool e) : ∀ c ∈ pool, c.admitted && c.id ≠ e.1.newId := by
  intro c hc
  rw [← h.candidates] at hc
  exact (List.mem_filter.mp hc).2

theorem FromPool.admitted_eq (h : FromPool pool e) : admitted e.1 pool = pool :=
  List.filter_eq_self.mpr h.not_newId

theorem FromPool.selectAnchors_eq (h : FromPool pool e) :
    selectAnchors e.1 e.2 = selectAnchors e.1 pool := by
  have hsame : admitted e.1 e.2 = admitted e.1 pool := h.candidates.trans h.admitted_eq.symm
  unfold selectAnchors scored eligible
  rw [hsame]

theorem FromPool.eligible_eq (h : FromPool pool e) : eligible e.1 pool = pool := by
  unfold eligible
  rw [h.admitted_eq, List.filter_eq_self]
  intro c hc
  have hold := h.seasoned c hc
  have hup := h.uptime
  exact decide_eq_true (by omega)

/-- Whoever is chosen is used no more than whoever is not. -/
theorem FromPool.chosen_le (h : FromPool pool e) (hids : (pool.map Candidate.id).Nodup)
    (hregion : ∀ c ∈ pool, ∀ d ∈ pool, regionOf c.region = regionOf d.region) {u v : Candidate}
    (hu : u ∈ pool) (hleft : u.id ∉ (selectAnchors e.1 e.2).anchors) (hv : v ∈ pool)
    (hchosen : v.id ∈ (selectAnchors e.1 e.2).anchors) : v.anchorUses ≤ u.anchorUses := by
  rw [h.selectAnchors_eq] at hleft hchosen
  have hcontract := contract_of_le hids h.slots (by rw [h.eligible_eq]; exact h.enough)
  rw [h.eligible_eq] at hcontract
  have hscore := hcontract.preferred u hu hleft v hv hchosen (hregion u hu v hv)
  exact anchorUses_le_of_score_le h.uptime h.load (h.seasoned u hu) (h.seasoned v hv)
    (le_maxUses hv) hscore

/-! ### What an introduction keeps -/

/-- A pool of one region whose candidates are told apart by their ids. -/
structure OneRegion (pool : List Candidate) : Prop where
  ids : (pool.map Candidate.id).Nodup
  region : ∀ c ∈ pool, ∀ d ∈ pool, regionOf c.region = regionOf d.region

variable {anchors : List JsString}

theorem mem_use {c' : Candidate} (h : c' ∈ use anchors pool) : ∃ c ∈ pool, c'.id = c.id ∧
    c'.region = c.region ∧ c'.anchorUses = c.anchorUses + if c.id ∈ anchors then 1 else 0 := by
  obtain ⟨c, hc, rfl⟩ := List.mem_map.mp h
  refine ⟨c, hc, ?_⟩
  split <;> exact ⟨rfl, rfl, rfl⟩

theorem OneRegion.use (h : OneRegion pool) : OneRegion (use anchors pool) := by
  constructor
  · have hids : (AnchorSelect.use anchors pool).map Candidate.id = pool.map Candidate.id := by
      unfold AnchorSelect.use
      rw [List.map_map]
      refine List.map_congr_left fun c _ => ?_
      dsimp only [Function.comp_apply]
      split <;> rfl
    rw [hids]
    exact h.ids
  · intro c' hc' d' hd'
    obtain ⟨c, hc, -, hcregion, -⟩ := mem_use hc'
    obtain ⟨d, hd, -, hdregion, -⟩ := mem_use hd'
    rw [hcregion, hdregion]
    exact h.region c hc d hd

/-- One introduction lets no two drift apart by more than one, or than they were. -/
theorem spread_use_le (hone : OneRegion pool) (h : FromPool pool e) {n : Nat} (hn : 1 ≤ n)
    (hspread : spread pool ≤ n) : spread (use (selectAnchors e.1 e.2).anchors pool) ≤ n := by
  rw [spread_le_iff] at hspread ⊢
  intro c' hc' d' hd'
  obtain ⟨c, hc, -, -, hcuses⟩ := mem_use hc'
  obtain ⟨d, hd, -, -, hduses⟩ := mem_use hd'
  have hold := hspread c hc d hd
  rw [hcuses, hduses]
  by_cases hcin : c.id ∈ (selectAnchors e.1 e.2).anchors
  · by_cases hdin : d.id ∈ (selectAnchors e.1 e.2).anchors
    · rw [if_pos hcin, if_pos hdin]
      omega
    · have hless := h.chosen_le hone.ids hone.region hd hdin hc hcin
      rw [if_pos hcin, if_neg hdin]
      omega
  · rw [if_neg hcin]
    omega

/-- However many introductions are made, the pool is used evenly. -/
theorem spread_after_le (pool : List Candidate) (hids : (pool.map Candidate.id).Nodup)
    (hregion : ∀ c ∈ pool, ∀ d ∈ pool, regionOf c.region = regionOf d.region)
    (es : List Introduction) (hes : (rotation pool).Valid pool es) :
    spread ((rotation pool).after pool es) ≤ max 1 (spread pool) := by
  have hstep : ∀ now e, OneRegion now ∧ spread now ≤ max 1 (spread pool) →
      (rotation pool).enabled now e →
        OneRegion ((rotation pool).step now e) ∧
          spread ((rotation pool).step now e) ≤ max 1 (spread pool) :=
    fun now e ⟨hone, hspread⟩ he => ⟨hone.use, spread_use_le hone he (le_max_left _ _) hspread⟩
  exact (System.Along.invariant hstep ⟨⟨hids, hregion⟩, le_max_right _ _⟩ hes).2

/-- The same introduction can be made of the pool it leaves. -/
theorem FromPool.again (h : FromPool pool e) : FromPool (use anchors pool) (e.1, use anchors pool) where
  candidates := by
    refine List.filter_eq_self.mpr fun c' hc' => ?_
    obtain ⟨c, hc, rfl⟩ := List.mem_map.mp hc'
    have hother := h.not_newId c hc
    split <;> exact hother
  slots := h.slots
  uptime := h.uptime
  load := h.load
  enough := by
    rw [use, List.length_map]
    exact h.enough
  seasoned := by
    intro c' hc'
    obtain ⟨c, hc, rfl⟩ := List.mem_map.mp hc'
    have hold := h.seasoned c hc
    split <;> exact hold

def evenDoor : Options where
  newId := js "c9"
  newRegion := some (js "b1")
  now := 200000
  k := 2
  minPool := 3

/-- Three candidates of one region, old enough for full uptime. -/
def evenPool : List Candidate :=
  [{ id := js "c1", admitted := true, since := 0, anchorUses := 4, region := some (js "a0") },
    { id := js "c2", admitted := true, since := 10000, anchorUses := 3, region := some (js "a0") },
    { id := js "c3", admitted := true, since := 20000, anchorUses := 3, region := some (js "a0") }]

theorem fromPool_evenPool : FromPool evenPool (evenDoor, evenPool) where
  candidates := rfl
  slots := by decide
  uptime := by decide
  load := by decide +kernel
  enough := by decide
  seasoned := by decide

/-- Two introductions, one after the other. -/
def evenRun : List Introduction :=
  [(evenDoor, evenPool), (evenDoor, use (selectAnchors evenDoor evenPool).anchors evenPool)]

theorem spread_after_le_evenRun : spread ((rotation evenPool).after evenPool evenRun) ≤ 1 := by
  have hrun : (rotation evenPool).Valid evenPool evenRun :=
    ⟨fromPool_evenPool, fromPool_evenPool.again, trivial⟩
  exact (spread_after_le evenPool (by decide) (by decide) evenRun hrun).trans (by decide)

end AnchorSelect

namespace Server

open AnchorSelect

variable {cfg : Config} {io : Io} {s : Server} {id : ConnId}

/-- One more use of a connection as an anchor. -/
def countUse (anchors : List ConnId) (e : ConnId × Conn) : ConnId × Conn :=
  if e.1 ∈ anchors then (e.1, { e.2 with anchorUses := e.2.anchorUses + 1 }) else e

/-- The count of the anchors one after the other is the count of all of them. -/
theorem entries_countUses {anchors : List ConnId} (h : anchors.Nodup) (s : Server) :
    (anchors.foldl (fun s aid =>
      s.modifyConn aid fun ac => { ac with anchorUses := ac.anchorUses + 1 }) s).connections.entries =
        s.connections.entries.map (countUse anchors) := by
  induction anchors generalizing s with
  | nil => exact (List.map_id _).symm
  | cons aid anchors ih =>
      obtain ⟨haid, hrest⟩ := List.nodup_cons.mp h
      rw [List.foldl_cons, ih hrest, modifyConn, JsMap.entries_modify, List.map_map]
      refine List.map_congr_left fun e _ => ?_
      dsimp only [Function.comp_apply]
      unfold countUse
      by_cases heq : e.1 = aid
      · simp [heq, haid]
      · simp [heq]

theorem entries_introduce (hon : cfg.nurseryOn = true) (newRegion : Option JsString) :
    (s.introduce cfg io id newRegion).2.connections.entries =
      s.connections.entries.map (countUse (s.introduce cfg io id newRegion).1) := by
  have hdistinct : (s.introduce cfg io id newRegion).1.Nodup := nodup_introduce id newRegion
  rw [Mirrors.introduce_eq, if_pos hon] at hdistinct ⊢
  exact entries_countUses hdistinct s

/-- The server's introduction of a newcomer is a step of the rotation, from the candidates it draws up
to the uses it counts. -/
theorem introduce_step (hon : cfg.nurseryOn = true) (newRegion : Option JsString) :
    ((s.introduce cfg io id newRegion).2.others id).map
        (s.introduce cfg io id newRegion).2.anchorCandidate =
      (AnchorSelect.rotation ((s.others id).map s.anchorCandidate)).step ((s.others id).map s.anchorCandidate)
        (Mirrors.anchorOptions cfg io id newRegion, Mirrors.candidates s) := by
  have hanchors : (selectAnchors (Mirrors.anchorOptions cfg io id newRegion)
      (Mirrors.candidates s)).anchors = (s.introduce cfg io id newRegion).1 := by
    rw [Mirrors.introduce_eq, if_pos hon]
  have htest : (fun e : ConnId × Conn => e.1 ≠ id && e.2.admitted) ∘
      countUse (s.introduce cfg io id newRegion).1 = fun e => e.1 ≠ id && e.2.admitted := by
    funext e
    dsimp only [Function.comp_apply]
    unfold countUse
    split <;> rfl
  have hnode : (s.introduce cfg io id newRegion).2.node = s.node := node_introduce id newRegion
  dsimp only [AnchorSelect.rotation, AnchorSelect.use]
  rw [hanchors, others, entries_introduce hon, List.filter_map, htest, List.map_map, others,
    List.map_map]
  refine List.map_congr_left fun e _ => ?_
  dsimp only [Function.comp_apply]
  unfold countUse anchorCandidate connRegion connNodeHex
  rw [hnode]
  split <;> rfl

/-- The others an introduction is made from are its pool. -/
theorem spread_introduce_le (hon : cfg.nurseryOn = true) {newRegion : Option JsString}
    (hone : OneRegion ((s.others id).map s.anchorCandidate))
    (h : FromPool ((s.others id).map s.anchorCandidate)
      (Mirrors.anchorOptions cfg io id newRegion, Mirrors.candidates s)) :
    spread (((s.introduce cfg io id newRegion).2.others id).map
        (s.introduce cfg io id newRegion).2.anchorCandidate) ≤
      max 1 (spread ((s.others id).map s.anchorCandidate)) := by
  rw [introduce_step hon]
  exact spread_use_le hone h (le_max_left _ _) (le_max_right _ _)

end Server

end AxonaBridge
