import AxonaBridge.Runs
import Mathlib.Data.List.Dedup
import Mathlib.Data.List.TakeWhile
import Mathlib.Order.Basic

/-!
# A bounded list of recent keys

Events touch keys or sweep. A touched key goes to the end of the list with the time of the touch, a
bound on the length evicts from the front, and a sweep drops from the front what is old by then. Both
work at the front only, and both are right because the list is in the order of the last touches:
whether a key is held is said here of the events alone.
-/

namespace List

variable {κ : Type} [DecidableEq κ]

/-- The last occurrences, after one more. -/
theorem dedup_concat (l : List κ) (k : κ) :
    (l ++ [k]).dedup = l.dedup.filter (· ≠ k) ++ [k] := by
  induction l with
  | nil => simp
  | cons a l ih =>
      by_cases ha : a ∈ l
      · rw [cons_append, dedup_cons_of_mem (mem_append_left _ ha), ih, dedup_cons_of_mem ha]
      · rw [dedup_cons_of_notMem ha]
        by_cases hk : a = k
        · rw [cons_append, dedup_cons_of_mem (by simp [hk]), ih, filter_cons_of_neg (by simp [hk])]
        · have hmem : a ∉ l ++ [k] := by simp [ha, hk]
          rw [cons_append, dedup_cons_of_notMem hmem, ih, filter_cons_of_pos (by simp [hk]),
            cons_append]

theorem length_dedup_le_append (l l' : List κ) : l.dedup.length ≤ (l ++ l').dedup.length := by
  refine (nodup_dedup l).length_le_of_subset fun a ha => ?_
  rw [mem_dedup] at ha ⊢
  exact mem_append_left _ ha

/-- Among distinct elements, one is left by a bound from the front when fewer than the bound stand
behind it. -/
theorem mem_drop_length_sub {α : Type} {xs ys : List α} {a : α} (h : (xs ++ a :: ys).Nodup) (n : Nat) :
    a ∈ (xs ++ a :: ys).drop ((xs ++ a :: ys).length - n) ↔ ys.length < n := by
  have hlen : (xs ++ a :: ys).length = xs.length + (ys.length + 1) := by simp
  constructor
  · intro hmem
    by_contra hle
    have hdrop : (xs ++ a :: ys).length - n = xs.length + (ys.length - n + 1) := by omega
    rw [hdrop, drop_append, drop_eq_nil_of_le (Nat.le_add_right _ _), nil_append,
      Nat.add_sub_cancel_left, drop_succ_cons] at hmem
    exact (nodup_cons.mp (nodup_append.mp h).2.1).1 (mem_of_mem_drop hmem)
  · intro hlt
    rw [drop_append_of_le_length (by omega)]
    exact mem_append_right _ mem_cons_self

/-- Where the elements that pass stand first, those dropped from the front are all that pass. -/
theorem mem_dropWhile_iff {α : Type} {p : α → Bool} {xs : List α} {a : α}
    (h : xs.Pairwise fun x y => p y = true → p x = true) :
    a ∈ xs.dropWhile p ↔ a ∈ xs ∧ p a = false := by
  induction xs with
  | nil => simp
  | cons x xs ih =>
      obtain ⟨hfirst, hrest⟩ := pairwise_cons.mp h
      cases hx : p x with
      | true =>
          rw [dropWhile_cons_of_pos hx, ih hrest, mem_cons]
          refine and_congr_left fun ha => ⟨Or.inr, fun hmem => hmem.resolve_left fun heq => ?_⟩
          rw [heq, hx] at ha
          cases ha
      | false =>
          rw [dropWhile_cons_of_neg (by simp [hx])]
          refine ⟨fun hmem => ⟨hmem, ?_⟩, And.left⟩
          rcases mem_cons.mp hmem with rfl | hmem
          · exact hx
          · by_contra ha
            rw [hfirst a hmem (by simpa using ha)] at hx
            cases hx

end List

namespace Recency

/-- What an event does to the list. -/
inductive Effect (κ : Type) where
  | touch (k : κ)
  | sweep
  | idle
  deriving DecidableEq

def Effect.key {κ : Type} : Effect κ → Option κ
  | .touch k => some k
  | _ => none

/-- How events act on the list: their effect, their time, what is old at a time, how many are held. -/
structure Policy (ε κ α : Type) where
  effect : ε → Effect κ
  time : ε → α
  old : α → α → Bool
  cap : Nat

namespace Policy

variable {ε κ α : Type} (P : Policy ε κ α)

/-- The keys that a list of events touches, in order. -/
def touched (es : List ε) : List κ := es.filterMap fun e => (P.effect e).key

/-- The last of the events to touch `k` did so at `t`, and `since` came after it. -/
def LastTouch (es : List ε) (k : κ) (t : α) (since : List ε) : Prop :=
  ∃ es₁ e, es = es₁ ++ e :: since ∧ P.effect e = .touch k ∧ P.time e = t ∧ k ∉ P.touched since

variable {P} {es es' since : List ε} {e : ε} {k l : κ} {t t' : α} {held : List (κ × α)}

/-! ### The last touch -/

@[simp] theorem touched_append : P.touched (es ++ es') = P.touched es ++ P.touched es' :=
  List.filterMap_append

theorem touched_singleton : P.touched [e] = (P.effect e).key.toList := by
  rw [touched, List.filterMap_cons]
  cases (P.effect e).key <;> rfl

theorem touched_of_touch (h : P.effect e = .touch k) : P.touched [e] = [k] := by
  rw [touched_singleton, h]
  rfl

theorem not_mem_touched_singleton : k ∉ P.touched [e] ↔ P.effect e ≠ .touch k := by
  rw [touched_singleton]
  cases P.effect e <;> simp [Effect.key, eq_comm]

theorem touched_concat_of_ne (he : ∀ k, P.effect e ≠ .touch k) :
    P.touched (es ++ [e]) = P.touched es := by
  have hnone : P.touched [e] = [] := List.eq_nil_iff_forall_not_mem.mpr fun k =>
    not_mem_touched_singleton.mpr (he k)
  rw [touched_append, hnone, List.append_nil]

theorem lastTouch_concat :
    P.LastTouch (es ++ [e]) k t since ↔
      (P.effect e = .touch k ∧ P.time e = t ∧ since = []) ∨
        P.effect e ≠ .touch k ∧ ∃ since', since = since' ++ [e] ∧ P.LastTouch es k t since' := by
  constructor
  · rintro ⟨es₁, e', hsplit, htouch, htime, hnot⟩
    rcases List.eq_nil_or_concat since with rfl | ⟨since', f, rfl⟩
    · obtain ⟨-, heq⟩ := List.append_inj' hsplit rfl
      cases heq
      exact Or.inl ⟨htouch, htime, rfl⟩
    · rw [List.concat_eq_append] at hsplit hnot ⊢
      rw [← List.cons_append, ← List.append_assoc] at hsplit
      obtain ⟨rfl, heq⟩ := List.append_inj' hsplit rfl
      cases heq
      rw [touched_append, List.mem_append, not_or] at hnot
      exact Or.inr ⟨not_mem_touched_singleton.mp hnot.2, since', rfl, es₁, e', rfl, htouch, htime,
        hnot.1⟩
  · rintro (⟨htouch, htime, rfl⟩ | ⟨hne, since', rfl, es₁, e', rfl, htouch, htime, hnot⟩)
    · exact ⟨es, e, rfl, htouch, htime, List.not_mem_nil⟩
    · refine ⟨es₁, e', by simp, htouch, htime, ?_⟩
      rw [touched_append, List.mem_append, not_or]
      exact ⟨hnot, not_mem_touched_singleton.mpr hne⟩

/-- A key has one last touch. -/
theorem LastTouch.unique {since' : List ε} (h : P.LastTouch es k t since)
    (h' : P.LastTouch es k t' since') : t = t' ∧ since = since' := by
  induction es using List.reverseRecOn generalizing since since' with
  | nil =>
      obtain ⟨es₁, e, hsplit, -⟩ := h
      exact absurd hsplit (by simp)
  | append_singleton es e ih =>
      rcases lastTouch_concat.mp h with ⟨htouch, htime, rfl⟩ | ⟨hne, since, rfl, hlast⟩
      · rcases lastTouch_concat.mp h' with ⟨-, htime', rfl⟩ | ⟨hne, -⟩
        · exact ⟨htime.symm.trans htime', rfl⟩
        · exact absurd htouch hne
      · rcases lastTouch_concat.mp h' with ⟨htouch, -⟩ | ⟨-, since', rfl, hlast'⟩
        · exact absurd htouch hne
        · obtain ⟨htimes, rfl⟩ := ih hlast hlast'
          exact ⟨htimes, rfl⟩

theorem LastTouch.time_mem (h : P.LastTouch es k t since) : ∃ e ∈ es, P.time e = t := by
  obtain ⟨es₁, e, rfl, -, htime, -⟩ := h
  exact ⟨e, List.mem_append_right _ List.mem_cons_self, htime⟩

/-! ### What is held -/

variable [DecidableEq κ]

/-- The list after one more event. -/
def step (P : Policy ε κ α) (held : List (κ × α)) (e : ε) : List (κ × α) :=
  match P.effect e with
  | .touch k =>
      let held := held.filter (·.1 ≠ k) ++ [(k, P.time e)]
      held.drop (held.length - P.cap)
  | .sweep => held.dropWhile fun x => P.old (P.time e) x.2
  | .idle => held

/-- Since the last touch of `k`, at `t`, no sweep has found it old and fewer keys were touched than the
bound. -/
def Holds (P : Policy ε κ α) (es : List ε) (k : κ) (t : α) : Prop :=
  ∃ since, P.LastTouch es k t since ∧
    (∀ e ∈ since, P.effect e = .sweep → P.old (P.time e) t = false) ∧
    (P.touched since).dedup.length < P.cap

theorem LastTouch.suffix (h : P.LastTouch es k t since) :
    k :: (P.touched since).dedup <:+ (P.touched es).dedup := by
  obtain ⟨es₁, e, rfl, htouch, -, hnot⟩ := h
  have htouched : P.touched (es₁ ++ e :: since) = P.touched es₁ ++ k :: P.touched since := by
    rw [← List.singleton_append, touched_append, touched_append, touched_of_touch htouch,
      List.singleton_append]
  rw [htouched, List.dedup_append, List.dedup_cons_of_notMem hnot]
  exact List.suffix_union_right _ _

theorem holds_concat :
    P.Holds (es ++ [e]) k t ↔
      (P.effect e = .touch k ∧ P.time e = t ∧ 0 < P.cap) ∨
        P.effect e ≠ .touch k ∧ (P.effect e = .sweep → P.old (P.time e) t = false) ∧
          ∃ since, P.LastTouch es k t since ∧
            (∀ e' ∈ since, P.effect e' = .sweep → P.old (P.time e') t = false) ∧
            (P.touched (since ++ [e])).dedup.length < P.cap := by
  constructor
  · rintro ⟨since, hlast, hswept, hcap⟩
    rcases lastTouch_concat.mp hlast with ⟨htouch, htime, rfl⟩ | ⟨hne, since, rfl, hbefore⟩
    · exact Or.inl ⟨htouch, htime, hcap⟩
    · refine Or.inr ⟨hne, hswept e (by simp), since, hbefore, fun e' he' => ?_, hcap⟩
      exact hswept e' (List.mem_append_left _ he')
  · rintro (⟨htouch, htime, hcap⟩ | ⟨hne, hnow, since, hlast, hswept, hcap⟩)
    · have hlast : P.LastTouch (es ++ [e]) k t [] :=
        lastTouch_concat.mpr (Or.inl ⟨htouch, htime, rfl⟩)
      exact ⟨[], hlast, fun _ he' => absurd he' List.not_mem_nil, hcap⟩
    · refine ⟨since ++ [e], lastTouch_concat.mpr (Or.inr ⟨hne, since, rfl, hlast⟩), ?_, hcap⟩
      intro e' he'
      rcases List.mem_append.mp he' with he' | he'
      · exact hswept e' he'
      · rw [List.mem_singleton.mp he']
        exact hnow

theorem holds_concat_of_ne (he : ∀ k, P.effect e ≠ .touch k) :
    P.Holds (es ++ [e]) k t ↔
      P.Holds es k t ∧ (P.effect e = .sweep → P.old (P.time e) t = false) := by
  rw [holds_concat]
  simp only [touched_concat_of_ne he]
  constructor
  · rintro (⟨htouch, -⟩ | ⟨-, hnow, hheld⟩)
    · exact absurd htouch (he k)
    · exact ⟨hheld, hnow⟩
  · rintro ⟨hheld, hnow⟩
    exact Or.inr ⟨he k, hnow, hheld⟩

theorem step_of_touch (he : P.effect e = .touch l) :
    P.step held e = (held.filter (·.1 ≠ l) ++ [(l, P.time e)]).drop
      ((held.filter (·.1 ≠ l) ++ [(l, P.time e)]).length - P.cap) := by
  rw [step, he]

theorem step_of_sweep (he : P.effect e = .sweep) :
    P.step held e = held.dropWhile fun x => P.old (P.time e) x.2 := by
  rw [step, he]

theorem step_of_idle (he : P.effect e = .idle) : P.step held e = held := by
  rw [step, he]

theorem map_fst_push : (held.filter (·.1 ≠ l) ++ [(l, t)]).map Prod.fst =
    (held.map Prod.fst).filter (· ≠ l) ++ [l] := by
  rw [List.map_append, List.filter_map]
  rfl

theorem nodup_push (h : (held.map Prod.fst).Nodup) :
    ((held.filter (·.1 ≠ l) ++ [(l, t)]).map Prod.fst).Nodup := by
  rw [map_fst_push]
  refine List.nodup_append.mpr ⟨h.filter _, List.nodup_singleton l, fun a ha b hb hab => ?_⟩
  rw [List.mem_singleton.mp hb] at hab
  exact (of_decide_eq_true (List.mem_filter.mp ha).2) hab

theorem mem_of_mem_touch (he : P.effect e = .touch l) (hkl : k ≠ l) (h : (k, t) ∈ P.step held e) :
    (k, t) ∈ held := by
  rw [step_of_touch he] at h
  rcases List.mem_append.mp (List.mem_of_mem_drop h) with h | h
  · exact List.mem_of_mem_filter h
  · cases List.mem_singleton.mp h
    exact absurd rfl hkl

/-- The key just touched is held with the time of the touch, if anything is. -/
theorem mem_touch_self (h : (held.map Prod.fst).Nodup) (he : P.effect e = .touch k) :
    (k, t) ∈ P.step held e ↔ P.time e = t ∧ 0 < P.cap := by
  have hlast : (k, P.time e) ∈ P.step held e ↔ 0 < P.cap := by
    rw [step_of_touch he]
    exact List.mem_drop_length_sub (List.Nodup.of_map _ (nodup_push h)) _
  constructor
  · intro hmem
    have hpushed := hmem
    rw [step_of_touch he] at hpushed
    rcases List.mem_append.mp (List.mem_of_mem_drop hpushed) with hold | hnew
    · exact absurd rfl (of_decide_eq_true (List.mem_filter.mp hold).2)
    · cases List.mem_singleton.mp hnew
      exact ⟨rfl, hlast.mp hmem⟩
  · rintro ⟨rfl, hcap⟩
    exact hlast.mpr hcap

/-- What the events so far and the list they lead to keep. -/
structure Matches [Preorder α] (P : Policy ε κ α) (es : List ε) (held : List (κ × α)) : Prop where
  suffix : held.map Prod.fst <:+ (P.touched es).dedup
  sorted : held.Pairwise fun x y => x.2 ≤ y.2
  le_cap : held.length ≤ P.cap
  mem_iff : ∀ k t, (k, t) ∈ held ↔ P.Holds es k t

namespace Matches

variable [Preorder α]

theorem nil : P.Matches [] [] where
  suffix := List.suffix_rfl
  sorted := List.Pairwise.nil
  le_cap := Nat.zero_le _
  mem_iff := by
    intro k t
    refine ⟨fun h => absurd h List.not_mem_nil, ?_⟩
    rintro ⟨since, ⟨es₁, e, hsplit, -⟩, -⟩
    exact absurd hsplit (by simp)

theorem nodup (h : P.Matches es held) : (held.map Prod.fst).Nodup :=
  (List.nodup_dedup _).sublist h.suffix.sublist

/-- Behind a held key stand exactly the keys touched since. -/
theorem split (h : P.Matches es held) (hmem : (k, t) ∈ held) (hlast : P.LastTouch es k t since) :
    ∃ xs ys, held = xs ++ (k, t) :: ys ∧ ys.map Prod.fst = (P.touched since).dedup := by
  have hkey : k ∈ held.map Prod.fst := List.mem_map.mpr ⟨(k, t), hmem, rfl⟩
  have htail : k :: (P.touched since).dedup <:+ held.map Prod.fst := by
    rcases List.suffix_or_suffix_of_suffix hlast.suffix h.suffix with htail | htail
    · exact htail
    · rcases List.suffix_cons_iff.mp htail with heq | htail
      · exact heq ▸ List.suffix_rfl
      · have hsince : k ∈ (P.touched since).dedup := htail.mem hkey
        obtain ⟨-, -, -, -, -, hnot⟩ := hlast
        exact absurd (List.mem_dedup.mp hsince) hnot
  obtain ⟨front, hsplit⟩ := htail
  obtain ⟨xs, zs, rfl, rfl, hzs⟩ := List.map_eq_append_iff.mp hsplit.symm
  obtain ⟨z, ys, rfl, hz, hys⟩ := List.map_eq_cons_iff.mp hzs
  refine ⟨xs, ys, ?_, hys⟩
  have hz' : z ∈ xs ++ z :: ys := List.mem_append_right _ List.mem_cons_self
  rw [← List.inj_on_of_nodup_map h.nodup hz' hmem hz]

/-- Of the old keys, a touch leaves those behind which there is room for one more. -/
theorem mem_touch_iff (h : P.Matches es held) (he : P.effect e = .touch l) (hkl : k ≠ l)
    (hmem : (k, t) ∈ held) (hlast : P.LastTouch es k t since) :
    (k, t) ∈ P.step held e ↔ (P.touched (since ++ [e])).dedup.length < P.cap := by
  obtain ⟨xs, ys, rfl, hys⟩ := h.split hmem hlast
  let behind := ys.filter (·.1 ≠ l) ++ [(l, P.time e)]
  have hpushed : (xs ++ (k, t) :: ys).filter (·.1 ≠ l) ++ [(l, P.time e)] =
      xs.filter (·.1 ≠ l) ++ (k, t) :: behind := by
    rw [List.filter_append, List.filter_cons_of_pos (by simpa using hkl), List.append_assoc,
      List.cons_append]
  have hlength : behind.length = (P.touched (since ++ [e])).dedup.length := by
    rw [touched_append, touched_of_touch he, List.dedup_concat, ← hys, List.length_append,
      List.length_append, List.filter_map, List.length_map]
    rfl
  have hnodup : (xs.filter (·.1 ≠ l) ++ (k, t) :: behind).Nodup :=
    hpushed ▸ List.Nodup.of_map _ (nodup_push h.nodup)
  rw [step_of_touch he, hpushed, List.mem_drop_length_sub hnodup, hlength]

theorem of_touch (h : P.Matches es held) (he : P.effect e = .touch l)
    (hnow : ∀ x ∈ held, x.2 ≤ P.time e) : P.Matches (es ++ [e]) (P.step held e) where
  suffix := by
    have htouched : (P.touched (es ++ [e])).dedup = (P.touched es).dedup.filter (· ≠ l) ++ [l] := by
      rw [touched_append, touched_of_touch he, List.dedup_concat]
    obtain ⟨front, hfront⟩ := h.suffix.filter (· ≠ l)
    rw [step_of_touch he, List.map_drop]
    refine (List.drop_suffix _ _).trans ?_
    rw [map_fst_push, htouched, ← hfront, List.append_assoc]
    exact List.suffix_append _ _
  sorted := by
    rw [step_of_touch he]
    refine List.Pairwise.sublist (List.drop_sublist _ _) ?_
    refine List.pairwise_append.mpr ⟨h.sorted.filter _, List.pairwise_singleton _ _, ?_⟩
    intro x hx y hy
    rw [List.mem_singleton.mp hy]
    exact hnow x (List.mem_of_mem_filter hx)
  le_cap := by
    rw [step_of_touch he, List.length_drop]
    omega
  mem_iff k t := by
    rw [holds_concat]
    by_cases hkl : k = l
    · subst hkl
      rw [mem_touch_self h.nodup he]
      exact ⟨fun hnew => Or.inl ⟨he, hnew⟩, fun hor =>
        hor.elim And.right fun hold => absurd he hold.1⟩
    · have hne : P.effect e ≠ .touch k := fun heq => hkl (by rw [he] at heq; cases heq; rfl)
      constructor
      · intro hmem
        have hheld : (k, t) ∈ held := mem_of_mem_touch he hkl hmem
        obtain ⟨since, hlast, hswept, -⟩ := (h.mem_iff k t).mp hheld
        refine Or.inr ⟨hne, fun hsweep => ?_, since, hlast, hswept, ?_⟩
        · rw [he] at hsweep
          cases hsweep
        · exact (h.mem_touch_iff he hkl hheld hlast).mp hmem
      · rintro (⟨heq, -⟩ | ⟨-, -, since, hlast, hswept, hroom⟩)
        · exact absurd heq hne
        · have hheld : (k, t) ∈ held := by
            refine (h.mem_iff k t).mpr ⟨since, hlast, hswept, ?_⟩
            rw [touched_append] at hroom
            exact (List.length_dedup_le_append _ _).trans_lt hroom
          exact (h.mem_touch_iff he hkl hheld hlast).mpr hroom

theorem of_sweep (hold : ∀ {now x y}, x ≤ y → P.old now y = true → P.old now x = true)
    (h : P.Matches es held) (he : P.effect e = .sweep) : P.Matches (es ++ [e]) (P.step held e) := by
  have hne : ∀ k, P.effect e ≠ .touch k := fun k hk => by
    rw [he] at hk
    cases hk
  rw [step_of_sweep he]
  refine ⟨?_, h.sorted.sublist (List.dropWhile_sublist _), ?_, fun k t => ?_⟩
  · rw [touched_concat_of_ne hne]
    exact ((List.dropWhile_suffix _).map Prod.fst).trans h.suffix
  · exact (List.dropWhile_sublist _).length_le.trans h.le_cap
  · have hsorted : held.Pairwise fun x y =>
        P.old (P.time e) y.2 = true → P.old (P.time e) x.2 = true := h.sorted.imp hold
    rw [List.mem_dropWhile_iff hsorted, h.mem_iff, holds_concat_of_ne hne, he]
    exact and_congr_right fun _ => ⟨fun hlive _ => hlive, fun hlive => hlive rfl⟩

theorem of_idle (h : P.Matches es held) (he : P.effect e = .idle) :
    P.Matches (es ++ [e]) (P.step held e) := by
  have hne : ∀ k, P.effect e ≠ .touch k := fun k hk => by
    rw [he] at hk
    cases hk
  rw [step_of_idle he]
  refine ⟨(touched_concat_of_ne hne).symm ▸ h.suffix, h.sorted, h.le_cap, fun k t => ?_⟩
  rw [h.mem_iff, holds_concat_of_ne hne, he]
  exact ⟨fun hheld => ⟨hheld, fun hsweep => nomatch hsweep⟩, And.left⟩

/-- The list that events lead to is what the events alone say. -/
theorem run (hold : ∀ {now x y}, x ≤ y → P.old now y = true → P.old now x = true)
    (hclock : es.Pairwise fun e e' => P.time e ≤ P.time e') :
    P.Matches es (es.foldl P.step []) := by
  induction es using List.reverseRecOn with
  | nil => exact nil
  | append_singleton es e ih =>
      obtain ⟨hbefore, -, hlast⟩ := List.pairwise_append.mp hclock
      have h := ih hbefore
      rw [List.foldl_append]
      cases he : P.effect e with
      | touch k =>
          refine h.of_touch he fun x hx => ?_
          obtain ⟨since, htouch, -⟩ := (h.mem_iff x.1 x.2).mp hx
          obtain ⟨e', he', htime⟩ := htouch.time_mem
          exact htime ▸ hlast e' he' e (List.mem_singleton_self e)
      | sweep => exact h.of_sweep hold he
      | idle => exact h.of_idle he

end Matches

end Policy

end Recency
