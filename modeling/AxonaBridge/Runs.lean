import Mathlib.Data.List.Induction
import Mathlib.Data.List.Nodup
import Mathlib.Tactic.Common

/-!
# Runs of a state machine

A machine takes one total step an event; which events can happen in a state is a predicate of its
own. A run is a list of events. `Along C` says that every step of a run meets `C`, which relates the
state before the step to the event, so one list carries what can happen, what a run is assumed to
avoid and what is proved of each of its steps.
-/

/-- A state machine: where it starts, what can happen, what one event does. -/
structure System (σ ε : Type) where
  init : σ
  enabled : σ → ε → Prop
  step : σ → ε → σ

namespace System

variable {σ ε : Type} (S : System σ ε)

/-- The state after a list of events. -/
def after (s : σ) (es : List ε) : σ := es.foldl S.step s

/-- Every step of the run from `s` meets `C`. -/
def Along (C : σ → ε → Prop) : σ → List ε → Prop
  | _, [] => True
  | s, e :: es => C s e ∧ Along C (S.step s e) es

/-- Every event of the run can happen when it does. -/
def Valid (s : σ) (es : List ε) : Prop := S.Along S.enabled s es

/-- Some step of the run from `s` meets `C`. -/
def Sometime (C : σ → ε → Prop) (s : σ) (es : List ε) : Prop :=
  ∃ es₁ e es₂, es = es₁ ++ e :: es₂ ∧ C (S.after s es₁) e

/-- Some step of the run from `s` meets `R`, and no step after it meets `K`. -/
def Standing (R K : σ → ε → Prop) (s : σ) (es : List ε) : Prop :=
  ∃ es₁ e es₂, es = es₁ ++ e :: es₂ ∧ R (S.after s es₁) e ∧
    ¬S.Sometime K (S.step (S.after s es₁) e) es₂

/-- No two steps of the run from `s` meet `C`. -/
def Once (C : σ → ε → Prop) (s : σ) (es : List ε) : Prop :=
  ∀ es₁ e es₂, es = es₁ ++ e :: es₂ → C (S.after s es₁) e → ¬S.Sometime C s es₁

/-- What the steps of the run from `s` show. -/
def trace {α : Type} (f : σ → ε → Option α) : σ → List ε → List α
  | _, [] => []
  | s, e :: es => (f s e).toList ++ trace f (S.step s e) es

/-- Some run from the start ends in `s`. -/
def Reachable (s : σ) : Prop := ∃ es, S.Valid S.init es ∧ S.after S.init es = s

instance decidableAlong (C : σ → ε → Prop) [∀ s e, Decidable (C s e)] :
    ∀ s es, Decidable (S.Along C s es)
  | _, [] => isTrue trivial
  | s, e :: es =>
      have := decidableAlong C (S.step s e) es
      inferInstanceAs (Decidable (C s e ∧ S.Along C (S.step s e) es))

instance decidableValid [∀ s e, Decidable (S.enabled s e)] (s : σ) (es : List ε) :
    Decidable (S.Valid s es) :=
  inferInstanceAs (Decidable (S.Along S.enabled s es))

variable {S} {C P : σ → ε → Prop} {s : σ} {e : ε} {es fs : List ε}

@[simp] theorem after_nil : S.after s [] = s := rfl

@[simp] theorem after_cons : S.after s (e :: es) = S.after (S.step s e) es := rfl

@[simp] theorem after_append : S.after s (es ++ fs) = S.after (S.after s es) fs :=
  List.foldl_append

@[simp] theorem along_nil : S.Along C s [] := trivial

@[simp] theorem along_cons : S.Along C s (e :: es) ↔ C s e ∧ S.Along C (S.step s e) es := Iff.rfl

theorem along_append : S.Along C s (es ++ fs) ↔ S.Along C s es ∧ S.Along C (S.after s es) fs := by
  induction es generalizing s with
  | nil => simp
  | cons e es ih => simp [ih, and_assoc]

theorem along_and : S.Along (fun s e => C s e ∧ P s e) s es ↔ S.Along C s es ∧ S.Along P s es := by
  induction es generalizing s with
  | nil => simp
  | cons e es ih =>
      simp only [along_cons, ih]
      constructor
      · rintro ⟨⟨hc, hp⟩, hcs, hps⟩
        exact ⟨⟨hc, hcs⟩, hp, hps⟩
      · rintro ⟨⟨hc, hcs⟩, hp, hps⟩
        exact ⟨⟨hc, hp⟩, hcs, hps⟩

/-- The condition holds along a run when it holds at each event of it. -/
theorem along_iff_split :
    S.Along C s es ↔ ∀ es₁ e es₂, es = es₁ ++ e :: es₂ → C (S.after s es₁) e := by
  constructor
  · intro h es₁ e es₂ hsplit
    rw [hsplit, along_append] at h
    exact h.2.1
  · intro h
    induction es generalizing s with
    | nil => trivial
    | cons e es ih =>
        refine ⟨h [] e es rfl, ih fun es₁ e' es₂ hsplit => ?_⟩
        exact h (e :: es₁) e' es₂ (by rw [hsplit, List.cons_append])

theorem not_sometime_nil : ¬S.Sometime C s [] := by
  rintro ⟨es₁, e, es₂, hsplit, -⟩
  exact absurd hsplit (by simp)

theorem Sometime.append (h : S.Sometime C s es) (fs : List ε) : S.Sometime C s (es ++ fs) := by
  obtain ⟨es₁, e, es₂, rfl, hC⟩ := h
  exact ⟨es₁, e, es₂ ++ fs, by simp, hC⟩

theorem sometime_snoc : S.Sometime C s (es ++ [e]) ↔ S.Sometime C s es ∨ C (S.after s es) e := by
  constructor
  · rintro ⟨es₁, e', es₂, hsplit, hC⟩
    rcases List.eq_nil_or_concat es₂ with rfl | ⟨fs, f, rfl⟩
    · obtain ⟨rfl, heq⟩ := List.append_inj' hsplit rfl
      cases heq
      exact Or.inr hC
    · rw [List.concat_eq_append, ← List.cons_append, ← List.append_assoc] at hsplit
      obtain ⟨rfl, -⟩ := List.append_inj' hsplit rfl
      exact Or.inl ⟨es₁, e', fs, rfl, hC⟩
  · rintro (h | hC)
    · exact h.append [e]
    · exact ⟨es, e, [], rfl, hC⟩

theorem sometime_append : S.Sometime C s (es ++ fs) ↔ S.Sometime C s es ∨ S.Sometime C (S.after s es) fs := by
  induction fs using List.reverseRecOn with
  | nil =>
      rw [List.append_nil]
      exact (or_iff_left not_sometime_nil).symm
  | append_singleton fs f ih => rw [← List.append_assoc, sometime_snoc, sometime_snoc, ih, after_append, or_assoc]

theorem sometime_cons : S.Sometime C s (e :: es) ↔ C s e ∨ S.Sometime C (S.step s e) es := by
  have hone : S.Sometime C s ([] ++ [e]) ↔ C s e := sometime_snoc.trans (or_iff_right not_sometime_nil)
  rw [← List.singleton_append, sometime_append, ← List.nil_append [e], hone]
  rfl

theorem Sometime.mono (himp : ∀ s e, C s e → P s e) (h : S.Sometime C s es) : S.Sometime P s es := by
  obtain ⟨es₁, e, es₂, hsplit, hC⟩ := h
  exact ⟨es₁, e, es₂, hsplit, himp _ _ hC⟩

section Standing

variable {R K : σ → ε → Prop}

theorem not_standing_nil : ¬S.Standing R K s [] := by
  rintro ⟨es₁, e, es₂, hsplit, -⟩
  exact absurd hsplit (by simp)

theorem standing_snoc : S.Standing R K s (es ++ [e]) ↔
    R (S.after s es) e ∨ (S.Standing R K s es ∧ ¬K (S.after s es) e) := by
  constructor
  · rintro ⟨es₁, e', es₂, hsplit, hR, hK⟩
    rcases List.eq_nil_or_concat es₂ with rfl | ⟨fs, f, rfl⟩
    · obtain ⟨rfl, heq⟩ := List.append_inj' hsplit rfl
      cases heq
      exact Or.inl hR
    · rw [List.concat_eq_append] at hK hsplit
      rw [← List.cons_append, ← List.append_assoc] at hsplit
      obtain ⟨rfl, heq⟩ := List.append_inj' hsplit rfl
      cases heq
      rw [sometime_snoc, not_or] at hK
      exact Or.inr ⟨⟨es₁, e', fs, rfl, hR, hK.1⟩, by rw [after_append]; exact hK.2⟩
  · rintro (hR | ⟨⟨es₁, e', es₂, rfl, hR, hK⟩, hnot⟩)
    · exact ⟨es, e, [], rfl, hR, not_sometime_nil⟩
    · refine ⟨es₁, e', es₂ ++ [e], by simp, hR, fun h => ?_⟩
      rw [after_append] at hnot
      exact (sometime_snoc.mp h).elim hK hnot

/-- What the steps that meet `R` set, and else those that meet `K` clear, stands after a run as its
last such step left it. -/
theorem holds_iff_standing {I : σ → Prop} (hI : ¬I s)
    (hstep : ∀ s e, I (S.step s e) ↔ R s e ∨ (I s ∧ ¬K s e)) :
    I (S.after s es) ↔ S.Standing R K s es := by
  induction es using List.reverseRecOn with
  | nil => exact iff_of_false hI not_standing_nil
  | append_singleton es e ih =>
      rw [standing_snoc, after_append, after_cons, after_nil, hstep, ih]

end Standing

/-! ### Traces -/

section Trace

variable {α : Type} {f : σ → ε → Option α}

theorem trace_append : S.trace f s (es ++ fs) = S.trace f s es ++ S.trace f (S.after s es) fs := by
  induction es generalizing s with
  | nil => rfl
  | cons e es ih => rw [List.cons_append, trace, ih, trace, List.append_assoc, after_cons]

theorem trace_snoc : S.trace f s (es ++ [e]) = S.trace f s es ++ (f (S.after s es) e).toList := by
  rw [trace_append, trace, trace, List.append_nil]

end Trace

/-! ### Counting -/

theorem Once.left (h : S.Once C s (es ++ fs)) : S.Once C s es := fun es₁ e es₂ hsplit =>
  h es₁ e (es₂ ++ fs) (by rw [hsplit, List.append_assoc, List.cons_append])

theorem Once.mono (h : S.Once C s es) (himp : ∀ s e, P s e → C s e) : S.Once P s es :=
  fun es₁ e es₂ hsplit hP hbefore => h es₁ e es₂ hsplit (himp _ _ hP) (hbefore.mono himp)

/-- The step that meets `C` is the only one of the run. -/
theorem Once.not_later {es₁ es₂ : List ε} (h : S.Once C s (es₁ ++ e :: es₂)) (hC : C (S.after s es₁) e) :
    ¬S.Sometime C (S.step (S.after s es₁) e) es₂ := by
  rintro ⟨fs₁, f, fs₂, rfl, hC'⟩
  refine h (es₁ ++ e :: fs₁) f fs₂ (by simp) (by rw [after_append]; exact hC') ?_
  exact ⟨es₁, e, fs₁, rfl, hC⟩

/-- A count that every step raises by the number of keys it meets counts the keys met along a run, where
no key is met twice. -/
theorem exists_counted {κ : Type} {C : κ → σ → ε → Prop} {n : σ → Nat} (hn : n s = 0)
    (hstep : ∀ s e, ∃ ks : List κ, ks.Nodup ∧ (∀ k, k ∈ ks ↔ C k s e) ∧ n (S.step s e) = n s + ks.length)
    (honce : ∀ k, S.Once (C k) s es) :
    ∃ ks : List κ, ks.Nodup ∧ (∀ k, k ∈ ks ↔ S.Sometime (C k) s es) ∧ ks.length = n (S.after s es) := by
  induction es using List.reverseRecOn with
  | nil => exact ⟨[], List.nodup_nil, fun k => iff_of_false List.not_mem_nil not_sometime_nil, hn.symm⟩
  | append_singleton es e ih =>
      obtain ⟨ks, hnodup, hmem, hlength⟩ := ih fun k => (honce k).left
      obtain ⟨ls, hnodup', hmem', hcount⟩ := hstep (S.after s es) e
      refine ⟨ks ++ ls, List.Nodup.append hnodup hnodup' fun k hk hl => ?_, fun k => ?_, ?_⟩
      · exact honce k es e [] rfl ((hmem' k).mp hl) ((hmem k).mp hk)
      · rw [List.mem_append, hmem, hmem', sometime_snoc]
      · rw [List.length_append, hlength, after_append, after_cons, after_nil, hcount]

/-- What holds of every event holds at every step. -/
theorem along_of_forall_mem {p : ε → Prop} (h : ∀ e ∈ es, p e) : S.Along (fun _ e => p e) s es :=
  along_iff_split.mpr fun _ e _ hsplit => h e (hsplit ▸ List.mem_append_right _ List.mem_cons_self)

/-! ### The invariant rules -/

/-- A fact that every step meeting `C` keeps holds after a run whose steps all meet `C`. -/
theorem Along.invariant {I : σ → Prop} (hstep : ∀ s e, I s → C s e → I (S.step s e))
    (hI : I s) (h : S.Along C s es) : I (S.after s es) := by
  induction es generalizing s with
  | nil => exact hI
  | cons e es ih => exact ih (hstep s e hI h.1) h.2

/-- What a step meeting `C` does from a state of the invariant, every step of a run does. -/
theorem Along.of_invariant {I : σ → Prop}
    (hstep : ∀ s e, I s → C s e → P s e ∧ I (S.step s e))
    (hI : I s) (h : S.Along C s es) : S.Along P s es := by
  induction es generalizing s with
  | nil => trivial
  | cons e es ih =>
      obtain ⟨hp, hI'⟩ := hstep s e hI h.1
      exact ⟨hp, ih hI' h.2⟩

theorem Along.mono (hstep : ∀ s e, C s e → P s e) (h : S.Along C s es) : S.Along P s es :=
  Along.of_invariant (I := fun _ => True) (fun s e _ hc => ⟨hstep s e hc, trivial⟩) trivial h

/-- Two conditions that agree on the states of an invariant agree along every run, where one of them
keeps the invariant. -/
theorem along_congr_of_invariant {Q : σ → ε → Prop} {I : σ → Prop}
    (hiff : ∀ s e, I s → C s e → (P s e ↔ Q s e))
    (hstep : ∀ s e, I s → C s e → Q s e → I (S.step s e))
    (hI : I s) (hC : S.Along C s es) : S.Along P s es ↔ S.Along Q s es := by
  induction es generalizing s with
  | nil => simp
  | cons e es ih =>
      simp only [along_cons]
      rw [hiff s e hI hC.1]
      exact and_congr_right fun hq => ih (hstep s e hI hC.1 hq) hC.2

theorem Valid.invariant {I : σ → Prop} (hinit : I S.init)
    (hstep : ∀ s e, I s → S.enabled s e → I (S.step s e)) (h : S.Valid S.init es) :
    I (S.after S.init es) :=
  Along.invariant hstep hinit h

theorem Reachable.invariant {I : σ → Prop} (hinit : I S.init)
    (hstep : ∀ s e, I s → S.enabled s e → I (S.step s e)) (h : S.Reachable s) : I s := by
  obtain ⟨es, hes, rfl⟩ := h
  exact Valid.invariant hinit hstep hes

/-- A fact about the events so far that each further event keeps holds of every run. -/
theorem Valid.history {P : List ε → Prop} (hnil : P [])
    (hsnoc : ∀ es e, S.Valid S.init es → S.enabled (S.after S.init es) e → P es → P (es ++ [e]))
    (h : S.Valid S.init es) : P es := by
  induction es using List.reverseRecOn with
  | nil => exact hnil
  | append_singleton es e ih =>
      obtain ⟨hes, he, -⟩ := along_append.mp h
      exact hsnoc es e hes he (ih hes)

/-! ### Clocks -/

/-- The times of a list of events never go back. -/
def Forward (time : ε → Int) (es : List ε) : Prop := es.Pairwise fun e e' => time e ≤ time e'

theorem Forward.left {time : ε → Int} (h : Forward time (es ++ fs)) : Forward time es :=
  (List.pairwise_append.mp h).1

theorem Forward.right {time : ε → Int} (h : Forward time (es ++ fs)) : Forward time fs :=
  (List.pairwise_append.mp h).2.1

theorem Forward.le {time : ε → Int} (h : Forward time (es ++ fs)) {e f : ε} (he : e ∈ es) (hf : f ∈ fs) :
    time e ≤ time f :=
  (List.pairwise_append.mp h).2.2 e he f hf

/-- A fact about a moment and a state that lasts while nothing happens and that each event keeps at its
own time holds at the end of a run, at any time from its last event on. -/
theorem Along.invariant_at {time : ε → Int} (I : Int → σ → Prop)
    (hlasts : ∀ t t' s, t ≤ t' → I t s → I t' s)
    (hstep : ∀ s e, C s e → I (time e) s → I (time e) (S.step s e))
    {t t' : Int} (hI : I t s) (hes : Forward time es) (hfrom : ∀ e ∈ es, t ≤ time e)
    (hto : ∀ e ∈ es, time e ≤ t') (htt : t ≤ t') (h : S.Along C s es) : I t' (S.after s es) := by
  induction es generalizing s t with
  | nil => exact hlasts t t' s htt hI
  | cons e es ih =>
      obtain ⟨hfirst, hrest⟩ := List.pairwise_cons.mp hes
      have hnow : I (time e) s := hlasts t (time e) s (hfrom e List.mem_cons_self) hI
      exact ih (hstep s e h.1 hnow) hrest hfirst (fun e' he' => hto e' (List.mem_cons_of_mem _ he'))
        (hto e List.mem_cons_self) h.2

/-- Where every step that counts uses up something of the state and no step adds to it, the steps of a run
that count are no more than there was at its start. -/
theorem Along.countP_add_le {p : ε → Bool} {f : σ → Nat}
    (h : S.Along (fun s e => (if p e then 1 else 0) + f (S.step s e) ≤ f s) s es) :
    es.countP p + f (S.after s es) ≤ f s := by
  induction es generalizing s with
  | nil => simp
  | cons e es ih =>
      have hrest := ih h.2
      have hfirst := h.1
      rw [List.countP_cons, after_cons]
      omega

/-- Where every step of a run is matched by steps of another machine, the run is matched by a run of it. -/
theorem Along.simulated {τ δ : Type} {A : System τ δ} {R : σ → List δ → Prop}
    (hstep : ∀ s e as, A.Valid A.init as → C s e → R s as →
      ∃ bs, A.Valid (A.after A.init as) bs ∧ R (S.step s e) (as ++ bs))
    {as : List δ} (has : A.Valid A.init as) (hR : R s as) (h : S.Along C s es) :
    ∃ bs, A.Valid A.init bs ∧ R (S.after s es) bs := by
  induction es generalizing s as with
  | nil => exact ⟨as, has, hR⟩
  | cons e es ih =>
      obtain ⟨bs, hbs, hR'⟩ := hstep s e as has h.1 hR
      exact ih (along_append.mpr ⟨has, hbs⟩) hR' h.2

end System
