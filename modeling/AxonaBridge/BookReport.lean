import AxonaBridge.BridgeBook
import AxonaBridge.JsNumber

/-!
# What a merge reports

A merge reports a change whenever it takes an entry. The entry can be past the age itself and be dropped with
those of the book that are, so that a merge that takes one may leave the book as it was.
-/

open JsText

namespace AxonaBridge

namespace BridgeBookStore

section Report

variable {τ ρ α : Type} [Zero τ] [Sub τ] [LE τ] [LT τ] [DecidableLE τ] [DecidableLT τ] [DecidableEq τ]

/-- The books differ in some entry. -/
def Differs (book book' : BridgeBookStore τ ρ) : Prop := ∃ url, book'.entries.get url ≠ book.entries.get url

/-- A merge returns true exactly when it changes the book, and else neither changes nor writes anything. -/
def ReportsTruly (validateBridgeEntry : α → Option (BridgeEntry τ ρ)) (maxAge : τ) (book : BridgeBookStore τ ρ)
    (entry : α) (signerKey : Option JsString) (now : τ) : Prop :=
  let r := book.mergeAndSave validateBridgeEntry maxAge entry signerKey now
  (r.1 = true ↔ book.Differs r.2.1) ∧ (r.1 = false → r.2.1 = book ∧ r.2.2 = [])

/-- The entry leaves no trace: the book has nothing to drop of other urls, and of its url either has nothing
while the entry is past the age, or has what is written for it and that is not, which only an entry whose
timestamp is not at most itself is written over. -/
def LeavesNoTrace (maxAge : τ) (book : BridgeBookStore τ ρ) (v : BridgeEntry τ ρ) (signerKey : Option JsString)
    (now : τ) : Prop :=
  (∀ url, url ≠ v.url → ∀ p ∈ book.entries.get url, ¬PastAge maxAge now p.stamp) ∧
    ((book.entries.get v.url = none ∧
        PastAge maxAge now (SavedBridge.ofEntry v signerKey none now).stamp) ∨
      ∃ p, book.entries.get v.url = some p ∧ ¬v.ts ≤ p.stamp ∧
        p = .ofEntry v signerKey (some p) now ∧ ¬PastAge maxAge now p.stamp)

variable {validateBridgeEntry : α → Option (BridgeEntry τ ρ)} {maxAge now : τ} {book : BridgeBookStore τ ρ}
  {entry : α} {signerKey : Option JsString} {v : BridgeEntry τ ρ}

/-- The write to the disk comes with the report. -/
theorem mergeAndSave_eq : book.mergeAndSave validateBridgeEntry maxAge entry signerKey now =
    let r := book.merge validateBridgeEntry maxAge entry signerKey now
    (r.1, r.2, if r.1 then [r.2.entries] else []) := by
  unfold mergeAndSave merge
  cases validateBridgeEntry entry with
  | none => rfl
  | some v =>
      dsimp only
      split <;> rfl

/-- The book has no entry of the url that is at least as late. -/
def Takes (book : BridgeBookStore τ ρ) (v : BridgeEntry τ ρ) : Prop :=
  ∀ p ∈ book.entries.get v.url, ¬v.ts ≤ p.stamp

theorem merge_of_not_takes (hv : validateBridgeEntry entry = some v) (h : ¬book.Takes v) :
    book.merge validateBridgeEntry maxAge entry signerKey now = (false, book) := by
  have hany : ((book.entries.get v.url).any fun p => v.ts ≤ p.stamp) = true := by
    obtain ⟨p, hp, hle⟩ := not_forall₂.mp h
    rw [hp, Option.any_some]
    exact decide_eq_true (not_not.mp hle)
  unfold merge
  rw [hv]
  exact if_pos hany

/-- What a book has after it takes an entry. -/
theorem merge_of_takes (hv : validateBridgeEntry entry = some v) (h : book.Takes v) :
    (book.merge validateBridgeEntry maxAge entry signerKey now).1 = true ∧
      ∀ url, (book.merge validateBridgeEntry maxAge entry signerKey now).2.entries.get url =
        (if url = v.url then some (.ofEntry v signerKey (book.entries.get v.url) now)
          else book.entries.get url).filter fun p => ¬PastAge maxAge now p.stamp := by
  have hany : ¬((book.entries.get v.url).any fun p => v.ts ≤ p.stamp) = true := by
    intro hany
    obtain ⟨p, hp, hle⟩ := Option.any_eq_true _ _ |>.mp hany
    exact h p hp (of_decide_eq_true hle)
  unfold merge
  rw [hv]
  dsimp only
  rw [if_neg hany]
  refine ⟨rfl, fun url => ?_⟩
  rw [JsMap.get_filter, JsMap.get_set]

theorem filter_eq_self_iff {o : Option (SavedBridge τ ρ)} :
    (o.filter fun p => ¬PastAge maxAge now p.stamp) = o ↔ ∀ p ∈ o, ¬PastAge maxAge now p.stamp := by
  cases o with
  | none => exact iff_of_true rfl fun p hp => by cases hp
  | some p =>
      rw [Option.filter_some]
      by_cases hpast : PastAge maxAge now p.stamp
      · rw [if_neg (by simpa using hpast)]
        exact iff_of_false (fun h => by cases h) fun h => h p rfl hpast
      · rw [if_pos (decide_eq_true hpast)]
        refine iff_of_true rfl fun q hq => ?_
        cases hq
        exact hpast

/-- What is written for an entry and kept is what there was of its url. -/
theorem written_eq_iff (h : book.Takes v) :
    ((some (SavedBridge.ofEntry v signerKey (book.entries.get v.url) now)).filter fun p =>
        ¬PastAge maxAge now p.stamp) = book.entries.get v.url ↔
      (book.entries.get v.url = none ∧ PastAge maxAge now (SavedBridge.ofEntry v signerKey none now).stamp) ∨
        ∃ p, book.entries.get v.url = some p ∧ ¬v.ts ≤ p.stamp ∧
          p = .ofEntry v signerKey (some p) now ∧ ¬PastAge maxAge now p.stamp := by
  rw [Option.filter_some]
  cases hprev : book.entries.get v.url with
  | none =>
      by_cases hpast : PastAge maxAge now (SavedBridge.ofEntry v signerKey none now).stamp
      · rw [if_neg (by simpa using hpast)]
        exact iff_of_true rfl (Or.inl ⟨rfl, hpast⟩)
      · rw [if_pos (decide_eq_true hpast)]
        refine iff_of_false (fun heq => by cases heq) ?_
        rintro (⟨-, hpast'⟩ | ⟨p, hp, -⟩)
        · exact hpast hpast'
        · cases hp
  | some p =>
      by_cases hpast : PastAge maxAge now (SavedBridge.ofEntry v signerKey (some p) now).stamp
      · rw [if_neg (by simpa using hpast)]
        refine iff_of_false (fun heq => by cases heq) ?_
        rintro (⟨hnone, -⟩ | ⟨q, hq, -, hwritten, hlive⟩)
        · cases hnone
        · cases hq
          rw [← hwritten] at hpast
          exact hlive hpast
      · rw [if_pos (decide_eq_true hpast)]
        constructor
        · intro heq
          have hwritten := Option.some.inj heq
          refine Or.inr ⟨p, rfl, h p hprev, hwritten.symm, ?_⟩
          rwa [hwritten] at hpast
        · rintro (⟨hnone, -⟩ | ⟨q, hq, -, hwritten, -⟩)
          · cases hnone
          · cases hq
            exact congrArg some hwritten.symm

/-- An entry that is taken leaves the book as it was exactly when it leaves no trace. -/
theorem not_differs_iff (hv : validateBridgeEntry entry = some v) (h : book.Takes v) :
    ¬book.Differs (book.merge validateBridgeEntry maxAge entry signerKey now).2 ↔
      LeavesNoTrace maxAge book v signerKey now := by
  obtain ⟨-, hget⟩ := @merge_of_takes τ ρ α _ _ _ _ _ _ _ _ maxAge now book entry signerKey v hv h
  unfold Differs LeavesNoTrace
  rw [not_exists, ← written_eq_iff h]
  simp only [not_not, hget]
  constructor
  · intro hsame
    refine ⟨fun url hurl => ?_, ?_⟩
    · have hother := hsame url
      rw [if_neg hurl] at hother
      exact filter_eq_self_iff.mp hother
    · have hown := hsame v.url
      rwa [if_pos rfl] at hown
  · rintro ⟨hothers, hown⟩ url
    by_cases hurl : url = v.url
    · rw [if_pos hurl, hurl]
      exact hown
    · rw [if_neg hurl]
      exact filter_eq_self_iff.mpr (hothers url hurl)

omit [DecidableLT τ] in
theorem LeavesNoTrace.takes (h : LeavesNoTrace maxAge book v signerKey now) : book.Takes v := by
  intro p hp
  rcases h.2 with ⟨hnone, -⟩ | ⟨q, hq, hlater, -⟩
  · rw [hnone] at hp
    cases hp
  · cases hq.symm.trans hp
    exact hlater

/-- **The report of a merge.** It is true exactly when the entry, if there is a valid one, does not leave
the book without a trace. -/
theorem reportsTruly_iff (validateBridgeEntry : α → Option (BridgeEntry τ ρ)) (maxAge : τ)
    (book : BridgeBookStore τ ρ) (entry : α) (signerKey : Option JsString) (now : τ) :
    book.ReportsTruly validateBridgeEntry maxAge entry signerKey now ↔
      ∀ v, validateBridgeEntry entry = some v → ¬LeavesNoTrace maxAge book v signerKey now := by
  have hunreported : book.merge validateBridgeEntry maxAge entry signerKey now = (false, book) →
      book.ReportsTruly validateBridgeEntry maxAge entry signerKey now := by
    intro hfalse
    unfold ReportsTruly
    rw [mergeAndSave_eq, hfalse]
    refine ⟨iff_of_false Bool.false_ne_true ?_, fun _ => ⟨rfl, rfl⟩⟩
    rintro ⟨url, hne⟩
    exact hne rfl
  cases hv : validateBridgeEntry entry with
  | none =>
      refine iff_of_true (hunreported ?_) fun v hsome => by cases hsome
      unfold merge
      rw [hv]
  | some v =>
      by_cases htakes : book.Takes v
      · obtain ⟨htrue, -⟩ := @merge_of_takes τ ρ α _ _ _ _ _ _ _ _ maxAge now book entry signerKey v hv htakes
        unfold ReportsTruly
        rw [mergeAndSave_eq]
        dsimp only
        rw [htrue]
        constructor
        · rintro ⟨hreport, -⟩ v' hsome hleaves
          cases hsome
          exact (not_differs_iff hv htakes).mpr hleaves (hreport.mp rfl)
        · intro htrace
          refine ⟨iff_of_true rfl ?_, fun hfalse => Bool.noConfusion hfalse⟩
          by_contra hsame
          exact htrace v rfl ((not_differs_iff hv htakes).mp hsame)
      · refine iff_of_true (hunreported (merge_of_not_takes hv htakes)) ?_
        rintro v' hsome hleaves
        cases hsome
        exact htakes hleaves.takes

end Report

/-! ### An entry of yesterday -/

/-- An entry of the bridge at a host, at a time, in hours. -/
def heardOf (host : JsString) (ts : ℚ) : BridgeEntry JsNum Unit where
  url := js "wss://" ++ host
  ts := .fin ts
  rest := ()
  named := wss_not_mem_objectPrototype host

/-- A book that is still empty takes an entry of the same day. -/
theorem reportsTruly_today : ({ entries := JsMap.empty } : BridgeBookStore JsNum Unit).ReportsTruly some (.fin 24)
    (heardOf (js "a") 48) (some (js "k")) (.fin 49) := by
  refine (reportsTruly_iff _ _ _ _ _ _).mpr ?_
  rintro v hv ⟨-, ⟨-, hpast⟩ | ⟨p, hp, -⟩⟩
  · cases hv
    revert hpast
    decide +kernel
  · cases hp

/-- It takes one of two days ago as well, and drops it in the same call. -/
theorem not_reportsTruly_old : ¬({ entries := JsMap.empty } : BridgeBookStore JsNum Unit).ReportsTruly some
    (.fin 24) (heardOf (js "a") 1) (some (js "k")) (.fin 49) := by
  rintro ⟨hreport, -⟩
  obtain ⟨url, hne⟩ := hreport.mp (by decide +kernel)
  refine hne ?_
  have hdropped : (({ entries := JsMap.empty } : BridgeBookStore JsNum Unit).mergeAndSave some (.fin 24)
      (heardOf (js "a") 1) (some (js "k")) (.fin 49)).2.1.entries.entries = [] := by decide +kernel
  unfold JsMap.get
  rw [hdropped]
  rfl

end BridgeBookStore

end AxonaBridge
