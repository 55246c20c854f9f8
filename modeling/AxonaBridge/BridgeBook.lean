import AxonaBridge.JsMap
import AxonaBridge.JsText
import AxonaBridge.OrderFree
import Mathlib.Algebra.Order.Group.Defs

/-!
# The bridge book

What a bridge keeps of the other bridges it learns of from the directory: the latest entry of each url,
under the time the url was first seen. Every entry it takes drops those past the maximum age, also of urls
whose live entry is still to come, and those begin anew.
-/

open JsText

namespace AxonaBridge

/-- What `validateBridgeEntry` makes of a directory entry; `rest` is where the bridge is, its label and its
version. -/
structure BridgeEntry (τ ρ : Type) where
  url : JsString
  ts : τ
  rest : ρ
  /-- A url is no name that the object which holds the book has a member of to begin with, such as
  `__proto__`. -/
  named : url ∉ objectPrototype

theorem wss_not_mem_objectPrototype (host : JsString) : js "wss://" ++ host ∉ objectPrototype := by
  intro h
  have hfirst : ∀ name ∈ objectPrototype, name.head? ≠ some 119 := by decide +kernel
  exact hfirst _ h rfl

/-- An entry of the book. One from the disk may lack what a merge writes. -/
structure SavedBridge (τ ρ : Type) where
  url : JsString
  ts : Option τ
  rest : ρ
  signerKey : Option JsString := none
  firstSeen : Option τ := none
  deriving DecidableEq

structure BridgeBookStore (τ ρ : Type) where
  entries : JsMap JsString (SavedBridge τ ρ)

section Model

variable {τ ρ α : Type} [Zero τ] [Sub τ] [LE τ] [LT τ] [DecidableLE τ] [DecidableLT τ] [DecidableEq τ]

/-- A number that is true in a condition: not zero, nor `NaN`, the one number that is not at most itself. -/
def Truthy (x : τ) : Prop := x ≠ 0 ∧ x ≤ x

instance (x : τ) : Decidable (Truthy x) := inferInstanceAs (Decidable (x ≠ 0 ∧ x ≤ x))

namespace SavedBridge

/-- `ts || 0` -/
def stamp (p : SavedBridge τ ρ) : τ := (p.ts.filter fun ts => Truthy ts).getD 0

/-- `prev?.firstSeen || now` -/
def seenSince (prev : Option (SavedBridge τ ρ)) (now : τ) : τ :=
  ((prev.bind (·.firstSeen)).filter fun first => Truthy first).getD now

/-- `signerKey || prev?.signerKey || null` -/
def keyOf (signerKey : Option JsString) (prev : Option (SavedBridge τ ρ)) : Option JsString :=
  (signerKey.filter (· ≠ [])).or ((prev.bind (·.signerKey)).filter (· ≠ []))

/-- What a merge writes for an entry. -/
def ofEntry (v : BridgeEntry τ ρ) (signerKey : Option JsString) (prev : Option (SavedBridge τ ρ))
    (now : τ) : SavedBridge τ ρ where
  url := v.url
  ts := some v.ts
  rest := v.rest
  signerKey := keyOf signerKey prev
  firstSeen := some (seenSince prev now)

end SavedBridge

/-- A stamp past `BRIDGE_ENTRY_MAX_AGE_MS`. -/
def PastAge (maxAge now ts : τ) : Prop := maxAge < now - ts

instance (maxAge now ts : τ) : Decidable (PastAge maxAge now ts) :=
  inferInstanceAs (Decidable (maxAge < now - ts))

namespace BridgeBookStore

variable (validateBridgeEntry : α → Option (BridgeEntry τ ρ)) (maxAge : τ)

/-- Merge one received directory entry; tell whether that changed the book. -/
def merge (book : BridgeBookStore τ ρ) (entry : α) (signerKey : Option JsString) (now : τ) :
    Bool × BridgeBookStore τ ρ :=
  match validateBridgeEntry entry with
  | none => (false, book)
  | some v =>
      let prev := book.entries.get v.url
      if prev.any fun p => v.ts ≤ p.stamp then (false, book)
      else
        let entries := book.entries.set v.url (.ofEntry v signerKey prev now)
        (true, { entries := entries.filter fun e => ¬PastAge maxAge now e.2.stamp })

/-- The same merge with the entries that `_save` writes to the disk on the way. -/
def mergeAndSave (book : BridgeBookStore τ ρ) (entry : α) (signerKey : Option JsString) (now : τ) :
    Bool × BridgeBookStore τ ρ × List (JsMap JsString (SavedBridge τ ρ)) :=
  match validateBridgeEntry entry with
  | none => (false, book, [])
  | some v =>
      let prev := book.entries.get v.url
      if prev.any fun p => v.ts ≤ p.stamp then (false, book, [])
      else
        let entries := book.entries.set v.url (.ofEntry v signerKey prev now)
        let entries := entries.filter fun e => ¬PastAge maxAge now e.2.stamp
        (true, { entries }, [entries])

/-- Merge entries as they come, each with the key of its signer. -/
def mergeAll (now : τ) (book : BridgeBookStore τ ρ) (ms : List (α × JsString)) : BridgeBookStore τ ρ :=
  ms.foldl (fun book m => (book.merge validateBridgeEntry maxAge m.1 (some m.2) now).2) book

end BridgeBookStore

/-! ### The subscription to the directory -/

/-- What a subscription hands on of a published message. -/
structure Envelope (α : Type) where
  deleted : Bool := false
  signerPubkey : Option JsString := none
  message : α

/-- The entry that the callback of the subscription merges, and its key: neither one that was deleted, nor
one that nobody signed, nor the bridge's own. -/
def Envelope.delivery (messageUrl : α → Option JsString) (url : JsString) (envp : Envelope α) :
    Option (α × JsString) :=
  if envp.deleted then none
  else
    match envp.signerPubkey.filter (· ≠ []) with
    | none => none
    | some key => if messageUrl envp.message = some url then none else some (envp.message, key)

/-- The callback of the subscription. -/
def BridgeBookStore.learn (validateBridgeEntry : α → Option (BridgeEntry τ ρ)) (maxAge : τ)
    (messageUrl : α → Option JsString) (url : JsString) (book : BridgeBookStore τ ρ) (envp : Envelope α)
    (now : τ) : BridgeBookStore τ ρ :=
  match envp.delivery messageUrl url with
  | none => book
  | some (message, key) => (book.merge validateBridgeEntry maxAge message (some key) now).2

end Model

/-! ### What the book says of each url -/

abbrev Shelf (τ ρ : Type) := JsString → Option (SavedBridge τ ρ)

section Order

variable {τ ρ α : Type} [AddCommGroup τ] [LinearOrder τ] {maxAge now : τ}

namespace SavedBridge

variable {prev prev' : Option (SavedBridge τ ρ)} {v : BridgeEntry τ ρ} {key : JsString}

theorem truthy_iff {x : τ} : Truthy x ↔ x ≠ 0 := and_iff_left le_rfl

@[simp] theorem stamp_ofEntry (signerKey : Option JsString) :
    (ofEntry v signerKey prev now).stamp = v.ts := by
  have hwritten : (ofEntry v signerKey prev now).stamp = ((some v.ts).filter fun ts => Truthy ts).getD 0 := rfl
  rw [hwritten, Option.filter_some]
  by_cases hzero : v.ts = 0
  · rw [if_neg (by simp [truthy_iff, hzero]), hzero]
    rfl
  · rw [if_pos (by simp [truthy_iff, hzero])]
    rfl

/-- An entry that is written over one of the same url keeps since when that is known. -/
theorem seenSince_ofEntry (signerKey : Option JsString) :
    seenSince (some (ofEntry v signerKey prev now)) now = seenSince prev now := by
  have hwritten : seenSince (some (ofEntry v signerKey prev now)) now =
      ((some (seenSince prev now)).filter fun first => Truthy first).getD now := rfl
  rw [hwritten]
  by_cases hzero : seenSince prev now = 0
  · have hnow : now = 0 := by
      unfold seenSince at hzero
      cases hsome : (prev.bind (·.firstSeen)).filter fun first => Truthy first with
      | none =>
          rw [hsome] at hzero
          exact hzero
      | some first =>
          rw [hsome] at hzero
          have hne := truthy_iff.mp (of_decide_eq_true (Option.filter_eq_some_iff.mp hsome).2)
          exact absurd hzero hne
    rw [hzero, Option.filter_some, if_neg (by simp [truthy_iff])]
    exact hnow
  · rw [Option.filter_some, if_pos (by simpa [truthy_iff] using hzero)]
    rfl

/-- What is written of a signed entry tells of what it replaces since when the url is known, no more. -/
theorem ofEntry_congr (hkey : key ≠ []) (h : seenSince prev now = seenSince prev' now) :
    ofEntry v (some key) prev now = ofEntry v (some key) prev' now := by
  have hsigned : ∀ prev : Option (SavedBridge τ ρ), keyOf (some key) prev = some key := by
    intro prev
    unfold keyOf
    rw [Option.filter_some, if_pos (by simpa using hkey)]
    rfl
  unfold ofEntry
  rw [hsigned, hsigned, h]

end SavedBridge

namespace Shelf

variable {s : Shelf τ ρ} {d d' : BridgeEntry τ ρ × JsString} {ds : List (BridgeEntry τ ρ × JsString)}
  {u : JsString}

/-- The book takes an entry that is later than the one it has of the url. -/
def Takes (s : Shelf τ ρ) (v : BridgeEntry τ ρ) : Prop := ∀ p ∈ s v.url, p.stamp < v.ts

instance (s : Shelf τ ρ) (v : BridgeEntry τ ρ) : Decidable (s.Takes v) :=
  inferInstanceAs (Decidable (∀ p ∈ s v.url, p.stamp < v.ts))

/-- Drop what is past the age. -/
def dropped (maxAge now : τ) (s : Shelf τ ρ) : Shelf τ ρ :=
  fun u => (s u).filter fun p => ¬PastAge maxAge now p.stamp

/-- Write an entry over what there is of its url. -/
def put (now : τ) (s : Shelf τ ρ) (d : BridgeEntry τ ρ × JsString) : Shelf τ ρ :=
  Function.update s d.1.url (some (.ofEntry d.1 (some d.2) (s d.1.url) now))

def merge (maxAge now : τ) (s : Shelf τ ρ) (d : BridgeEntry τ ρ × JsString) : Shelf τ ρ :=
  if s.Takes d.1 then (s.put now d).dropped maxAge now else s

/-- Nothing of the book is past the age. -/
def Clean (maxAge now : τ) (s : Shelf τ ρ) : Prop := ∀ u, ∀ p ∈ s u, ¬PastAge maxAge now p.stamp

/-- What is left of an entry that was taken. -/
def settled (maxAge now : τ) (s : Shelf τ ρ) (d : BridgeEntry τ ρ × JsString) :
    Option (SavedBridge τ ρ) :=
  if PastAge maxAge now d.1.ts then none else some (.ofEntry d.1 (some d.2) (s d.1.url) now)

theorem merge_of_not_takes (h : ¬s.Takes d.1) : s.merge maxAge now d = s := if_neg h

theorem merge_self (h : s.Takes d.1) : s.merge maxAge now d d.1.url = s.settled maxAge now d := by
  unfold merge settled dropped put
  rw [if_pos h, Function.update_self, Option.filter_some, SavedBridge.stamp_ofEntry]
  by_cases hpast : PastAge maxAge now d.1.ts
  · rw [if_pos hpast]
    exact if_neg (by rwa [decide_eq_true_iff, not_not])
  · rw [if_neg hpast]
    exact if_pos (decide_eq_true hpast)

theorem merge_of_ne (h : s.Takes d.1) (hne : u ≠ d.1.url) :
    s.merge maxAge now d u = (s u).filter fun p => ¬PastAge maxAge now p.stamp := by
  unfold merge dropped put
  rw [if_pos h, Function.update_of_ne hne]

theorem filter_settled : ((s.settled maxAge now d).filter fun p => ¬PastAge maxAge now p.stamp) =
    s.settled maxAge now d := by
  unfold settled
  split
  · rfl
  · rename_i hlive
    rw [Option.filter_some, SavedBridge.stamp_ofEntry]
    exact if_pos (decide_eq_true hlive)

theorem clean_merge (h : s.Takes d.1) : (s.merge maxAge now d).Clean maxAge now := by
  intro u p hp
  unfold merge dropped at hp
  rw [if_pos h, Option.mem_def, Option.filter_eq_some_iff] at hp
  exact of_decide_eq_true hp.2

theorem Clean.filter (h : s.Clean maxAge now) (u : JsString) :
    ((s u).filter fun p => ¬PastAge maxAge now p.stamp) = s u := by
  cases hu : s u with
  | none => rfl
  | some p =>
      rw [Option.filter_some]
      exact if_pos (decide_eq_true (h u p hu))

/-! ### Two entries in either order -/

/-- No entry of the book past the age that was first seen at another time gets a live entry, or the book
takes none but live entries of its url. -/
def KeepsTenure (maxAge now : τ) (s : Shelf τ ρ) (ds : List (BridgeEntry τ ρ × JsString)) : Prop :=
  ∀ d ∈ ds, ∀ p ∈ s d.1.url, PastAge maxAge now p.stamp → SavedBridge.seenSince (some p) now ≠ now →
    ¬PastAge maxAge now d.1.ts →
      ∀ d' ∈ ds, s.Takes d'.1 → d'.1.url = d.1.url ∧ ¬PastAge maxAge now d'.1.ts

theorem KeepsTenure.merge (h : KeepsTenure maxAge now s (d :: ds)) :
    KeepsTenure maxAge now (s.merge maxAge now d) ds := by
  by_cases htakes : s.Takes d.1
  · exact fun e _ p hp hpast => absurd hpast (clean_merge htakes _ p hp)
  · rw [merge_of_not_takes htakes]
    exact fun e he p hp hpast hseen hlive e' he' =>
      h e (List.mem_cons_of_mem _ he) p hp hpast hseen hlive e' (List.mem_cons_of_mem _ he')

theorem KeepsTenure.perm {ds' : List (BridgeEntry τ ρ × JsString)} (hperm : ds.Perm ds')
    (h : KeepsTenure maxAge now s ds) : KeepsTenure maxAge now s ds' :=
  fun d hd p hp hpast hseen hlive d' hd' =>
    h d (hperm.mem_iff.mpr hd) p hp hpast hseen hlive d' (hperm.mem_iff.mpr hd')

/-- Where another entry is taken that is none of the url's live ones, nothing of an entry past the age is
handed on to a live one. -/
theorem KeepsTenure.seenSince_filter (h : KeepsTenure maxAge now s ds) (hd : d ∈ ds) (hd' : d' ∈ ds)
    (htakes : s.Takes d'.1) (hother : d'.1.url = d.1.url → PastAge maxAge now d'.1.ts)
    (hlive : ¬PastAge maxAge now d.1.ts) :
    SavedBridge.seenSince ((s d.1.url).filter fun p => ¬PastAge maxAge now p.stamp) now =
      SavedBridge.seenSince (s d.1.url) now := by
  cases hprev : s d.1.url with
  | none => rfl
  | some p =>
      by_cases hpast : PastAge maxAge now p.stamp
      · rw [Option.filter_some, if_neg (by rwa [decide_eq_true_iff, not_not])]
        by_contra hne
        obtain ⟨hurl, hlive'⟩ := h d hd p hprev hpast (fun heq => hne heq.symm) hlive d' hd' htakes
        exact hlive' (hother hurl)
      · rw [Option.filter_some, if_pos (decide_eq_true hpast)]

/-- What is left of an entry is the same after one of another url. -/
theorem settled_merge (htenure : KeepsTenure maxAge now s ds) (hd : d ∈ ds) (hd' : d' ∈ ds)
    (hkey : d.2 ≠ []) (htakes' : s.Takes d'.1) (hne : d.1.url ≠ d'.1.url) :
    (s.merge maxAge now d').settled maxAge now d = s.settled maxAge now d := by
  unfold settled
  by_cases hpast : PastAge maxAge now d.1.ts
  · rw [if_pos hpast, if_pos hpast]
  · rw [if_neg hpast, if_neg hpast, merge_of_ne htakes' hne]
    refine congrArg some (SavedBridge.ofEntry_congr hkey ?_)
    exact htenure.seenSince_filter hd hd' htakes' (fun hurl => absurd hurl.symm hne) hpast

theorem takes_merge_of_ne (h : s.Takes d.1) (htakes : s.Takes d'.1) (hne : d.1.url ≠ d'.1.url) :
    (s.merge maxAge now d').Takes d.1 := by
  intro p hp
  rw [merge_of_ne htakes hne, Option.mem_def, Option.filter_eq_some_iff] at hp
  exact h p hp.1

/-- Entries of two urls are taken in either order. -/
theorem merge_comm_of_ne (htenure : KeepsTenure maxAge now s ds) (hd : d ∈ ds) (hd' : d' ∈ ds)
    (hkey : d.2 ≠ []) (hkey' : d'.2 ≠ []) (htakes : s.Takes d.1) (htakes' : s.Takes d'.1)
    (hne : d.1.url ≠ d'.1.url) :
    (s.merge maxAge now d).merge maxAge now d' = (s.merge maxAge now d').merge maxAge now d := by
  have hagain : (s.merge maxAge now d').Takes d.1 := takes_merge_of_ne htakes htakes' hne
  have hagain' : (s.merge maxAge now d).Takes d'.1 := takes_merge_of_ne htakes' htakes hne.symm
  funext u
  by_cases hu : u = d.1.url
  · subst hu
    rw [merge_of_ne hagain' hne, merge_self htakes, filter_settled, merge_self hagain,
      settled_merge htenure hd hd' hkey htakes' hne]
  · by_cases hu' : u = d'.1.url
    · subst hu'
      rw [merge_self hagain', settled_merge htenure hd' hd hkey' htakes hne.symm, merge_of_ne hagain hu,
        merge_self htakes', filter_settled]
    · rw [merge_of_ne hagain' hu', merge_of_ne htakes hu, merge_of_ne hagain hu, merge_of_ne htakes' hu']

/-- The book has a live entry of the url, known since `first`. -/
def Since (maxAge now : τ) (u : JsString) (first : τ) (s : Shelf τ ρ) : Prop :=
  ∃ p, s u = some p ∧ ¬PastAge maxAge now p.stamp ∧ SavedBridge.seenSince (s u) now = first

theorem since_of_takes (htakes : s.Takes d.1) (hlive : ¬PastAge maxAge now d.1.ts) :
    Since maxAge now d.1.url (SavedBridge.seenSince (s d.1.url) now) (s.merge maxAge now d) := by
  have hkept : s.merge maxAge now d d.1.url = some (.ofEntry d.1 (some d.2) (s d.1.url) now) := by
    rw [merge_self htakes, settled, if_neg hlive]
  refine ⟨_, hkept, by rwa [SavedBridge.stamp_ofEntry], ?_⟩
  rw [hkept]
  exact SavedBridge.seenSince_ofEntry _

section Ordered

variable [IsOrderedAddMonoid τ]

theorem pastAge_of_le {ts ts' : τ} (h : PastAge maxAge now ts) (hle : ts' ≤ ts) :
    PastAge maxAge now ts' := lt_of_lt_of_le h (sub_le_sub_left hle now)

/-- A book without entries past the age is not changed by one that is. -/
theorem merge_of_pastAge (hclean : s.Clean maxAge now) (hpast : PastAge maxAge now d.1.ts) :
    s.merge maxAge now d = s := by
  by_cases htakes : s.Takes d.1
  · funext u
    by_cases hu : u = d.1.url
    · subst hu
      rw [merge_self htakes, settled, if_pos hpast]
      cases hprev : s d.1.url with
      | none => rfl
      | some p =>
          exact absurd (pastAge_of_le hpast (htakes p hprev).le) (hclean _ p hprev)
    · rw [merge_of_ne htakes hu, hclean.filter]
  · exact merge_of_not_takes htakes

/-- An entry that is only taken once another has been is past the age. -/
theorem pastAge_of_takes_merge (hd : s.Takes d.1) (hnot : ¬s.Takes d'.1)
    (htakes : (s.merge maxAge now d).Takes d'.1) : PastAge maxAge now d'.1.ts := by
  obtain ⟨p, hp, hnotlt⟩ := not_forall₂.mp hnot
  have hle := not_lt.mp hnotlt
  by_contra hlive
  have hlive_p : ¬PastAge maxAge now p.stamp := fun hpast => hlive (pastAge_of_le hpast hle)
  by_cases hurl : d'.1.url = d.1.url
  · rw [hurl] at hp
    have hlater : d'.1.ts < d.1.ts := lt_of_le_of_lt hle (hd p hp)
    have hkept : s.merge maxAge now d d'.1.url = some (.ofEntry d.1 (some d.2) (s d.1.url) now) := by
      rw [hurl, merge_self hd, settled, if_neg fun hpast => hlive (pastAge_of_le hpast hlater.le)]
    have hagain := htakes _ hkept
    rw [SavedBridge.stamp_ofEntry] at hagain
    exact absurd hagain (not_lt.mpr hlater.le)
  · have hkept : s.merge maxAge now d d'.1.url = some p := by
      rw [merge_of_ne hd hurl, hp, Option.filter_some]
      exact if_pos (decide_eq_true hlive_p)
    exact absurd (htakes p hkept) (not_lt.mpr hle)

theorem merge_merge_of_not_takes (hd : s.Takes d.1) (hnot : ¬s.Takes d'.1) :
    (s.merge maxAge now d).merge maxAge now d' = s.merge maxAge now d := by
  by_cases htakes : (s.merge maxAge now d).Takes d'.1
  · exact merge_of_pastAge (clean_merge hd) (pastAge_of_takes_merge hd hnot htakes)
  · exact merge_of_not_takes htakes

/-- The earlier of two entries of a url is lost on the later. -/
theorem merge_later_earlier (hd : s.Takes d.1) (hurl : d'.1.url = d.1.url) (hlt : d'.1.ts < d.1.ts) :
    (s.merge maxAge now d).merge maxAge now d' = s.merge maxAge now d := by
  by_cases hpast : PastAge maxAge now d'.1.ts
  · exact merge_of_pastAge (clean_merge hd) hpast
  · refine merge_of_not_takes fun htakes => ?_
    have hkept : s.merge maxAge now d d'.1.url = some (.ofEntry d.1 (some d.2) (s d.1.url) now) := by
      rw [hurl, merge_self hd, settled, if_neg fun h => hpast (pastAge_of_le h hlt.le)]
    have hagain := htakes _ hkept
    rw [SavedBridge.stamp_ofEntry] at hagain
    exact absurd hagain (not_lt.mpr hlt.le)

/-- The later of two entries of a url makes up for the earlier. -/
theorem merge_earlier_later (htenure : KeepsTenure maxAge now s ds) (hd : d ∈ ds) (hd' : d' ∈ ds)
    (hkey : d'.2 ≠ []) (htakes : s.Takes d.1) (htakes' : s.Takes d'.1) (hurl : d.1.url = d'.1.url)
    (hlt : d.1.ts < d'.1.ts) :
    (s.merge maxAge now d).merge maxAge now d' = s.merge maxAge now d' := by
  have hfirst : s.merge maxAge now d d'.1.url = s.settled maxAge now d := hurl ▸ merge_self htakes
  have hlater : (s.merge maxAge now d).Takes d'.1 := by
    intro p hp
    rw [hfirst, settled] at hp
    split at hp
    · cases hp
    · cases hp
      rwa [SavedBridge.stamp_ofEntry]
  funext u
  by_cases hu : u = d'.1.url
  · subst hu
    rw [merge_self hlater, merge_self htakes', settled, settled]
    by_cases hpast' : PastAge maxAge now d'.1.ts
    · rw [if_pos hpast', if_pos hpast']
    · rw [if_neg hpast', if_neg hpast', hfirst, settled]
      refine congrArg some (SavedBridge.ofEntry_congr hkey ?_)
      by_cases hpast : PastAge maxAge now d.1.ts
      · rw [if_pos hpast, ← htenure.seenSince_filter hd' hd htakes (fun _ => hpast) hpast']
        cases hprev : s d'.1.url with
        | none => rfl
        | some p =>
            have hold := pastAge_of_le hpast (htakes p (hurl ▸ hprev)).le
            rw [Option.filter_some, if_neg (by rwa [decide_eq_true_iff, not_not])]
      · rw [if_neg hpast, SavedBridge.seenSince_ofEntry, hurl]
  · rw [merge_of_ne hlater hu, merge_of_ne htakes' hu, merge_of_ne htakes (hurl ▸ hu), Option.filter_filter]
    simp only [Bool.and_self]

/-- **Two entries can be merged in either order.** -/
theorem merge_comm (htenure : KeepsTenure maxAge now s ds) (hd : d ∈ ds) (hd' : d' ∈ ds)
    (hkey : d.2 ≠ []) (hkey' : d'.2 ≠ []) (hts : d.1.url = d'.1.url → d.1.ts ≠ d'.1.ts) :
    (s.merge maxAge now d).merge maxAge now d' = (s.merge maxAge now d').merge maxAge now d := by
  by_cases htakes : s.Takes d.1
  · by_cases htakes' : s.Takes d'.1
    · by_cases hurl : d.1.url = d'.1.url
      · rcases lt_or_gt_of_ne (hts hurl) with hlt | hgt
        · rw [merge_earlier_later htenure hd hd' hkey' htakes htakes' hurl hlt,
            merge_later_earlier htakes' hurl hlt]
        · rw [merge_later_earlier htakes hurl.symm hgt,
            merge_earlier_later htenure hd' hd hkey htakes' htakes hurl.symm hgt]
      · exact merge_comm_of_ne htenure hd hd' hkey hkey' htakes htakes' hurl
    · rw [merge_merge_of_not_takes htakes htakes', merge_of_not_takes htakes']
  · by_cases htakes' : s.Takes d'.1
    · rw [merge_of_not_takes htakes, merge_merge_of_not_takes htakes' htakes]
    · rw [merge_of_not_takes htakes, merge_of_not_takes htakes', merge_of_not_takes htakes]

/-! ### Any number of entries in any order -/

/-- No two entries of a url have one timestamp. -/
def Distinct (ds : List (BridgeEntry τ ρ × JsString)) : Prop :=
  ds.Pairwise fun d d' => d.1.url = d'.1.url → d.1.ts ≠ d'.1.ts

instance (ds : List (BridgeEntry τ ρ × JsString)) : Decidable (Distinct ds) :=
  inferInstanceAs (Decidable (ds.Pairwise _))

theorem foldl_merge_perm {ds' : List (BridgeEntry τ ρ × JsString)} (hkeys : ∀ d ∈ ds, d.2 ≠ [])
    (hdistinct : Distinct ds) (htenure : KeepsTenure maxAge now s ds) (hperm : ds.Perm ds') :
    ds.foldl (merge maxAge now) s = ds'.foldl (merge maxAge now) s := by
  refine OrderFree.foldl_perm (C := fun s ds => (∀ d ∈ ds, d.2 ≠ []) ∧ Distinct ds ∧
    KeepsTenure maxAge now s ds) (fun s ds ds' hperm h => ?_) (fun s d ds h => ?_)
    (fun s d d' ds h => ?_) hperm ⟨hkeys, hdistinct, htenure⟩
  · obtain ⟨hkeys, hdistinct, htenure⟩ := h
    refine ⟨fun d hd => hkeys d (hperm.mem_iff.mpr hd), ?_, htenure.perm hperm⟩
    exact (hperm.pairwise_iff fun h hurl => (h hurl.symm).symm).mp hdistinct
  · obtain ⟨hkeys, hdistinct, htenure⟩ := h
    exact ⟨fun e he => hkeys e (List.mem_cons_of_mem _ he), (List.pairwise_cons.mp hdistinct).2,
      htenure.merge⟩
  · obtain ⟨hkeys, hdistinct, htenure⟩ := h
    have hd' : d' ∈ d :: d' :: ds := List.mem_cons_of_mem _ List.mem_cons_self
    exact merge_comm htenure List.mem_cons_self hd' (hkeys d List.mem_cons_self) (hkeys d' hd')
      ((List.pairwise_cons.mp hdistinct).1 d' List.mem_cons_self)

/-! ### Where the order tells -/

theorem Since.merge {first : τ} (h : Since maxAge now u first s) :
    Since maxAge now u first (s.merge maxAge now d) := by
  obtain ⟨p, hp, hlive, hfirst⟩ := h
  by_cases htakes : s.Takes d.1
  · by_cases hu : u = d.1.url
    · subst hu
      rw [← hfirst]
      exact since_of_takes htakes fun hpast => hlive (pastAge_of_le hpast (htakes p hp).le)
    · have hkept : s.merge maxAge now d u = s u := by
        rw [merge_of_ne htakes hu, hp, Option.filter_some]
        exact if_pos (decide_eq_true hlive)
      exact ⟨p, hkept.trans hp, hlive, by rw [hkept, hfirst]⟩
  · rw [merge_of_not_takes htakes]
    exact ⟨p, hp, hlive, hfirst⟩

theorem Since.foldl {first : τ} (h : Since maxAge now u first s) :
    Since maxAge now u first (ds.foldl (Shelf.merge maxAge now) s) :=
  List.foldlRecOn ds _ h fun _ h _ _ => h.merge

/-- A live entry that is merged first keeps what an entry past the age handed on, and one that is merged
after another entry does not. -/
theorem live_of_foldl_eq {p : SavedBridge τ ρ}
    (h : (d :: d' :: ds).foldl (merge maxAge now) s = (d' :: d :: ds).foldl (merge maxAge now) s)
    (hp : s d.1.url = some p) (hpast : PastAge maxAge now p.stamp)
    (hseen : SavedBridge.seenSince (some p) now ≠ now) (hlive : ¬PastAge maxAge now d.1.ts)
    (htakes' : s.Takes d'.1) : d'.1.url = d.1.url ∧ ¬PastAge maxAge now d'.1.ts := by
  by_contra hother
  have htakes : s.Takes d.1 := by
    intro q hq
    cases hp.symm.trans hq
    exact lt_of_not_ge fun hle => hlive (pastAge_of_le hpast hle)
  have hgone : s.merge maxAge now d' d.1.url = none := by
    by_cases hurl : d'.1.url = d.1.url
    · rw [← hurl, merge_self htakes', settled, if_pos]
      by_contra hlive'
      exact hother ⟨hurl, hlive'⟩
    · rw [merge_of_ne htakes' (Ne.symm hurl), hp, Option.filter_some]
      exact if_neg (by rwa [decide_eq_true_iff, not_not])
  have htakesAfter : (s.merge maxAge now d').Takes d.1 := fun q hq => by
    rw [hgone] at hq
    cases hq
  have hfirst : Since maxAge now d.1.url (SavedBridge.seenSince (some p) now)
      ((d :: d' :: ds).foldl (merge maxAge now) s) := by
    rw [← hp, List.foldl_cons]
    exact (since_of_takes htakes hlive).foldl
  have hsecond : Since maxAge now d.1.url now ((d' :: d :: ds).foldl (merge maxAge now) s) := by
    have hnew := since_of_takes htakesAfter hlive
    rw [hgone] at hnew
    exact hnew.foldl
  obtain ⟨-, -, -, hfirst⟩ := hfirst
  obtain ⟨-, -, -, hsecond⟩ := hsecond
  rw [h, hsecond] at hfirst
  exact hseen hfirst.symm

end Ordered

end Shelf

/-! ### The book is what it says of each url -/

namespace BridgeBookStore

variable {validateBridgeEntry : α → Option (BridgeEntry τ ρ)} {book : BridgeBookStore τ ρ} {entry : α}
  {key : JsString} {ms : List (α × JsString)}

/-- The entries that are accepted, each with the key of its signer. -/
def accepted (validateBridgeEntry : α → Option (BridgeEntry τ ρ)) (ms : List (α × JsString)) :
    List (BridgeEntry τ ρ × JsString) :=
  ms.filterMap fun m => (validateBridgeEntry m.1).map fun v => (v, m.2)

theorem get_merge {v : BridgeEntry τ ρ} (hv : validateBridgeEntry entry = some v) :
    (book.merge validateBridgeEntry maxAge entry (some key) now).2.entries.get =
      Shelf.merge maxAge now book.entries.get (v, key) := by
  have hany : ((book.entries.get v.url).any fun p => v.ts ≤ p.stamp) = true ↔
      ¬Shelf.Takes book.entries.get v := by
    unfold Shelf.Takes
    cases book.entries.get v.url with
    | none => simp
    | some p => simp
  unfold merge
  rw [hv]
  dsimp only
  unfold Shelf.merge
  by_cases htakes : Shelf.Takes book.entries.get v
  · rw [if_neg fun h => hany.mp h htakes, if_pos htakes]
    funext u
    rw [JsMap.get_filter, JsMap.get_set]
    unfold Shelf.dropped Shelf.put
    rw [Function.update_apply]
  · rw [if_pos (hany.mpr htakes), if_neg htakes]

/-- What a book says after merges is what the merges make of what it said. -/
theorem get_mergeAll : (mergeAll validateBridgeEntry maxAge now book ms).entries.get =
    (accepted validateBridgeEntry ms).foldl (Shelf.merge maxAge now) book.entries.get := by
  induction ms generalizing book with
  | nil => rfl
  | cons m ms ih =>
      have hcons : mergeAll validateBridgeEntry maxAge now book (m :: ms) = mergeAll validateBridgeEntry
          maxAge now (book.merge validateBridgeEntry maxAge m.1 (some m.2) now).2 ms := rfl
      rw [hcons, ih, accepted, accepted, List.filterMap_cons]
      cases hv : validateBridgeEntry m.1 with
      | none =>
          unfold merge
          rw [hv]
          rfl
      | some v =>
          rw [get_merge hv]
          rfl

/-! ### What a subscription teaches -/

/-- The callback merges under non-empty keys alone. -/
theorem ne_nil_of_delivery {messageUrl : α → Option JsString} {url : JsString} {envp : Envelope α}
    {m : α × JsString} (h : envp.delivery messageUrl url = some m) : m.2 ≠ [] := by
  unfold Envelope.delivery at h
  split at h
  · cases h
  · split at h
    · cases h
    · rename_i key hkey
      split at h
      · cases h
      · cases h
        simpa using (Option.filter_eq_some_iff.mp hkey).2

/-- What messages of one time teach a bridge is what merging their entries makes of its book. -/
theorem foldl_learn (messageUrl : α → Option JsString) (url : JsString) (envps : List (Envelope α)) :
    envps.foldl (fun book envp => book.learn validateBridgeEntry maxAge messageUrl url envp now) book =
      mergeAll validateBridgeEntry maxAge now book (envps.filterMap (Envelope.delivery messageUrl url)) := by
  induction envps generalizing book with
  | nil => rfl
  | cons envp envps ih =>
      rw [List.foldl_cons, ih, List.filterMap_cons]
      unfold learn
      cases envp.delivery messageUrl url <;> rfl

/-! ### The order of arrival -/

/-- The entries leave the same book whatever order they come in. -/
def OrderIndependent (validateBridgeEntry : α → Option (BridgeEntry τ ρ)) (maxAge now : τ)
    (book : BridgeBookStore τ ρ) (ms : List (α × JsString)) : Prop :=
  ∀ ms₁ ms₂, ms₁.Perm ms → ms₂.Perm ms → ∀ url,
    (mergeAll validateBridgeEntry maxAge now book ms₁).entries.get url =
      (mergeAll validateBridgeEntry maxAge now book ms₂).entries.get url

variable [IsOrderedAddMonoid τ]

theorem mergeAll_perm {ms' : List (α × JsString)} (hkeys : ∀ m ∈ ms, m.2 ≠ [])
    (hdistinct : Shelf.Distinct (accepted validateBridgeEntry ms))
    (htenure : Shelf.KeepsTenure maxAge now book.entries.get (accepted validateBridgeEntry ms))
    (hperm : ms.Perm ms') (url : JsString) :
    (mergeAll validateBridgeEntry maxAge now book ms).entries.get url =
      (mergeAll validateBridgeEntry maxAge now book ms').entries.get url := by
  have hsigned : ∀ d ∈ accepted validateBridgeEntry ms, d.2 ≠ [] := by
    intro d hd
    obtain ⟨m, hm, hsome⟩ := List.mem_filterMap.mp hd
    obtain ⟨v, -, rfl⟩ := Option.map_eq_some_iff.mp hsome
    exact hkeys m hm
  rw [get_mergeAll, get_mergeAll]
  exact congrFun (Shelf.foldl_merge_perm hsigned hdistinct htenure (hperm.filterMap _)) url

theorem OrderIndependent.keepsTenure (h : OrderIndependent validateBridgeEntry maxAge now book ms) :
    Shelf.KeepsTenure maxAge now book.entries.get (accepted validateBridgeEntry ms) := by
  intro d hd p hp hpast hseen hlive d' hd' htakes'
  by_cases hsame : d' = d
  · rw [hsame]
    exact ⟨rfl, hlive⟩
  · obtain ⟨m, hm, hsome⟩ := List.mem_filterMap.mp hd
    obtain ⟨m', hm', hsome'⟩ := List.mem_filterMap.mp hd'
    have hne : m' ≠ m := by
      rintro rfl
      exact hsame (Option.some.inj (hsome'.symm.trans hsome))
    obtain ⟨rest, hperm⟩ := OrderFree.exists_perm_of_mem hm hm' hne
    have hsplit : ∀ a b : α × JsString, ∀ e e', (validateBridgeEntry a.1).map (fun v => (v, a.2)) = some e →
        (validateBridgeEntry b.1).map (fun v => (v, b.2)) = some e' →
          accepted validateBridgeEntry (a :: b :: rest) = e :: e' :: accepted validateBridgeEntry rest := by
      intro a b e e' ha hb
      rw [accepted, List.filterMap_cons, ha, List.filterMap_cons, hb]
      rfl
    have hfold := funext fun url => h (m :: m' :: rest) (m' :: m :: rest) hperm.symm
      ((List.Perm.swap m m' rest).trans hperm.symm) url
    rw [get_mergeAll, get_mergeAll, hsplit m m' d d' hsome hsome', hsplit m' m d' d hsome' hsome] at hfold
    exact Shelf.live_of_foldl_eq hfold hp hpast hseen hlive htakes'

/-- **The bridge book and the order of arrival.** Signed entries with distinct timestamps per url leave the
same book whatever order they come in, exactly when no entry of the book past the age that was first seen
before now gets a live entry, or the book takes none but live entries of its url. -/
theorem orderIndependent_iff (hkeys : ∀ m ∈ ms, m.2 ≠ [])
    (hdistinct : Shelf.Distinct (accepted validateBridgeEntry ms)) :
    OrderIndependent validateBridgeEntry maxAge now book ms ↔
      Shelf.KeepsTenure maxAge now book.entries.get (accepted validateBridgeEntry ms) := by
  refine ⟨OrderIndependent.keepsTenure, fun htenure ms₁ ms₂ hperm₁ hperm₂ url => ?_⟩
  exact (mergeAll_perm hkeys hdistinct htenure hperm₁.symm url).symm.trans
    (mergeAll_perm hkeys hdistinct htenure hperm₂.symm url)

/-- A bridge that subscribes learns the same whatever order the messages of one time come in, as long as its
book keeps since when it knows the others. -/
theorem foldl_learn_perm {messageUrl : α → Option JsString} {url : JsString} {envps envps' : List (Envelope α)}
    (hdistinct : Shelf.Distinct
      (accepted validateBridgeEntry (envps.filterMap (Envelope.delivery messageUrl url))))
    (htenure : Shelf.KeepsTenure maxAge now book.entries.get
      (accepted validateBridgeEntry (envps.filterMap (Envelope.delivery messageUrl url))))
    (hperm : envps.Perm envps') (u : JsString) :
    (envps.foldl (fun book envp => book.learn validateBridgeEntry maxAge messageUrl url envp now)
        book).entries.get u =
      (envps'.foldl (fun book envp => book.learn validateBridgeEntry maxAge messageUrl url envp now)
        book).entries.get u := by
  rw [foldl_learn, foldl_learn]
  refine mergeAll_perm (fun m hm => ?_) hdistinct htenure (hperm.filterMap _) u
  obtain ⟨envp, -, hdelivery⟩ := List.mem_filterMap.mp hm
  exact ne_nil_of_delivery hdelivery

end BridgeBookStore

end Order

/-! ### A book that was on the disk for two days -/

namespace BridgeBookStore

/-- An entry of the bridge at a host, at a time, in hours. -/
def entryAt (host : JsString) (ts : Int) : BridgeEntry Int Unit where
  url := js "wss://" ++ host
  ts := ts
  rest := ()
  named := wss_not_mem_objectPrototype host

/-- A book with one bridge, last heard of in the first hour and known since. -/
def oldBook : BridgeBookStore Int Unit where
  entries := JsMap.empty.set (js "wss://a")
    { url := js "wss://a", ts := some 1, rest := (), signerKey := some (js "k"), firstSeen := some 1 }

/-- Two days later its one bridge is heard of, twice. -/
theorem orderIndependent_oneBridge : OrderIndependent some 24 49 oldBook
    [(entryAt (js "a") 48, js "k"), (entryAt (js "a") 49, js "k")] :=
  (orderIndependent_iff (by decide) (by decide +kernel)).mpr (by
    unfold Shelf.KeepsTenure
    decide +kernel)

/-- Two days later the bridge is heard of, and another: the one that comes first is known since then. -/
theorem not_orderIndependent_twoBridges : ¬OrderIndependent some 24 49 oldBook
    [(entryAt (js "a") 48, js "k"), (entryAt (js "b") 48, js "l")] := by
  intro h
  have hsame := h _ [(entryAt (js "b") 48, js "l"), (entryAt (js "a") 48, js "k")]
    (List.Perm.refl _) (List.Perm.swap _ _ []) (js "wss://a")
  revert hsame
  decide +kernel

end BridgeBookStore

end AxonaBridge
