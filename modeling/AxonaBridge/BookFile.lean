import AxonaBridge.BookReport
import AxonaBridge.WriteThrough

/-!
# The file of the bridge book

`_load` and `_save` of `bridge_book_store.js`. The book is written whole to its file by every merge that
takes an entry, and a process that starts reads it back, or begins with an empty book where the file is
absent or cannot be parsed. A write that fails is logged and forgotten. So the book is a store written
through to a file, and what a process loses by a restart is what that store forgets.
-/

open JsText

namespace AxonaBridge

open WriteThrough (Kind Store)

variable {τ ρ α : Type}

/-- `_load`, of what `JSON.parse` makes of the file: its `entries`, where there is such an object. -/
def BridgeBookStore.load (file : Option (JsMap JsString (SavedBridge τ ρ))) : BridgeBookStore τ ρ where
  entries := file.getD JsMap.empty

/-- The book of the process that runs, and its file, as it would parse. -/
structure BookProcess (τ ρ : Type) where
  book : BridgeBookStore τ ρ
  file : Option (JsMap JsString (SavedBridge τ ρ))

inductive BookEvent (τ α : Type) where
  /-- A merge, and what becomes of the file if it is written. -/
  | merge (entry : α) (signerKey : Option JsString) (now : τ) (write : FileWrite)
  /-- The process ends, and another one starts. -/
  | restart

/-- A directory entry, the key it came with and the time it came at. -/
abbrev BookMerge (τ α : Type) := α × Option JsString × τ

namespace BookProcess

variable [Zero τ] [Sub τ] [LE τ] [LT τ] [DecidableLE τ] [DecidableLT τ] [DecidableEq τ]

section Process

variable (validateBridgeEntry : α → Option (BridgeEntry τ ρ)) (maxAge : τ)

/-- The first launch. -/
def init : BookProcess τ ρ where
  book := BridgeBookStore.load none
  file := none

def step (p : BookProcess τ ρ) : BookEvent τ α → BookProcess τ ρ
  | .merge entry signerKey now write =>
      let r := p.book.mergeAndSave validateBridgeEntry maxAge entry signerKey now
      { book := r.2.1, file := r.2.2.foldl write.put p.file }
  | .restart => { p with book := BridgeBookStore.load p.file }

def run (es : List (BookEvent τ α)) : BookProcess τ ρ := es.foldl (step validateBridgeEntry maxAge) init

/-- One merge, as far as the book goes. -/
def mergeOne (book : BridgeBookStore τ ρ) (m : BookMerge τ α) : BridgeBookStore τ ρ :=
  (book.merge validateBridgeEntry maxAge m.1 m.2.1 m.2.2).2

end Process

end BookProcess

/-- The merges among the events. -/
def BookEvent.merges : List (BookEvent τ α) → List (BookMerge τ α) :=
  List.filterMap fun
    | .merge entry signerKey now _ => some (entry, signerKey, now)
    | .restart => none

/-- What becomes of the file at an event, if it is written. -/
def BookEvent.write : BookEvent τ α → Option FileWrite
  | .merge _ _ _ write => some write
  | .restart => none

/-! ### The book is a store written through -/

namespace BookProcess

def store (p : BookProcess τ ρ) : Store (BridgeBookStore τ ρ) where
  memory := p.book
  file := p.file.map fun entries => { entries }

def event : BookEvent τ α → WriteThrough.Event (BookMerge τ α)
  | .merge entry signerKey now write => .operate (entry, signerKey, now) write
  | .restart => .start

theorem load_map (file : Option (JsMap JsString (SavedBridge τ ρ))) :
    BridgeBookStore.load file =
      (file.map fun entries => ({ entries } : BridgeBookStore τ ρ)).getD (BridgeBookStore.load none) := by
  cases file <;> rfl

theorem operations_map_event (es : List (BookEvent τ α)) :
    WriteThrough.operations (es.map event) = BookEvent.merges es := by
  unfold WriteThrough.operations BookEvent.merges
  rw [List.filterMap_map]
  refine List.filterMap_congr fun e _ => ?_
  cases e <;> rfl

theorem write_of_mem_map_event {es : List (BookEvent τ α)} {m : BookMerge τ α} {write : FileWrite}
    (h : .operate m write ∈ es.map event) : ∃ e ∈ es, e.write = some write := by
  obtain ⟨e, he, hevent⟩ := List.mem_map.mp h
  refine ⟨e, he, ?_⟩
  cases e with
  | merge entry signerKey now write' =>
      injection hevent with _ hwrite
      exact congrArg some hwrite
  | restart => cases hevent

variable [Zero τ] [Sub τ] [LE τ] [LT τ] [DecidableLE τ] [DecidableLT τ] [DecidableEq τ]
  {validateBridgeEntry : α → Option (BridgeEntry τ ρ)} {maxAge : τ}

/-- The book as a store: a merge that takes an entry changes it. -/
def kind (validateBridgeEntry : α → Option (BridgeEntry τ ρ)) (maxAge : τ) :
    Kind (BridgeBookStore τ ρ) (BookMerge τ α) where
  empty := BridgeBookStore.load none
  apply book m :=
    let r := book.merge validateBridgeEntry maxAge m.1 m.2.1 m.2.2
    if r.1 then some r.2 else none

theorem merge_of_false {book : BridgeBookStore τ ρ} {m : BookMerge τ α}
    (h : (book.merge validateBridgeEntry maxAge m.1 m.2.1 m.2.2).1 = false) :
    (book.merge validateBridgeEntry maxAge m.1 m.2.1 m.2.2).2 = book := by
  unfold BridgeBookStore.merge at h ⊢
  cases hvalid : validateBridgeEntry m.1 with
  | none => rfl
  | some v =>
      rw [hvalid] at h
      dsimp only at h ⊢
      split
      · rfl
      · rename_i hnot
        rw [if_neg hnot] at h
        cases h

theorem next_kind : (kind validateBridgeEntry maxAge).next = mergeOne validateBridgeEntry maxAge := by
  funext book m
  unfold Kind.next kind mergeOne
  dsimp only
  cases hreport : (book.merge validateBridgeEntry maxAge m.1 m.2.1 m.2.2).1 with
  | true => rw [if_pos rfl, Option.getD_some]
  | false => rw [if_neg Bool.false_ne_true, Option.getD_none, merge_of_false hreport]

/-- Every event does to the book and its file what it does to the store. -/
theorem store_step (p : BookProcess τ ρ) (e : BookEvent τ α) :
    (p.step validateBridgeEntry maxAge e).store = (kind validateBridgeEntry maxAge).step p.store (event e) := by
  cases e with
  | restart =>
      unfold step event Kind.step store
      dsimp only
      rw [load_map]
      rfl
  | merge entry signerKey now write =>
      unfold step event
      dsimp only
      rw [BridgeBookStore.mergeAndSave_eq]
      dsimp only
      cases hreport : (p.book.merge validateBridgeEntry maxAge entry signerKey now).1 with
      | true =>
          rw [Kind.step_of_some (s := (p.book.merge validateBridgeEntry maxAge entry signerKey now).2)
            (if_pos hreport), if_pos rfl]
          unfold store
          dsimp only [List.foldl_cons, List.foldl_nil]
          cases write <;> rfl
      | false =>
          have hsame : (p.book.merge validateBridgeEntry maxAge entry signerKey now).2 = p.book :=
            merge_of_false (m := (entry, signerKey, now)) hreport
          have hnone : (kind validateBridgeEntry maxAge).apply p.store.memory (entry, signerKey, now) = none :=
            if_neg (by rw [show p.store.memory = p.book from rfl, hreport]; exact Bool.false_ne_true)
          rw [Kind.step_of_none hnone, if_neg Bool.false_ne_true, hsame]
          rfl

theorem store_run (es : List (BookEvent τ α)) :
    (run validateBridgeEntry maxAge es).store = (kind validateBridgeEntry maxAge).run (es.map event) := by
  unfold run Kind.run
  induction es using List.reverseRecOn with
  | nil => rfl
  | append_singleton es e ih =>
      rw [List.foldl_append, List.map_append, List.foldl_append, ← ih]
      exact store_step _ e

theorem book_run (es : List (BookEvent τ α)) :
    (run validateBridgeEntry maxAge es).book =
      ((kind validateBridgeEntry maxAge).run (es.map event)).memory := by
  rw [← store_run]
  rfl

/-- **The book across restarts.** From the first launch on, whatever is merged and however often the process
starts anew: where every write of the file is done the book is what the merges alone make of it. And where
some are not, what a merge has made of the book is not lost once it is written, as long as no later write
tears the file: a process that starts then has it, with some of the merges since on top. -/
theorem book_restarts (validateBridgeEntry : α → Option (BridgeEntry τ ρ)) (maxAge : τ)
    (es : List (BookEvent τ α)) :
    ((∀ e ∈ es, ∀ write, e.write = some write → write = .done) →
      (run validateBridgeEntry maxAge es).book =
        (BookEvent.merges es).foldl (mergeOne validateBridgeEntry maxAge) (BridgeBookStore.load none)) ∧
    ∀ entry signerKey now es',
      ((run validateBridgeEntry maxAge es).book.merge validateBridgeEntry maxAge entry signerKey now).1 = true →
      (∀ e ∈ es', e.write ≠ some .torn) →
      ∃ more : List (BookMerge τ α), more.Sublist (BookEvent.merges es') ∧
        (run validateBridgeEntry maxAge
          (es ++ .merge entry signerKey now .done :: es' ++ [.restart])).book =
          more.foldl (mergeOne validateBridgeEntry maxAge)
            ((run validateBridgeEntry maxAge es).book.merge validateBridgeEntry maxAge entry signerKey now).2 := by
  refine ⟨fun hdone => ?_, fun entry signerKey now es' htakes huntorn => ?_⟩
  · rw [book_run, Kind.memory_of_written, Kind.replay, next_kind, operations_map_event]
    · rfl
    · intro m write hmem
      obtain ⟨e, he, hwrite⟩ := write_of_mem_map_event hmem
      exact hdone e he write hwrite
  · have happly : (kind validateBridgeEntry maxAge).apply
        ((kind validateBridgeEntry maxAge).run (es.map event)).memory (entry, signerKey, now) =
        some ((run validateBridgeEntry maxAge es).book.merge validateBridgeEntry maxAge entry signerKey now).2 := by
      rw [← book_run]
      exact if_pos htakes
    have huntorn' : WriteThrough.Untorn (es'.map event) := fun m hmem => by
      obtain ⟨e, he, hwrite⟩ := write_of_mem_map_event hmem
      exact huntorn e he hwrite
    obtain ⟨more, hsub, hmemory⟩ := Kind.start_of_done (kind validateBridgeEntry maxAge) happly huntorn'
    rw [operations_map_event] at hsub
    refine ⟨more, hsub, ?_⟩
    rw [book_run, List.map_append, List.map_append, List.map_cons]
    rw [next_kind] at hmemory
    exact hmemory

end BookProcess

end AxonaBridge
