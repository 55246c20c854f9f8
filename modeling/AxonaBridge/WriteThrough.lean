import Mathlib.Data.List.Induction
import Mathlib.Tactic.Common

/-!
# A store written through to a file

A store works on a state in memory and writes the whole of it to a file after every operation that
changes it. A write may fail, which leaves the file as it was, or tear it, which leaves a file that
cannot be read. A start reads the file, and begins with the empty state where it cannot. What the store
holds is told by two lists of operations: those that the file keeps, and those that a start forgets.
-/

/-- What becomes of a file that is written to. -/
inductive FileWrite where
  | done
  | failed
  | torn
  deriving DecidableEq

/-- What the file reads as after a write of `s`. -/
def FileWrite.put {σ : Type} (write : FileWrite) (file : Option σ) (s : σ) : Option σ :=
  match write with
  | done => some s
  | failed => file
  | torn => none

namespace WriteThrough

/-- A kind of store: how it begins, and what an operation that changes it makes of it. -/
structure Kind (σ ω : Type) where
  empty : σ
  apply : σ → ω → Option σ

inductive Event (ω : Type) where
  | operate (op : ω) (write : FileWrite)
  | start

structure Store (σ : Type) where
  memory : σ
  /-- What the file reads as. -/
  file : Option σ

/-- The operations the file keeps, and those since. -/
structure Journal (ω : Type) where
  kept : List ω := []
  since : List ω := []

namespace Journal

variable {ω : Type}

def all (j : Journal ω) : List ω := j.kept ++ j.since

/-- An operation that changed the store is written down. -/
def add (j : Journal ω) (op : ω) : FileWrite → Journal ω
  | .done => { kept := j.all ++ [op] }
  | .failed => { kept := j.kept, since := j.since ++ [op] }
  | .torn => { since := j.all ++ [op] }

theorem all_add (j : Journal ω) (op : ω) (write : FileWrite) : (j.add op write).all = j.all ++ [op] := by
  cases write with
  | done => exact List.append_nil _
  | failed => exact (List.append_assoc _ _ _).symm
  | torn => rfl

end Journal

/-- The operations among the events. -/
def operations {ω : Type} : List (Event ω) → List ω :=
  List.filterMap fun
    | .operate op _ => some op
    | .start => none

/-- No write among the events tears the file. -/
def Untorn {ω : Type} (es : List (Event ω)) : Prop := ∀ op, .operate op .torn ∉ es

/-- Every write among the events is done. -/
def Written {ω : Type} (es : List (Event ω)) : Prop := ∀ op write, .operate op write ∈ es → write = .done

namespace Kind

variable {σ ω : Type} (K : Kind σ ω)

def next (s : σ) (op : ω) : σ := (K.apply s op).getD s

/-- The state that operations alone lead to. -/
def replay (ops : List ω) : σ := ops.foldl K.next K.empty

def step (t : Store σ) : Event ω → Store σ
  | .operate op write =>
      match K.apply t.memory op with
      | none => t
      | some s => { memory := s, file := write.put t.file s }
  | .start => { t with memory := t.file.getD K.empty }

/-- A first start, with no file. -/
def init : Store σ where
  memory := K.empty
  file := none

def run (es : List (Event ω)) : Store σ := es.foldl K.step K.init

def note (j : Journal ω) : Event ω → Journal ω
  | .operate op write => if (K.apply (K.replay j.all) op).isSome then j.add op write else j
  | .start => { kept := j.kept }

def journal (es : List (Event ω)) : Journal ω := es.foldl K.note {}

variable {K} {es es' : List (Event ω)} {e : Event ω} {op : ω} {write : FileWrite} {j : Journal ω} {t : Store σ}

theorem next_of_none {s : σ} (h : K.apply s op = none) : K.next s op = s := by
  unfold next
  rw [h, Option.getD_none]

theorem next_of_some {s s' : σ} (h : K.apply s op = some s') : K.next s op = s' := by
  unfold next
  rw [h, Option.getD_some]

theorem replay_concat (ops : List ω) (op : ω) : K.replay (ops ++ [op]) = K.next (K.replay ops) op :=
  List.foldl_append

theorem replay_append (ops ops' : List ω) : K.replay (ops ++ ops') = ops'.foldl K.next (K.replay ops) :=
  List.foldl_append

theorem run_concat : K.run (es ++ [e]) = K.step (K.run es) e := List.foldl_append

theorem journal_concat : K.journal (es ++ [e]) = K.note (K.journal es) e := List.foldl_append

theorem operations_append : operations (es ++ es') = operations es ++ operations es' := List.filterMap_append

theorem step_of_none (h : K.apply t.memory op = none) : K.step t (.operate op write) = t := by
  unfold step
  dsimp only
  rw [h]

theorem step_of_some {s : σ} (h : K.apply t.memory op = some s) :
    K.step t (.operate op write) = { memory := s, file := write.put t.file s } := by
  unfold step
  dsimp only
  rw [h]

theorem note_of_none (h : K.apply (K.replay j.all) op = none) : K.note j (.operate op write) = j :=
  if_neg (by rw [h]; exact Bool.false_ne_true)

theorem note_of_some {s : σ} (h : K.apply (K.replay j.all) op = some s) :
    K.note j (.operate op write) = j.add op write :=
  if_pos (by rw [h]; rfl)

/-! ### The journal tells of the store -/

/-- The journal tells what is in memory, and what the next start will find. -/
structure Tells (K : Kind σ ω) (j : Journal ω) (t : Store σ) : Prop where
  memory : t.memory = K.replay j.all
  file : t.file.getD K.empty = K.replay j.kept

theorem Tells.step (h : Tells K j t) (e : Event ω) : Tells K (K.note j e) (K.step t e) := by
  cases e with
  | start =>
      refine ⟨h.file.trans ?_, h.file⟩
      change K.replay j.kept = K.replay (j.kept ++ [])
      rw [List.append_nil]
  | operate op write =>
      cases happly : K.apply t.memory op with
      | none =>
          rw [step_of_none happly, note_of_none (h.memory ▸ happly)]
          exact h
      | some s =>
          have hall : s = K.replay (j.add op write).all := by
            rw [Journal.all_add, replay_concat, ← h.memory, next_of_some happly]
          rw [step_of_some happly, note_of_some (h.memory ▸ happly)]
          refine ⟨hall, ?_⟩
          -- what the file reads as is settled by the write alone
          cases write with
          | done =>
              have hkept : (j.add op .done).all = (j.add op .done).kept := List.append_nil _
              rw [hkept] at hall
              exact hall
          | failed => exact h.file
          | torn => rfl

theorem tells_run (K : Kind σ ω) (es : List (Event ω)) : Tells K (K.journal es) (K.run es) := by
  induction es using List.reverseRecOn with
  | nil => exact ⟨rfl, rfl⟩
  | append_singleton es e ih =>
      rw [journal_concat, run_concat]
      exact ih.step e

/-! ### What a file keeps -/

/-- As long as no write tears the file, what it keeps stays, and what comes to it was done since. -/
theorem exists_kept_append (K : Kind σ ω) (es es' : List (Event ω)) (huntorn : Untorn es') :
    ∃ more, (K.journal (es ++ es')).kept = (K.journal es).kept ++ more ∧
      more.Sublist ((K.journal es).since ++ operations es') := by
  suffices h : ∃ more since, (K.journal (es ++ es')).kept = (K.journal es).kept ++ more ∧
      (K.journal (es ++ es')).since = since ∧
      (more ++ since).Sublist ((K.journal es).since ++ operations es') by
    obtain ⟨more, since, hkept, -, hsub⟩ := h
    exact ⟨more, hkept, (List.sublist_append_left _ _).trans hsub⟩
  induction es' using List.reverseRecOn with
  | nil =>
      refine ⟨[], (K.journal es).since, ?_, ?_, ?_⟩
      · rw [List.append_nil, List.append_nil]
      · rw [List.append_nil]
      · exact List.sublist_append_left _ _
  | append_singleton es' e ih =>
      obtain ⟨more, since, hkept, hsince, hsub⟩ := ih fun op hmem =>
        huntorn op (List.mem_append_left _ hmem)
      rw [← List.append_assoc, journal_concat, operations_append, ← List.append_assoc]
      cases e with
      | start =>
          refine ⟨more, [], hkept, rfl, ?_⟩
          rw [List.append_nil]
          exact ((List.sublist_append_left _ _).trans hsub).trans (List.sublist_append_left _ _)
      | operate op write =>
          cases happly : K.apply (K.replay (K.journal (es ++ es')).all) op with
          | none =>
              rw [note_of_none happly]
              exact ⟨more, since, hkept, hsince, hsub.trans (List.sublist_append_left _ _)⟩
          | some s =>
              rw [note_of_some happly]
              have hgrown : (more ++ since ++ [op]).Sublist
                  ((K.journal es).since ++ operations es' ++ operations [.operate op write]) :=
                hsub.append (List.Sublist.refl _)
              cases write with
              | done =>
                  refine ⟨more ++ since ++ [op], [], ?_, rfl, ?_⟩
                  · change (K.journal (es ++ es')).all ++ [op] = _
                    rw [Journal.all, hkept, hsince, List.append_assoc, List.append_assoc, List.append_assoc]
                  · rw [List.append_nil]
                    exact hgrown
              | failed =>
                  refine ⟨more, since ++ [op], hkept, ?_, ?_⟩
                  · change (K.journal (es ++ es')).since ++ [op] = _
                    rw [hsince]
                  · rw [← List.append_assoc]
                    exact hgrown
              | torn => exact absurd (List.mem_append_right _ List.mem_cons_self) (huntorn op)

/-- **Nothing that was written is lost.** After a change whose write is done, and with no write torn
since, a start finds what the store was then, and on top of it some of what was done since. -/
theorem start_of_done (K : Kind σ ω) {s : σ} (happly : K.apply (K.run es).memory op = some s)
    (huntorn : Untorn es') : ∃ more : List ω, more.Sublist (operations es') ∧
      (K.run (es ++ .operate op .done :: es' ++ [.start])).memory = more.foldl K.next s := by
  obtain ⟨more, hkept, hsub⟩ := exists_kept_append K (es ++ [.operate op .done]) es' huntorn
  have htells := tells_run K es
  have hnote : K.journal (es ++ [.operate op .done]) = (K.journal es).add op .done := by
    rw [journal_concat]
    refine if_pos ?_
    rw [← htells.memory, happly]
    rfl
  rw [hnote] at hkept hsub
  refine ⟨more, hsub, ?_⟩
  rw [run_concat, List.append_cons]
  refine (tells_run K (es ++ [.operate op .done] ++ es')).file.trans ?_
  have hs : K.replay ((K.journal es).add op .done).kept = s := by
    change K.replay ((K.journal es).all ++ [op]) = s
    rw [replay_concat, ← htells.memory, next_of_some happly]
  rw [hkept, replay_append, hs]

/-- **Starts do not show.** Where every write is done, the store is what its operations alone lead to,
however often it was started in between. -/
theorem memory_of_written (K : Kind σ ω) (hwritten : Written es) :
    (K.run es).memory = K.replay (operations es) := by
  suffices h : (K.run es).memory = K.replay (operations es) ∧
      (K.run es).file.getD K.empty = K.replay (operations es) from h.1
  induction es using List.reverseRecOn with
  | nil => exact ⟨rfl, rfl⟩
  | append_singleton es e ih =>
      obtain ⟨hmemory, hfile⟩ := ih fun op write hmem => hwritten op write (List.mem_append_left _ hmem)
      rw [run_concat, operations_append]
      cases e with
      | start =>
          rw [show operations [Event.start] = ([] : List ω) from rfl, List.append_nil]
          exact ⟨hfile, hfile⟩
      | operate op write =>
          obtain rfl := hwritten op write (List.mem_append_right _ List.mem_cons_self)
          rw [show operations [Event.operate op FileWrite.done] = [op] from rfl, replay_concat, ← hmemory]
          cases happly : K.apply (K.run es).memory op with
          | none =>
              rw [step_of_none happly, next_of_none happly]
              exact ⟨rfl, hfile.trans hmemory.symm⟩
          | some s =>
              rw [step_of_some happly, next_of_some happly]
              exact ⟨rfl, rfl⟩

end Kind

end WriteThrough
