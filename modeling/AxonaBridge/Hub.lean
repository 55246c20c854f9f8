import AxonaBridge.Runs

/-!
# Hubs

A hub has everyone it admitted hear of the others. Who opens a connection to it is pending; it is admitted
as a member, which the others are told of, or as a guest, which they are not; and when it goes, everyone
admitted is told. What one connection hears of a run is its transcript.
-/

namespace Hub

variable {ι : Type}

/-- What a connection is to the hub. -/
inductive Rank where
  | pending
  | guest
  | member
  deriving DecidableEq

def Rank.admitted : Rank → Bool
  | .pending => false
  | _ => true

inductive Act (ι : Type) where
  | opens (x : ι)
  | admits (x : ι) (guest : Bool)
  | lists (x : ι)
  | leaves (x : ι)

/-- The connection an act is of. -/
def Act.subject : Act ι → ι
  | .opens x => x
  | .admits x _ => x
  | .lists x => x
  | .leaves x => x

/-- What a connection is told. -/
inductive News (ι : Type) where
  | gate
  | welcome
  | list
  | joined (x : ι)
  | left (x : ι)
  deriving DecidableEq

/-- The news is of the connection. -/
def News.about [DecidableEq ι] (x : ι) : News ι → Bool
  | .joined y => y = x
  | .left y => y = x
  | _ => false

/-- Who is connected, and everyone who ever was. -/
structure State (ι : Type) where
  rank : ι → Option Rank
  seen : List ι

def State.admitted (h : State ι) (y : ι) : Bool := (h.rank y).any Rank.admitted

/-- A connection has yet to open or to be admitted. -/
def State.fresh (h : State ι) (y : ι) : Prop := y ∉ h.seen ∨ h.rank y = some .pending

theorem admitted_of_fresh {h : State ι} {y : ι} (hnone : y ∉ h.seen → h.rank y = none) (hfresh : h.fresh y) :
    h.admitted y = false := by
  rw [State.admitted]
  rcases hfresh with hunseen | hpending
  · rw [hnone hunseen]
    rfl
  · rw [hpending]
    rfl

/-- What an act has announced, whoever is there to hear it. -/
def Act.announces : Act ι → List (News ι)
  | .admits x guest => if guest then [] else [.joined x]
  | .leaves x => [.left x]
  | _ => []

/-- Everything a run has announced. -/
def log (as : List (Act ι)) : List (News ι) := as.flatMap Act.announces

theorem log_snoc {as : List (Act ι)} {a : Act ι} : log (as ++ [a]) = log as ++ a.announces := by
  rw [log, List.flatMap_append, List.flatMap_singleton]
  rfl

namespace State

variable [DecidableEq ι]

def put (h : State ι) (x : ι) (r : Option Rank) : State ι :=
  { h with rank := fun y => if y = x then r else h.rank y }

def enabled (h : State ι) : Act ι → Prop
  | .opens x => x ∉ h.seen
  | .admits x _ => h.rank x = some .pending
  | .lists x => h.admitted x = true
  | .leaves x => (h.rank x).isSome = true

def step (h : State ι) : Act ι → State ι
  | .opens x => { h.put x (some .pending) with seen := x :: h.seen }
  | .admits x guest => h.put x (some (if guest then .guest else .member))
  | .lists _ => h
  | .leaves x => h.put x none

/-- What a connection hears of an act. -/
def tells (h : State ι) (y : ι) : Act ι → List (News ι)
  | .opens x => if y = x then [.gate] else []
  | .admits x guest =>
      if y = x then if guest then [.welcome] else [.welcome, .list]
      else if !guest && h.admitted y then [.joined x] else []
  | .lists x => if y = x then [.list] else []
  | .leaves x => if y ≠ x && h.admitted y then [.left x] else []

end State

variable [DecidableEq ι]

def system (ι : Type) [DecidableEq ι] : System (State ι) (Act ι) where
  init := { rank := fun _ => none, seen := [] }
  enabled := State.enabled
  step := State.step

/-- What a connection hears of a run. -/
def transcript (y : ι) : State ι → List (Act ι) → List (News ι)
  | _, [] => []
  | h, a :: as => h.tells y a ++ transcript y (h.step a) as

theorem transcript_append {y : ι} {h : State ι} {as bs : List (Act ι)} :
    transcript y h (as ++ bs) = transcript y h as ++ transcript y ((system ι).after h as) bs := by
  induction as generalizing h with
  | nil => rfl
  | cons a as ih =>
      rw [List.cons_append, transcript, transcript, ih, List.append_assoc]
      rfl

/-- The hub after a run. -/
def run (as : List (Act ι)) : State ι := (system ι).after (system ι).init as

/-- What a connection has heard of a run from the start. -/
def heard (y : ι) (as : List (Act ι)) : List (News ι) := transcript y (system ι).init as

theorem run_snoc {as : List (Act ι)} {a : Act ι} : run (as ++ [a]) = (run as).step a :=
  System.after_append

theorem heard_snoc {y : ι} {as : List (Act ι)} {a : Act ι} :
    heard y (as ++ [a]) = heard y as ++ (run as).tells y a := by
  rw [heard, transcript_append, transcript, transcript, List.append_nil]
  rfl

theorem seen_subset_step {h : State ι} {a : Act ι} : h.seen ⊆ (h.step a).seen := by
  cases a with
  | opens z => exact List.subset_cons_self z h.seen
  | _ => exact List.Subset.refl _

theorem rank_step_of_ne {h : State ι} {a : Act ι} {x : ι} (hne : a.subject ≠ x) :
    (h.step a).rank x = h.rank x := by
  cases a with
  | lists z => rfl
  | _ => exact if_neg hne.symm

/-! ### What the log has of one connection -/

theorem filter_announces_of_ne {a : Act ι} {x : ι} (hne : a.subject ≠ x) :
    a.announces.filter (News.about x) = [] := by
  cases a with
  | admits z guest =>
      cases guest with
      | true => rfl
      | false => exact List.filter_cons_of_neg fun habout => hne (of_decide_eq_true habout)
  | leaves z => exact List.filter_cons_of_neg fun habout => hne (of_decide_eq_true habout)
  | _ => rfl

theorem filter_announces_admits {x : ι} {guest : Bool} :
    ((Act.admits x guest).announces.filter (News.about x)).Sublist [.joined x] := by
  cases guest with
  | true => exact List.nil_sublist _
  | false => exact List.filter_sublist

/-- What the log has of a connection is what the connection did: it came, and it went. -/
structure Logged (h : State ι) (x : ι) (told : List (News ι)) : Prop where
  unseen : x ∉ h.seen → h.rank x = none ∧ told = []
  pending : h.rank x = some .pending → told = []
  present : (h.rank x).isSome = true → told.Sublist [.joined x]
  once : told.Sublist [.joined x, .left x]

theorem Logged.step {h : State ι} {x : ι} {a : Act ι} {told : List (News ι)} (hh : Logged h x told)
    (ha : h.enabled a) : Logged (h.step a) x (told ++ a.announces.filter (News.about x)) := by
  by_cases hne : a.subject ≠ x
  · rw [filter_announces_of_ne hne, List.append_nil]
    have hrank : (h.step a).rank x = h.rank x := rank_step_of_ne hne
    refine ⟨fun hunseen => ?_, fun hp => hh.pending (hrank ▸ hp), fun hp => hh.present (hrank ▸ hp),
      hh.once⟩
    rw [hrank]
    exact hh.unseen fun hmem => hunseen (seen_subset_step hmem)
  · obtain rfl := not_not.mp hne
    cases a with
    | opens z =>
        obtain ⟨-, rfl⟩ := hh.unseen ha
        exact ⟨fun hunseen => absurd List.mem_cons_self hunseen, fun _ => rfl, fun _ => List.nil_sublist _,
          List.nil_sublist _⟩
    | admits z guest =>
        obtain rfl := hh.pending ha
        have hsome : (h.step (.admits z guest)).rank z = some (if guest then .guest else .member) := if_pos rfl
        rw [List.nil_append]
        refine ⟨fun hunseen => ?_, fun hp => ?_, fun _ => filter_announces_admits, ?_⟩
        · cases (hh.unseen hunseen).1.symm.trans ha
        · rw [Act.subject, hsome] at hp
          cases guest <;> cases hp
        · exact filter_announces_admits.trans (List.sublist_append_left [News.joined z] [.left z])
    | lists z =>
        change Logged h z (told ++ [])
        rw [List.append_nil]
        exact hh
    | leaves z =>
        have hgone : (h.step (.leaves z)).rank z = none := if_pos rfl
        refine ⟨fun hunseen => ?_, fun hp => ?_, fun hp => ?_, (hh.present ha).append List.filter_sublist⟩
        · have hthere : (h.rank z).isSome = true := ha
          rw [show h.rank z = none from (hh.unseen hunseen).1] at hthere
          cases hthere
        · cases hgone.symm.trans hp
        · rw [Act.subject, hgone] at hp
          cases hp

theorem logged_run {as : List (Act ι)} (has : (system ι).Valid (system ι).init as) (x : ι) :
    Logged (run as) x ((log as).filter (News.about x)) := by
  refine System.Valid.history (P := fun as => Logged (run as) x ((log as).filter (News.about x))) ?_ ?_ has
  · exact ⟨fun _ => ⟨rfl, rfl⟩, fun h => (by cases h), fun _ => List.nil_sublist _, List.nil_sublist _⟩
  · intro as a _ ha hh
    rw [log_snoc, List.filter_append, run_snoc]
    exact hh.step ha

/-- Of a connection the log has at most that it joined and then that it left, each once. -/
theorem filter_log_sublist {as : List (Act ι)} (has : (system ι).Valid (system ι).init as) (x : ι) :
    ((log as).filter (News.about x)).Sublist [.joined x, .left x] :=
  (logged_run has x).once

/-! ### What one connection hears of the log -/

/-- The news is a notice of who comes and goes. -/
def News.notice : News ι → Bool
  | .joined _ => true
  | .left _ => true
  | _ => false

/-- Whoever is admitted hears everything announced but what is of itself, and nobody else hears a thing. -/
theorem filter_tells (h : State ι) (y : ι) (a : Act ι) : (h.tells y a).filter News.notice =
    if h.admitted y then a.announces.filter fun n => !n.about y else [] := by
  cases a with
  | opens x =>
      have hquiet : (h.tells y (.opens x)).filter News.notice = [] := by
        dsimp only [State.tells]
        split <;> rfl
      exact hquiet.trans (ite_self _).symm
  | admits x guest =>
      by_cases hid : y = x
      · have hquiet : (h.tells y (.admits x guest)).filter News.notice = [] := by
          rw [State.tells, if_pos hid]
          cases guest <;> rfl
        have hown : ((Act.admits x guest).announces.filter fun n => !n.about y) = [] := by
          rw [hid]
          cases guest <;> simp [Act.announces, News.about]
        rw [hquiet, hown, ite_self]
      · rw [State.tells, if_neg hid]
        cases guest <;> cases h.admitted y <;> simp [Act.announces, News.notice, News.about, Ne.symm hid]
  | lists x =>
      have hquiet : (h.tells y (.lists x)).filter News.notice = [] := by
        dsimp only [State.tells]
        split <;> rfl
      exact hquiet.trans (ite_self _).symm
  | leaves x =>
      by_cases hid : y = x
      · simp [State.tells, Act.announces, News.about, hid]
      · cases hadm : h.admitted y <;>
          simp [State.tells, Act.announces, News.notice, News.about, hadm, hid, Ne.symm hid]

section Fresh

variable {h : State ι} {y : ι} {a : Act ι}

theorem fresh_of_step (ha : h.enabled a) (hfresh : (h.step a).fresh y) : h.fresh y := by
  rcases hfresh with hunseen | hpending
  · exact Or.inl fun hmem => hunseen (seen_subset_step hmem)
  · by_cases hne : a.subject ≠ y
    · exact Or.inr ((rank_step_of_ne hne).symm.trans hpending)
    · obtain rfl := not_not.mp hne
      cases a with
      | opens z => exact Or.inl ha
      | admits z guest => exact Or.inr ha
      | lists z => exact Or.inr hpending
      | leaves z => cases (show (h.step (.leaves z)).rank z = none from if_pos rfl).symm.trans hpending

theorem eq_admits_of_step (hno : h.admitted y = false) (hadm : (h.step a).admitted y = true) :
    ∃ guest, a = .admits y guest := by
  by_cases hne : a.subject ≠ y
  · rw [State.admitted, rank_step_of_ne hne] at hadm
    cases hno.symm.trans hadm
  · obtain rfl := not_not.mp hne
    cases a with
    | opens z =>
        rw [Act.subject, State.admitted, show (h.step (.opens z)).rank z = some .pending from if_pos rfl] at hadm
        cases hadm
    | admits z guest => exact ⟨guest, rfl⟩
    | lists z => cases hno.symm.trans hadm
    | leaves z =>
        rw [Act.subject, State.admitted, show (h.step (.leaves z)).rank z = none from if_pos rfl] at hadm
        cases hadm

end Fresh

/-- What a connection has heard is one stretch of the log, which goes on while it is admitted. -/
structure Hearing (h : State ι) (y : ι) (told logged : List (News ι)) : Prop where
  stretch : ∃ front here back, logged = front ++ here ++ back ∧ (told = here.filter fun n => !n.about y) ∧
    (h.admitted y = true → back = [])
  silent : h.fresh y → told = []

theorem Hearing.step {h : State ι} {y : ι} {a : Act ι} {told logged : List (News ι)}
    (hh : Hearing h y told logged) (hnone : y ∉ h.seen → h.rank y = none) (ha : h.enabled a) :
    Hearing (h.step a) y (told ++ (h.tells y a).filter News.notice) (logged ++ a.announces) := by
  have hfresh : (h.step a).fresh y → h.fresh y := fresh_of_step ha
  rw [filter_tells]
  obtain ⟨front, here, back, hlogged, htold, hback⟩ := hh.stretch
  cases hadm : h.admitted y with
  | true =>
      refine ⟨⟨front, here ++ a.announces, [], ?_, ?_, fun _ => rfl⟩, fun hf => ?_⟩
      · rw [hlogged, hback hadm, List.append_nil, List.append_nil, List.append_assoc]
      · rw [if_pos rfl, htold, List.filter_append]
      · cases hadm.symm.trans (admitted_of_fresh hnone (hfresh hf))
  | false =>
      rw [if_neg Bool.false_ne_true, List.append_nil]
      refine ⟨?_, fun hf => hh.silent (hfresh hf)⟩
      by_cases hadm' : (h.step a).admitted y = true
      · obtain ⟨guest, rfl⟩ := eq_admits_of_step hadm hadm'
        refine ⟨logged ++ (Act.admits y guest).announces, [], [], ?_, hh.silent (Or.inr ha), fun _ => rfl⟩
        rw [List.append_nil, List.append_nil]
      · refine ⟨front, here, back ++ a.announces, ?_, htold, fun h' => absurd h' hadm'⟩
        rw [hlogged, List.append_assoc]

/-- What a connection hears is a stretch of the log, nothing left out of it but what is of itself. -/
theorem heard_stretch {as : List (Act ι)} (has : (system ι).Valid (system ι).init as) (y : ι) :
    ∃ front here back, log as = front ++ here ++ back ∧
      (heard y as).filter News.notice = here.filter fun n => !n.about y := by
  have hhearing : Hearing (run as) y ((heard y as).filter News.notice) (log as) := by
    refine System.Valid.history (P := fun as => Hearing (run as) y ((heard y as).filter News.notice) (log as))
      ?_ ?_ has
    · exact ⟨⟨[], [], [], rfl, rfl, fun _ => rfl⟩, fun _ => rfl⟩
    · intro as a has ha hh
      rw [heard_snoc, List.filter_append, log_snoc, run_snoc]
      exact hh.step (fun hunseen => ((logged_run has y).unseen hunseen).1) ha
  obtain ⟨front, here, back, hlogged, htold, -⟩ := hhearing.stretch
  exact ⟨front, here, back, hlogged, htold⟩

end Hub
