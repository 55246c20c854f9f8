import AxonaBridge.AnchorSelect
import AxonaBridge.GraduationSelect
import AxonaBridge.NodeRename

/-!
# Selections under another numbering

Neither selection orders its candidates by their ids, and the anchors are chosen among the admitted
candidates only. So a selection from renumbered candidates is the renumbered selection, whatever the
candidates that are not admitted.
-/

open JsText

namespace AxonaBridge

variable {rid : ConnId} (f : Renumbering rid)

/-- A fold over renumbered elements, where every turn keeps to the numbering. -/
theorem foldl_rename {α β : Type} {step : β → α → β} {step' : β → α → β} {e : α → α}
    {g : β → β} (h : ∀ b a, step' (g b) (e a) = g (step b a)) (as : List α) (b : β) :
    (as.map e).foldl step' (g b) = g (as.foldl step b) := by
  rw [List.foldl_map]
  exact List.foldl_hom g h

namespace AnchorSelect

def Candidate.rename (c : Candidate) : Candidate := { c with id := f c.id }

def Scored.rename (c : Scored) : Scored := { c with id := f c.id }

def Options.rename (o : Options) : Options := { o with newId := f o.newId }

variable {f} {o : Options}

theorem mem_map_rename {chosen : List JsString} {id : JsString} :
    f id ∈ chosen.map f ↔ id ∈ chosen := List.mem_map_of_injective f.injective

variable {candidates candidates' : List Candidate}

theorem eligible_rename (h : admitted (o.rename f) candidates' =
    (admitted o candidates).map (Candidate.rename f)) :
    eligible (o.rename f) candidates' = (eligible o candidates).map (Candidate.rename f) := by
  unfold eligible
  rw [h, List.filter_map]
  rfl

theorem scored_rename (h : admitted (o.rename f) candidates' =
    (admitted o candidates).map (Candidate.rename f)) :
    scored (o.rename f) candidates' = (scored o candidates).map (Scored.rename f) := by
  have huses : maxUses (eligible (o.rename f) candidates') = maxUses (eligible o candidates) := by
    rw [eligible_rename h]
    unfold maxUses
    rw [List.foldl_map]
    rfl
  have hscores : (eligible (o.rename f) candidates').map
      (score (o.rename f) (maxUses (eligible (o.rename f) candidates'))) =
      ((eligible o candidates).map (score o (maxUses (eligible o candidates)))).map
        (Scored.rename f) := by
    rw [huses, eligible_rename h, List.map_map, List.map_map]
    rfl
  unfold scored
  dsimp only
  rw [hscores]
  exact (List.map_insertionSort (fun a b : Scored => b.s ≤ a.s) (fun a b : Scored => b.s ≤ a.s)
    (Scored.rename f) _ fun _ _ _ _ => Iff.rfl).symm

theorem sameRegion_rename (newRegion : JsString) (cs : List Scored) :
    sameRegion (o.rename f) newRegion (cs.map (Scored.rename f)) =
      (sameRegion o newRegion cs).map f := by
  have hstep : ∀ (chosen : List JsString) (c : Scored),
      (if max 1 (o.k / 2) ≤ (chosen.map f).length then chosen.map f
        else if c.region = some newRegion then chosen.map f ++ [f c.id] else chosen.map f) =
      (if max 1 (o.k / 2) ≤ chosen.length then chosen
        else if c.region = some newRegion then chosen ++ [c.id] else chosen).map f := by
    intro chosen c
    rw [List.length_map]
    split_ifs
    · rfl
    · rw [List.map_append, List.map_cons, List.map_nil]
    · rfl
  exact foldl_rename (g := List.map f) hstep cs []

theorem diverse_rename (cs : List Scored) (start : List JsString × List JsString) :
    diverse (o.rename f) (cs.map (Scored.rename f)) (start.1.map f, start.2) =
      ((diverse o cs start).1.map f, (diverse o cs start).2) := by
  unfold diverse
  refine foldl_rename (g := fun acc : List JsString × List JsString => (acc.1.map f, acc.2)) ?_ cs start
  intro acc c
  have hk : (o.rename f).k = o.k := rfl
  have hid : (c.rename f).id = f c.id := rfl
  have hregion : (c.rename f).region = c.region := rfl
  dsimp only
  rw [hk, hid, hregion, List.length_map]
  by_cases hfull : o.k ≤ acc.1.length
  · rw [if_pos hfull, if_pos hfull]
  · rw [if_neg hfull, if_neg hfull]
    cases c.region with
    | none => rfl
    | some region =>
        simp only [mem_map_rename]
        by_cases hnew : region ∉ acc.2 ∧ c.id ∉ acc.1
        · rw [if_pos hnew, if_pos hnew, List.map_append, List.map_cons, List.map_nil]
        · rw [if_neg hnew, if_neg hnew]

theorem fill_rename (cs : List Scored) (chosen : List JsString) :
    fill (o.rename f) (cs.map (Scored.rename f)) (chosen.map f) = (fill o cs chosen).map f := by
  have hstep : ∀ (chosen : List JsString) (c : Scored),
      (if o.k ≤ (chosen.map f).length then chosen.map f
        else if f c.id ∉ chosen.map f then chosen.map f ++ [f c.id] else chosen.map f) =
      (if o.k ≤ chosen.length then chosen
        else if c.id ∉ chosen then chosen ++ [c.id] else chosen).map f := by
    intro chosen c
    simp only [List.length_map, mem_map_rename]
    split_ifs
    · rfl
    · rfl
    · rw [List.map_append, List.map_cons, List.map_nil]
  exact foldl_rename (g := List.map f) hstep cs chosen

/-- Only the admitted candidates count. -/
theorem selectAnchors_rename (h : admitted (o.rename f) candidates' =
    (admitted o candidates).map (Candidate.rename f)) :
    (selectAnchors (o.rename f) candidates').anchors = (selectAnchors o candidates).anchors.map f ∧
      (selectAnchors (o.rename f) candidates').fellBack = (selectAnchors o candidates).fellBack := by
  have hlength : (eligible (o.rename f) candidates').length = (eligible o candidates).length := by
    rw [eligible_rename h, List.length_map]
  have hbound : ((scored o candidates).map (Scored.rename f)).filter (fun c => c.region.isSome) =
      ((scored o candidates).filter fun c => c.region.isSome).map (Scored.rename f) := by
    rw [List.filter_map]
    rfl
  unfold selectAnchors
  dsimp only
  rw [hlength, show (o.rename f).minPool = o.minPool from rfl,
    show (o.rename f).newRegion = o.newRegion from rfl]
  split
  · refine ⟨?_, rfl⟩
    dsimp only
    rw [h, List.map_map, List.map_map]
    rfl
  · refine ⟨?_, rfl⟩
    dsimp only
    rw [scored_rename h, hbound]
    have hdiverse : ∀ chosen regions : List JsString,
        (diverse (o.rename f) ((scored o candidates).map (Scored.rename f))
          (chosen.map f, regions)).1 = (diverse o (scored o candidates) (chosen, regions)).1.map f :=
      fun chosen regions => congrArg Prod.fst (diverse_rename (scored o candidates) (chosen, regions))
    cases regionOf o.newRegion with
    | none =>
        dsimp only
        rw [← fill_rename, ← fill_rename, ← hdiverse]
        rfl
    | some newR =>
        simp only [sameRegion_rename, List.map_eq_nil_iff]
        rw [hdiverse, fill_rename, fill_rename]

end AnchorSelect

theorem orderSameRegionFirst_rename {regionOfId regionOfId' : JsString → Option JsString}
    (h : ∀ id, regionOfId' (f id) = regionOfId id) (peers : List JsString)
    (newRegion : Option JsString) :
    orderSameRegionFirst (peers.map f) regionOfId' newRegion =
      (orderSameRegionFirst peers regionOfId newRegion).map f := by
  unfold orderSameRegionFirst
  split
  · rfl
  · rename_i newR _
    rw [List.map_append, List.filter_map, List.filter_map]
    congr 2
    · refine List.filter_congr fun p _ => ?_
      rw [Function.comp_apply, h]
    · refine List.filter_congr fun p _ => ?_
      rw [Function.comp_apply, h]

namespace GraduationSelect

def Candidate.rename (c : Candidate) : Candidate := { c with id := f c.id }

def Pick.rename (p : Pick) : Pick := { p with id := f p.id }

variable {f}

theorem regionCount_rename (candidates : List Candidate) (region : Option JsString) :
    regionCount (candidates.map (Candidate.rename f)) region = regionCount candidates region := by
  unfold regionCount
  rw [List.countP_map]
  rfl

theorem sorted_rename (o : Options) (candidates : List Candidate) :
    sorted o (candidates.map (Candidate.rename f)) = (sorted o candidates).map (Candidate.rename f) := by
  have heligible : eligible o (candidates.map (Candidate.rename f)) =
      (eligible o candidates).map (Candidate.rename f) := by
    unfold eligible
    rw [List.filter_map]
    rfl
  unfold sorted
  rw [heligible]
  refine (List.map_insertionSort (fun a b : Candidate => compare candidates a b ≤ 0)
    (fun a b : Candidate => compare (candidates.map (Candidate.rename f)) a b ≤ 0)
    (Candidate.rename f) _ fun a _ b _ => ?_).symm
  unfold compare
  rw [regionCount_rename, regionCount_rename]
  rfl

theorem selectGraduate_rename (o : Options) (candidates : List Candidate) :
    selectGraduate o (candidates.map (Candidate.rename f)) =
      (selectGraduate o candidates).map (Pick.rename f) := by
  unfold selectGraduate
  rw [sorted_rename, List.find?_map, Option.map_map, Option.map_map]
  simp only [Function.comp_def, regionCount_rename]
  rfl

end GraduationSelect

end AxonaBridge
