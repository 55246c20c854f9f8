import AxonaBridge.KeepLeast
import AxonaBridge.NodeModel

/-!
# The closest peers

The handler of `find_closest_set` keeps at most `K` peers of the synaptome in the order of their distance to
the target, in one pass.
-/

namespace AxonaBridge

namespace Node

variable (target : NodeId) (K : Int)

/-- `top.splice(i, 0, { peerId, d })` before the first that is not closer. -/
def splice (top : List (NodeId × Int)) (peerId : NodeId) (d : Int) : List (NodeId × Int) :=
  top.takeWhile (fun t => t.2 < d) ++ (peerId, d) :: top.dropWhile fun t => t.2 < d

/-- One synapse of the pass. With a `K` below 1 there is no `top[K - 1]` to read a distance of. -/
def closestStep (top : List (NodeId × Int)) (peerId : NodeId) : Except JsError (List (NodeId × Int)) :=
  let d := Int.xor peerId target
  if top.length < K then .ok (splice top peerId d)
  else
    match if 1 ≤ K then top[(K - 1).toNat]? else none with
    | none => .error .nullProperty
    | some last => .ok (if d < last.2 then (splice top peerId d).dropLast else top)

/-- The handler of `find_closest_set`, with the `target` and the `K` of the payload. -/
def findClosestSet (n : Node) (payloadK : Option Int) : Except JsError (List NodeId) := do
  let K := payloadK.getD 20
  let top ← n.synaptome.entries.foldlM (fun top e => closestStep target K top e.2.peerId) []
  return top.map Prod.fst

/-- The peers of the synaptome. -/
def peerIds (n : Node) : List NodeId := n.synaptome.entries.map fun e => e.2.peerId

/-- The distance of a peer to the target. -/
def distanceTo (peerId : NodeId) : Int := Int.xor peerId target

variable {target K} {n : Node} {top : List (NodeId × Int)} {peerId : NodeId}

theorem splice_eq (top : List (NodeId × Int)) (peerId : NodeId) (d : Int) :
    splice top peerId d = top.orderedInsert (KeepLeast.Before Prod.snd) (peerId, d) := by
  rw [List.orderedInsert_eq_take_drop]
  unfold splice KeepLeast.Before
  simp only [not_le]

theorem distanceTo_injective {p q : NodeId} (h : distanceTo target p = distanceTo target q) : p = q := by
  unfold distanceTo at h
  cases p <;> cases q <;> cases target <;> simp_all [Int.xor, Nat.xor_left_inj]

/-- A synapse is kept as one of the least. -/
theorem closestStep_eq (hK : 1 ≤ K) (hle : top.length ≤ K.toNat) (peerId : NodeId) :
    closestStep target K top peerId =
      .ok (KeepLeast.keep Prod.snd K.toNat top (peerId, distanceTo target peerId)) := by
  unfold closestStep KeepLeast.keep
  dsimp only
  by_cases hroom : (top.length : Int) < K
  · have hroom' : top.length < K.toNat := by omega
    rw [if_pos hroom, if_pos hroom', splice_eq]
    rfl
  · have hfull : ¬top.length < K.toNat := by omega
    have hlast : K.toNat - 1 < top.length := by omega
    have hindex : (K - 1).toNat = K.toNat - 1 := by omega
    rw [if_neg hroom, if_pos hK, if_neg hfull, hindex, List.getElem?_eq_getElem hlast, splice_eq]
    rfl

/-- The pass keeps the least of the peers it sees. -/
theorem foldlM_closestStep (hK : 1 ≤ K) (hle : top.length ≤ K.toNat) (peers : List NodeId) :
    peers.foldlM (closestStep target K) top =
      .ok ((peers.map fun p => (p, distanceTo target p)).foldl (KeepLeast.keep Prod.snd K.toNat) top) := by
  induction peers generalizing top with
  | nil => rfl
  | cons p peers ih =>
      have hpos : 0 < K.toNat := by omega
      rw [List.foldlM_cons, closestStep_eq hK hle]
      exact ih (KeepLeast.length_keep_le hpos hle _)

/-- The handler answers with the first of the peers in the order of their distance. -/
theorem findClosestSet_eq {payloadK : Option Int} (hK : 1 ≤ payloadK.getD 20) (hdistinct : n.peerIds.Nodup) :
    n.findClosestSet target payloadK = .ok ((n.peerIds.insertionSort (KeepLeast.Before (distanceTo target))).take
      (payloadK.getD 20).toNat) := by
  have hpos : 0 < (payloadK.getD 20).toNat := by omega
  have hkeys : ((n.peerIds.map fun p => (p, distanceTo target p)).map Prod.snd).Nodup := by
    rw [List.map_map]
    exact hdistinct.map fun _ _ => distanceTo_injective
  have hsorted : (n.peerIds.insertionSort (KeepLeast.Before (distanceTo target))).map
      (fun p => (p, distanceTo target p)) = (n.peerIds.map fun p => (p, distanceTo target p)).insertionSort
        (KeepLeast.Before Prod.snd) :=
    List.map_insertionSort _ _ _ _ fun _ _ _ _ => Iff.rfl
  have hpass : n.peerIds.foldlM (closestStep target (payloadK.getD 20)) [] = _ :=
    foldlM_closestStep hK (Nat.zero_le _) n.peerIds
  rw [KeepLeast.foldl_keep hpos hkeys, ← hsorted, peerIds, List.foldlM_map] at hpass
  have hids : ∀ (m : Nat) (ids : List NodeId),
      ((ids.map fun p => (p, distanceTo target p)).take m).map Prod.fst = ids.take m := by
    intro m ids
    rw [← List.map_take, List.map_map]
    exact List.map_id _
  unfold findClosestSet
  dsimp only
  rw [hpass]
  exact congrArg Except.ok (hids _ _)

/-- **The closest peers.** The answer has the least of `K` and the size of the synaptome many peers, each once
and in strictly increasing distance, which are closer than all others: the first `K` in that order. -/
theorem findClosestSet_nearest (n : Node) (target : NodeId) {payloadK : Option Int}
    (hK : 1 ≤ payloadK.getD 20) (hdistinct : n.peerIds.Nodup) :
    ∃ ids, n.findClosestSet target payloadK = .ok ids ∧
      ids = (n.peerIds.insertionSort (KeepLeast.Before (distanceTo target))).take (payloadK.getD 20).toNat ∧
      ids.length = min (payloadK.getD 20).toNat n.peerIds.length ∧ ids.Nodup ∧
      ids.Pairwise (fun p q => distanceTo target p < distanceTo target q) ∧
      (∀ p ∈ ids, p ∈ n.peerIds) ∧
      ∀ p ∈ n.peerIds, p ∉ ids → ∀ q ∈ ids, distanceTo target q < distanceTo target p := by
  have hperm := n.peerIds.perm_insertionSort (KeepLeast.Before (distanceTo target))
  have hsorted := KeepLeast.sorted_lt (n.peerIds.pairwise_insertionSort (KeepLeast.Before (distanceTo target)))
    ((hperm.nodup_iff.mpr hdistinct).map fun _ _ => distanceTo_injective)
  refine ⟨_, findClosestSet_eq hK hdistinct, rfl, ?_, ?_, ?_, fun p hp => ?_, fun p hp hleft q hq => ?_⟩
  · rw [List.length_take, List.length_insertionSort]
  · exact (hperm.nodup_iff.mpr hdistinct).sublist (List.take_sublist _ _)
  · exact hsorted.sublist (List.take_sublist _ _)
  · exact hperm.mem_iff.mp (List.mem_of_mem_take hp)
  · have hall := hperm.mem_iff.mpr hp
    rw [← List.take_append_drop (payloadK.getD 20).toNat (n.peerIds.insertionSort _)] at hsorted hall
    exact (List.pairwise_append.mp hsorted).2.2 q hq p ((List.mem_append.mp hall).resolve_left hleft)

/-- A synapse of a peer. -/
def synapseOf (peerId : NodeId) : Synapse :=
  { peerId, latencyMs := 0, stratum := 0, weight := 1 / 2, inertia := 0, addedBy := [] }

def threePeers : Node where
  transport := {}
  synaptome := [12, 5, 9].foldl (fun m p => m.set p (synapseOf p)) JsMap.empty

/-- Of three peers the two that are closest to 4. -/
theorem findClosestSet_nearest_threePeers :
    ∃ ids, threePeers.findClosestSet 4 (some 2) = .ok ids ∧ ids = [5, 12] := by
  obtain ⟨ids, hanswer, hids, -⟩ := @findClosestSet_nearest threePeers 4 (some 2) (by decide) (by decide +kernel)
  exact ⟨ids, hanswer, hids.trans (by decide +kernel)⟩

end Node

end AxonaBridge
