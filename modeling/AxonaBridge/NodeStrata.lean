import AxonaBridge.BitLength
import AxonaBridge.NodeModel

/-!
# Strata

The stratum of a synapse counts the leading zeros of the low 64 bits of its distance, whatever the bits above
them. It follows the distance as far as those bits tell.
-/

open JsText

namespace AxonaBridge

/-- What `clz64` counts, of an id of any width: the zeros above the highest of the low 64 bits that is set. -/
theorem clz64_eq (x : Int) : clz64 x = 64 - (x % 2 ^ 64).toNat.size := by
  unfold clz64
  by_cases hzero : x = 0
  · rw [if_pos hzero, hzero]
    rfl
  · rw [if_neg hzero]
    dsimp only
    have hsplit : (x % 2 ^ 64).toNat = 2 ^ 32 * (x / 2 ^ 32 % 2 ^ 32).toNat + (x % 2 ^ 32).toNat := by
      omega
    have hlo : (x % 2 ^ 32).toNat < 2 ^ 32 := by omega
    unfold clz32
    by_cases hhi : x / 2 ^ 32 % 2 ^ 32 = 0
    · have hsize : (x % 2 ^ 32).toNat.size ≤ 32 := Nat.size_le.mpr hlo
      rw [if_neg (not_not.mpr hhi), hsplit, hhi, Int.toNat_zero, Nat.mul_zero, Nat.zero_add]
      omega
    · rw [if_pos hhi, hsplit, BitLength.size_two_pow_mul_add hlo (by omega)]
      omega

namespace NodeConfig

variable (cfg : NodeConfig)

/-- The distance of a peer from the bridge. -/
def distance (peerId : NodeId) : Int := Int.xor cfg.id peerId

/-- The handler hands this synapse over to the kernel's admission. -/
def HandsOver (handle : Kernel → Node) (k : Kernel) (n : Node) (syn : Synapse) : Prop :=
  ∀ addByVitality, (handle { k with addByVitality }).synaptome = addByVitality n.synaptome syn

/-- A synapse that the bridge makes for a peer: in a handshake, or when it is told of the peer. -/
inductive Makes : Synapse → Prop
  | handshake {n : Node} {k : Kernel} {connId : ConnId} {peerNodeId : NodeId} {syn : Synapse}
      (h : HandsOver (fun k => (n.completeHandshake cfg k connId peerNodeId).1) k n syn) : Makes syn
  | triadic {n : Node} {k : Kernel} {body : Option JsVal} {syn : Synapse}
      (h : HandsOver (fun k => n.triadicIntroduce cfg k body) k n syn) : Makes syn
  | hopCache {n : Node} {k : Kernel} {body : Option JsVal} {syn : Synapse}
      (h : HandsOver (fun k => n.hopCache cfg k body) k n syn) : Makes syn

/-- Of the two peers the one that is closer has at least the other's stratum, when it is closer. -/
def StrataFollow (p q : NodeId) : Prop :=
  ∀ syn syn', cfg.Makes syn → cfg.Makes syn' → syn.peerId = p → syn'.peerId = q →
    cfg.distance p < cfg.distance q → syn'.stratum ≤ syn.stratum

/-- Among the low 64 bits there is none in which `p` differs from the bridge above all in which `q` does. -/
def LowBitsFollow (p q : NodeId) : Prop :=
  ∀ k < 64, cfg.id.testBit k ≠ p.testBit k → ∃ j, k ≤ j ∧ j < 64 ∧ cfg.id.testBit j ≠ q.testBit j

variable {cfg} {handle : Kernel → Node} {k : Kernel} {n : Node} {syn syn' : Synapse} {p q : NodeId}

theorem HandsOver.eq (h : HandsOver handle k n syn) (h' : HandsOver handle k n syn') : syn = syn' := by
  have hsame := (h fun _ syn => JsMap.empty.set 0 syn).symm.trans (h' fun _ syn => JsMap.empty.set 0 syn)
  have hget : (JsMap.empty.set 0 syn : JsMap NodeId Synapse).get 0 = (JsMap.empty.set 0 syn').get 0 :=
    congrArg (fun m => m.get 0) hsame
  rw [JsMap.get_set_self, JsMap.get_set_self] at hget
  exact Option.some.inj hget

/-- A handler that leaves the synaptome alone hands nothing over. -/
theorem not_handsOver (h : ∀ addByVitality, (handle { k with addByVitality }).synaptome = n.synaptome) :
    ¬HandsOver handle k n syn := by
  intro hands
  have hempty := (h fun _ _ => JsMap.empty).symm.trans (hands fun _ _ => JsMap.empty)
  have hset := (h fun _ syn => JsMap.empty.set 0 syn).symm.trans (hands fun _ syn => JsMap.empty.set 0 syn)
  have hget : (JsMap.empty : JsMap NodeId Synapse).get 0 = (JsMap.empty.set 0 syn).get 0 :=
    congrArg (fun m => m.get 0) (hempty.symm.trans hset)
  rw [JsMap.get_set_self] at hget
  cases hget

/-- A handshake with a peer the node does not know makes a synapse with the stratum of its distance. -/
theorem completeHandshake_handsOver {connId : ConnId} (hcomplete : n.helloByConnId.get connId ≠ some .complete)
    (hroute : ¬(cfg.sb.isSome ∧ k.routeOf p = some .mesh)) (hhas : n.synaptome.has p = false) :
    ∃ syn : Synapse, syn.peerId = p ∧ syn.stratum = clz64 (cfg.distance p) ∧
      HandsOver (fun k => (n.completeHandshake cfg k connId p).1) k n syn := by
  let syn : Synapse :=
    { peerId := p
      latencyMs := 50
      stratum := clz64 (cfg.distance p)
      weight := 1 / 2
      inertia := 0
      addedBy := js "handshake" }
  refine ⟨syn, rfl, rfl, fun addByVitality => ?_⟩
  unfold Node.completeHandshake
  simp only [if_neg hcomplete, if_neg hroute, hhas]
  rfl

theorem completeHandshake_cases (connId : ConnId) (p : NodeId) :
    (∀ addByVitality, (n.completeHandshake cfg { k with addByVitality } connId p).1.synaptome = n.synaptome) ∨
      ∃ syn : Synapse, syn.peerId = p ∧ syn.stratum = clz64 (cfg.distance p) ∧
        HandsOver (fun k => (n.completeHandshake cfg k connId p).1) k n syn := by
  by_cases hcomplete : n.helloByConnId.get connId = some .complete
  · refine Or.inl fun _ => ?_
    unfold Node.completeHandshake
    rw [if_pos hcomplete]
  · by_cases hroute : cfg.sb.isSome ∧ k.routeOf p = some .mesh
    · refine Or.inl fun _ => ?_
      unfold Node.completeHandshake
      simp only [if_neg hcomplete, if_pos hroute]
    · cases hhas : n.synaptome.has p with
      | true =>
          refine Or.inl fun _ => ?_
          unfold Node.completeHandshake
          simp only [if_neg hcomplete, if_neg hroute, hhas]
          rfl
      | false => exact Or.inr (completeHandshake_handsOver hcomplete hroute hhas)

theorem introduce_cases (name addedBy : JsString) (body : Option JsVal) :
    (∀ addByVitality, (n.introduce cfg { k with addByVitality } name addedBy body).synaptome = n.synaptome) ∨
      ∃ syn : Synapse, syn.stratum = clz64 (cfg.distance syn.peerId) ∧
        HandsOver (fun k => n.introduce cfg k name addedBy body) k n syn := by
  unfold HandsOver Node.introduce
  split
  · rename_i peerId _
    by_cases hknown : peerId = 0 ∨ n.synaptome.has peerId
    · refine Or.inl fun _ => ?_
      rw [if_pos hknown]
    · let syn : Synapse :=
        { peerId
          latencyMs := 0
          stratum := clz64 (cfg.distance peerId)
          weight := 1 / 2
          inertia := k.simEpoch
          addedBy }
      refine Or.inr ⟨syn, rfl, fun _ => ?_⟩
      simp only [if_neg hknown]
      rfl
  · exact Or.inl fun _ => rfl

/-- **The stratum of a synapse.** -/
theorem Makes.stratum_eq (h : cfg.Makes syn) : syn.stratum = clz64 (cfg.distance syn.peerId) := by
  cases h with
  | @handshake n k connId peerNodeId _ h =>
      rcases completeHandshake_cases connId peerNodeId with hsame | ⟨syn', hpeer, hstratum, h'⟩
      · exact absurd h (not_handsOver hsame)
      · rw [h.eq h', hstratum, hpeer]
  | triadic h =>
      rcases introduce_cases _ _ _ with hsame | ⟨syn', hstratum, h'⟩
      · exact absurd h (not_handsOver hsame)
      · rw [h.eq h', hstratum]
  | hopCache h =>
      rcases introduce_cases _ _ _ with hsame | ⟨syn', hstratum, h'⟩
      · exact absurd h (not_handsOver hsame)
      · rw [h.eq h', hstratum]

/-- The bridge makes a synapse of any peer that completes a handshake with it. -/
theorem exists_makes (cfg : NodeConfig) (p : NodeId) : ∃ syn, cfg.Makes syn ∧ syn.peerId = p := by
  have hroute : ¬(cfg.sb.isSome = true ∧ ({} : Kernel).routeOf p = some .mesh) := by
    rintro ⟨-, hmesh⟩
    cases hmesh
  obtain ⟨syn, hpeer, -, hands⟩ := @completeHandshake_handsOver cfg {} { transport := {} } p []
    (fun h => by cases h) hroute rfl
  exact ⟨syn, .handshake hands, hpeer⟩

/-! ### The low bits -/

theorem testBit_low_distance (j : Nat) : (cfg.distance p % 2 ^ 64).toNat.testBit j = true ↔
    j < 64 ∧ cfg.id.testBit j ≠ p.testBit j := by
  rw [BitLength.testBit_emod_two_pow, distance, Int.testBit_lxor, Bool.and_eq_true, decide_eq_true_iff,
    bne_iff_ne]

/-- A stratum is at least another exactly when the low bits of the distances say so. -/
theorem clz64_le_clz64_iff :
    clz64 (cfg.distance q) ≤ clz64 (cfg.distance p) ↔ cfg.LowBitsFollow p q := by
  have hlow : ∀ x : Int, (x % 2 ^ 64).toNat.size ≤ 64 := fun x => Nat.size_le.mpr (by omega)
  have hp := hlow (cfg.distance p)
  have hq := hlow (cfg.distance q)
  have hsize : clz64 (cfg.distance q) ≤ clz64 (cfg.distance p) ↔
      (cfg.distance p % 2 ^ 64).toNat.size ≤ (cfg.distance q % 2 ^ 64).toNat.size := by
    rw [clz64_eq, clz64_eq]
    omega
  rw [hsize, BitLength.size_le_size_iff]
  unfold LowBitsFollow
  constructor
  · intro h k hk hdiffer
    obtain ⟨j, hle, hj⟩ := h k (testBit_low_distance k |>.mpr ⟨hk, hdiffer⟩)
    obtain ⟨hlt, hdiffer'⟩ := (testBit_low_distance j).mp hj
    exact ⟨j, hle, hlt, hdiffer'⟩
  · intro h k hk
    obtain ⟨hlt, hdiffer⟩ := (testBit_low_distance k).mp hk
    obtain ⟨j, hle, hlt', hdiffer'⟩ := h k hlt hdiffer
    exact ⟨j, hle, (testBit_low_distance j).mpr ⟨hlt', hdiffer'⟩⟩

/-- **Strata and distance.** The stratum of the closer of two peers is at least the other's exactly when among
the low 64 bits there is none in which it differs from the bridge above all in which the other does. -/
theorem strataFollow_iff (cfg : NodeConfig) (p q : NodeId) :
    cfg.StrataFollow p q ↔ (cfg.distance p < cfg.distance q → cfg.LowBitsFollow p q) := by
  rw [← clz64_le_clz64_iff]
  constructor
  · intro h hcloser
    obtain ⟨syn, hmakes, hp⟩ := exists_makes cfg p
    obtain ⟨syn', hmakes', hq⟩ := exists_makes cfg q
    have hle := h syn syn' hmakes hmakes' hp hq hcloser
    rwa [hmakes.stratum_eq, hmakes'.stratum_eq, hp, hq] at hle
  · rintro h syn syn' hmakes hmakes' rfl rfl hcloser
    rw [hmakes.stratum_eq, hmakes'.stratum_eq]
    exact h hcloser

/-- A bridge whose id is 264 bits wide. -/
def wideNode : NodeConfig := { id := 137 * 2 ^ 256, epoch := js "0a1b2c3d" }

/-- Of two peers that differ from the bridge in bit 0 and in bit 1 the closer has the higher stratum. -/
theorem strataFollow_lowBits : wideNode.StrataFollow (wideNode.id + 1) (wideNode.id + 2) :=
  (strataFollow_iff _ _ _).mpr fun _ => clz64_le_clz64_iff.mp (by decide +kernel)

/-- Of two peers that differ from the bridge in bit 63 and in bit 64 the closer has the lower stratum. -/
theorem not_strataFollow_highBits : ¬wideNode.StrataFollow (wideNode.id + 2 ^ 63) (wideNode.id + 2 ^ 64) := by
  intro h
  have hfollow := (strataFollow_iff _ _ _).mp h (by decide +kernel)
  have hle := clz64_le_clz64_iff.mpr hfollow
  revert hle
  decide +kernel

end NodeConfig

end AxonaBridge
