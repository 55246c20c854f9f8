import AxonaBridge.BridgeAdmission

/-!
# Door keys among the other ids

A door key names one connection of one epoch, and nothing that is a connection id, a node id or a reserved
id reads as one.
-/

open JsText

namespace AxonaBridge

theorem ne_colon_of_isHexDigit {u : UInt16} (h : isHexDigit u = true) : u ≠ 58 := by
  rintro rfl
  revert h
  decide

theorem isHexDigit_digitUnit {d : Nat} (hd : d < 16) : isHexDigit (digitUnit d) = true := by
  interval_cases d <;> rfl

namespace SocketBootstrap

variable {epoch epoch' connId connId' key : JsString}

/-! ### Epochs -/

/-- An epoch that is minted is eight hexadecimal digits. -/
theorem mintDoorEpoch_digits {random : Nat → ℚ} (hrandom : ∀ i, 0 ≤ random i ∧ random i < 1) :
    (mintDoorEpoch random).length = 8 ∧ ∀ u ∈ mintDoorEpoch random, isHexDigit u = true := by
  have hdraw : ∀ i, ∃ d < 16, intToString 16 ⌊random i * 16⌋ = [digitUnit d] := by
    intro i
    obtain ⟨hnonneg, hlt⟩ := hrandom i
    have hlow : 0 ≤ ⌊random i * 16⌋ := Int.floor_nonneg.mpr (by linarith)
    have hhigh : ⌊random i * 16⌋ < 16 := Int.floor_lt.mpr (by push_cast; linarith)
    generalize ⌊random i * 16⌋ = d at hlow hhigh
    refine ⟨d.toNat, by omega, ?_⟩
    interval_cases d <;> rfl
  constructor
  · have hone : ∀ i ∈ List.range 8, (intToString 16 ⌊random i * 16⌋).length = 1 := by
      intro i _
      obtain ⟨d, -, hd⟩ := hdraw i
      rw [hd]
      rfl
    unfold mintDoorEpoch
    rw [List.length_flatMap, List.map_congr_left hone]
    rfl
  · intro u hu
    obtain ⟨i, -, hui⟩ := List.mem_flatMap.mp hu
    obtain ⟨d, hlt, hd⟩ := hdraw i
    rw [hd] at hui
    rw [List.mem_singleton.mp hui]
    exact isHexDigit_digitUnit hlt

/-! ### What reads as a door key -/

theorem parseDoorKey_eq_some_iff : parseDoorKey key = some (epoch, connId) ↔
    key = doorKey epoch connId ∧ epoch ≠ [] ∧ 58 ∉ epoch ∧ connId ≠ [] := by
  constructor
  · exact doorKey_of_parseDoorKey
  · rintro ⟨rfl, hepoch, hcolon, hconnId⟩
    exact parseDoorKey_doorKey hepoch hcolon hconnId

/-- What reads as a door key starts with a `d` and has a colon. -/
theorem parseDoorKey_eq_none (h : key.head? ≠ some 100 ∨ 58 ∉ key) : parseDoorKey key = none := by
  rw [Option.eq_none_iff_forall_not_mem]
  rintro ⟨epoch, connId⟩ hsome
  obtain ⟨rfl, -⟩ := doorKey_of_parseDoorKey hsome
  rcases h with hhead | hcolon
  · exact hhead rfl
  · refine hcolon ?_
    unfold doorKey
    simp

theorem doorKey_inj (hcolon : 58 ∉ epoch) (hcolon' : 58 ∉ epoch')
    (h : doorKey epoch connId = doorKey epoch' connId') : epoch = epoch' ∧ connId = connId' := by
  have htail : epoch ++ 58 :: connId = epoch' ++ 58 :: connId' := (List.cons.inj h).2
  have hcut : ∀ {epoch : JsString} (connId : JsString), 58 ∉ epoch →
      (epoch ++ 58 :: connId).takeWhile notColon = epoch := by
    intro epoch connId hcolon
    have hall : ∀ u ∈ epoch, notColon u = true := fun u hu => decide_eq_true fun heq => hcolon (heq ▸ hu)
    rw [List.takeWhile_append_of_pos hall]
    exact List.append_nil epoch
  have hepoch : epoch = epoch' := by rw [← hcut connId hcolon, htail, hcut connId' hcolon']
  rw [hepoch] at htail
  exact ⟨hepoch, (List.cons.inj (List.append_cancel_left htail)).2⟩

theorem isOwnDoorKey_iff (hepoch : epoch ≠ []) (hcolon : 58 ∉ epoch) :
    isOwnDoorKey key epoch = true ↔ ∃ connId, connId ≠ [] ∧ key = doorKey epoch connId := by
  unfold isOwnDoorKey
  rw [Option.any_eq_true]
  constructor
  · rintro ⟨⟨epoch', connId⟩, hsome, howns⟩
    cases of_decide_eq_true howns
    obtain ⟨hkey, -, -, hconnId⟩ := doorKey_of_parseDoorKey hsome
    exact ⟨connId, hconnId, hkey⟩
  · rintro ⟨connId, hconnId, rfl⟩
    exact ⟨(epoch, connId), parseDoorKey_doorKey hepoch hcolon hconnId, decide_eq_true rfl⟩

/-! ### What does not -/

theorem parseDoorKey_of_isHex66 (h : isHex66 (toLowerCase key) = true) : parseDoorKey key = none := by
  refine parseDoorKey_eq_none (Or.inr fun hmem => ?_)
  have hall : (toLowerCase key).all isHexDigit = true := (Bool.and_eq_true_iff.mp h).2
  have hcolon : (58 : UInt16) ∈ toLowerCase key := List.mem_map.mpr ⟨58, hmem, rfl⟩
  exact ne_colon_of_isHexDigit (List.all_eq_true.mp hall 58 hcolon) rfl

theorem parseDoorKey_mintConnId (seq : Nat) : parseDoorKey (mintConnId seq) = none :=
  parseDoorKey_eq_none (Or.inl (by simp [mintConnId]))

theorem parseDoorKey_reservedId (epoch : JsString) : parseDoorKey (reservedId epoch) = none :=
  parseDoorKey_eq_none (Or.inl (by simp [reservedId, js, utf16]))

/-- **Door keys.** They parse to their parts and back, no two have other parts or are another's own, and no
connection id, node id or reserved id parses as one; nor is a connection id a reserved one. -/
theorem doorKeys_apart :
    (∀ epoch connId, epoch ≠ [] → 58 ∉ epoch → connId ≠ [] →
      parseDoorKey (doorKey epoch connId) = some (epoch, connId)) ∧
    (∀ key epoch connId, parseDoorKey key = some (epoch, connId) → doorKey epoch connId = key) ∧
    (∀ epoch connId epoch' connId', 58 ∉ epoch → 58 ∉ epoch' →
      doorKey epoch connId = doorKey epoch' connId' → epoch = epoch' ∧ connId = connId') ∧
    (∀ key epoch, epoch ≠ [] → 58 ∉ epoch →
      (isOwnDoorKey key epoch = true ↔ ∃ connId, connId ≠ [] ∧ key = doorKey epoch connId)) ∧
    (∀ seq, parseDoorKey (mintConnId seq) = none) ∧
    (∀ key, isHex66 (toLowerCase key) = true → parseDoorKey key = none) ∧
    (∀ epoch, parseDoorKey (reservedId epoch) = none) ∧
    ∀ seq epoch, mintConnId seq ≠ reservedId epoch := by
  refine ⟨fun _ _ => parseDoorKey_doorKey, fun key epoch connId h => ?_, fun _ _ _ _ => doorKey_inj,
    fun _ _ => isOwnDoorKey_iff, parseDoorKey_mintConnId, fun _ => parseDoorKey_of_isHex66,
    parseDoorKey_reservedId, mintConnId_ne_reservedId⟩
  exact (doorKey_of_parseDoorKey h).1.symm

/-- The key of a connection id that has a colon itself. -/
theorem doorKeys_apart_colon :
    parseDoorKey (doorKey (js "0a1b2c3d") (js "c1:c2")) = some (js "0a1b2c3d", js "c1:c2") :=
  doorKeys_apart.1 _ _ (by decide) (by decide) (by decide)

end SocketBootstrap

end AxonaBridge
