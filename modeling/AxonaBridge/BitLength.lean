import Mathlib.Data.Int.Bitwise
import Mathlib.Data.Nat.Size
import Mathlib.Tactic.Positivity

/-!
# The length of a number in bits

Lengths are compared through the bits that are set, and the low bits of an integer are those of the integer.
-/

namespace BitLength

variable {m n : Nat}

/-- The highest bit of a number. -/
theorem testBit_size_sub_one (h : n ≠ 0) : n.testBit (n.size - 1) = true := by
  have hpos : 0 < n.size := Nat.size_pos.mpr (Nat.pos_of_ne_zero h)
  apply Nat.testBit_of_two_pow_le_and_two_pow_add_one_gt
  · exact Nat.lt_size.mp (by omega)
  · exact Nat.size_le.mp (by omega)

theorem lt_size_of_testBit {k : Nat} (h : n.testBit k = true) : k < n.size :=
  Nat.lt_size.mpr (Nat.ge_two_pow_of_testBit h)

/-- A number is no longer than another exactly when none of its bits is above all of the other's. -/
theorem size_le_size_iff : m.size ≤ n.size ↔
    ∀ k, m.testBit k = true → ∃ j, k ≤ j ∧ n.testBit j = true := by
  constructor
  · intro hle k hk
    have hlt : k < n.size := (lt_size_of_testBit hk).trans_le hle
    have hne : n ≠ 0 := by
      rintro rfl
      exact Nat.not_lt_zero k hlt
    exact ⟨n.size - 1, by omega, testBit_size_sub_one hne⟩
  · intro h
    by_cases hzero : m = 0
    · rw [hzero, Nat.size_zero]
      exact Nat.zero_le _
    · obtain ⟨j, hle, hj⟩ := h _ (testBit_size_sub_one hzero)
      have hlt := lt_size_of_testBit hj
      omega

/-- A number of two parts is as long as its high part beyond the low one. -/
theorem size_two_pow_mul_add {w hi lo : Nat} (hlo : lo < 2 ^ w) (hhi : hi ≠ 0) :
    (2 ^ w * hi + lo).size = w + hi.size := by
  have hdiv : (2 ^ w * hi + lo) / 2 ^ w = hi := by
    rw [Nat.mul_add_div (Nat.two_pow_pos w), Nat.div_eq_of_lt hlo, Nat.add_zero]
  have hle : ∀ k, (2 ^ w * hi + lo).size ≤ w + k ↔ hi.size ≤ k := by
    intro k
    rw [Nat.size_le, Nat.size_le, Nat.pow_add, Nat.mul_comm (2 ^ w) (2 ^ k),
      ← Nat.div_lt_iff_lt_mul (Nat.two_pow_pos w), hdiv]
  have hlong : w < (2 ^ w * hi + lo).size := by
    rw [Nat.lt_size]
    exact (Nat.le_mul_of_pos_right _ (Nat.pos_of_ne_zero hhi)).trans (Nat.le_add_right _ _)
  have hup := (hle hi.size).mpr le_rfl
  have hdown := (hle ((2 ^ w * hi + lo).size - w)).mp (by omega)
  omega

/-- The low bits of an integer. -/
theorem testBit_emod_two_pow (x : Int) (w k : Nat) :
    (x % 2 ^ w).toNat.testBit k = (decide (k < w) && x.testBit k) := by
  cases x with
  | ofNat n =>
      have hmod : (Int.ofNat n % 2 ^ w).toNat = n % 2 ^ w := rfl
      rw [hmod, Nat.testBit_mod_two_pow]
      rfl
  | negSucc n =>
      have hpos : (0 : Int) < 2 ^ w := by positivity
      have hmod : (Int.negSucc n % 2 ^ w).toNat = 2 ^ w - (n % 2 ^ w + 1) := by
        rw [Int.negSucc_emod n hpos]
        have hcast : ((n : Int) % 2 ^ w) = ((n % 2 ^ w : Nat) : Int) := by push_cast; rfl
        have hlt := Nat.mod_lt n (Nat.two_pow_pos w)
        rw [hcast]
        have hpow : ((2 : Int) ^ w) = ((2 ^ w : Nat) : Int) := by push_cast; rfl
        rw [hpow]
        omega
      rw [hmod, Nat.testBit_two_pow_sub_succ (Nat.mod_lt n (Nat.two_pow_pos w)), Nat.testBit_mod_two_pow]
      by_cases hk : k < w
      · simp [hk, Int.testBit]
      · simp [hk]

end BitLength
