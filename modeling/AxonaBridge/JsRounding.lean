import Mathlib.Algebra.Order.Archimedean.Basic
import Mathlib.Algebra.Order.Field.Power
import Mathlib.Tactic.FieldSimp
import Mathlib.Tactic.Linarith
import AxonaBridge.JsNumber

/-!
# Rounding to doubles

The double nearest to a rational grows with it, and the integers up to `2 ^ 53` are doubles.
-/

namespace JsNum

/-! ### The nearest integer -/

theorem roundHalfEven_intCast (i : Int) : roundHalfEven i = i := by
  unfold roundHalfEven
  simp

theorem roundHalfEven_eq_or (q : ℚ) : roundHalfEven q = ⌊q⌋ ∨ roundHalfEven q = ⌊q⌋ + 1 := by
  unfold roundHalfEven
  dsimp only
  split
  · exact Or.inl rfl
  · split
    · exact Or.inr rfl
    · split
      · exact Or.inl rfl
      · exact Or.inr rfl

theorem roundHalfEven_mono {p q : ℚ} (h : p ≤ q) : roundHalfEven p ≤ roundHalfEven q := by
  rcases (Int.floor_mono h).lt_or_eq with hlt | heq
  · rcases roundHalfEven_eq_or p with hp | hp <;> rcases roundHalfEven_eq_or q with hq | hq <;> omega
  · have hsub : p - ⌊q⌋ ≤ q - ⌊q⌋ := sub_le_sub_right h _
    unfold roundHalfEven
    dsimp only
    rw [heq]
    split_ifs <;> first | omega | linarith

theorem roundHalfEven_nonneg {q : ℚ} (h : 0 ≤ q) : 0 ≤ roundHalfEven q := by
  have hzero := roundHalfEven_intCast 0
  rw [Int.cast_zero] at hzero
  rw [← hzero]
  exact roundHalfEven_mono h

/-! ### Binades -/

theorem two_zpow_pos (e : Int) : (0 : ℚ) < 2 ^ e := zpow_pos (by norm_num) e

theorem two_zpow_le {d e : Int} (h : d ≤ e) : (2 : ℚ) ^ d ≤ 2 ^ e := zpow_le_zpow_right₀ (by norm_num) h

theorem two_zpow_lt_iff {d e : Int} : (2 : ℚ) ^ d < 2 ^ e ↔ d < e := zpow_lt_zpow_iff_right₀ (by norm_num)

/-- A positive rational lies between the powers of the lengths of its numerator and its denominator. -/
theorem log2_bounds {q : ℚ} (hq : 0 < q) :
    (2 : ℚ) ^ ((Nat.log2 q.num.natAbs : Int) - Nat.log2 q.den - 1) < q ∧
      q < (2 : ℚ) ^ ((Nat.log2 q.num.natAbs : Int) - Nat.log2 q.den + 1) := by
  have hnum : q.num.natAbs ≠ 0 := Int.natAbs_ne_zero.mpr (Rat.num_pos.mpr hq).ne'
  have hden : (0 : ℚ) < q.den := Nat.cast_pos.mpr q.den_pos
  have hq' : q * q.den = q.num.natAbs := by
    rw [Rat.mul_den_eq_num, Nat.cast_natAbs, abs_of_pos (Rat.num_pos.mpr hq)]
  have hpow : ∀ n : Nat, (2 : ℚ) ^ (n : Int) = (2 ^ n : Nat) := by
    intro n
    rw [zpow_natCast, Nat.cast_pow, Nat.cast_two]
  constructor
  · rw [← mul_lt_mul_iff_left₀ hden]
    calc (2 : ℚ) ^ ((Nat.log2 q.num.natAbs : Int) - Nat.log2 q.den - 1) * q.den
        < 2 ^ ((Nat.log2 q.num.natAbs : Int) - Nat.log2 q.den - 1) * 2 ^ ((Nat.log2 q.den + 1 : Nat) : Int) := by
          apply mul_lt_mul_of_pos_left _ (two_zpow_pos _)
          rw [hpow]
          exact Nat.cast_lt.mpr Nat.lt_log2_self
      _ = 2 ^ (Nat.log2 q.num.natAbs : Int) := by
          rw [← zpow_add₀ two_ne_zero]
          congr 1
          push_cast
          ring
      _ ≤ q * q.den := by
          rw [hq', hpow]
          exact Nat.cast_le.mpr (Nat.log2_self_le hnum)
  · rw [← mul_lt_mul_iff_left₀ hden]
    calc q * q.den < (2 : ℚ) ^ ((Nat.log2 q.num.natAbs + 1 : Nat) : Int) := by
          rw [hq', hpow]
          exact Nat.cast_lt.mpr Nat.lt_log2_self
      _ = 2 ^ ((Nat.log2 q.num.natAbs : Int) - Nat.log2 q.den + 1) * 2 ^ (Nat.log2 q.den : Int) := by
          rw [← zpow_add₀ two_ne_zero]
          congr 1
          push_cast
          ring
      _ ≤ 2 ^ ((Nat.log2 q.num.natAbs : Int) - Nat.log2 q.den + 1) * q.den := by
          apply mul_le_mul_of_nonneg_left _ (two_zpow_pos _).le
          rw [hpow]
          exact Nat.cast_le.mpr (Nat.log2_self_le q.den_pos.ne')

/-- The binade of a positive rational. -/
theorem binade_spec {q : ℚ} (hq : 0 < q) : (2 : ℚ) ^ binade q ≤ q ∧ q < (2 : ℚ) ^ (binade q + 1) := by
  obtain ⟨hlow, hhigh⟩ := log2_bounds hq
  unfold binade
  dsimp only
  split
  · rename_i hle
    exact ⟨hle, hhigh⟩
  · rename_i hnot
    rw [sub_add_cancel]
    exact ⟨hlow.le, not_le.mp hnot⟩

theorem binade_mono {p q : ℚ} (hp : 0 < p) (h : p ≤ q) : binade p ≤ binade q := by
  have hlt : (2 : ℚ) ^ binade p < 2 ^ (binade q + 1) :=
    ((binade_spec hp).1.trans h).trans_lt (binade_spec (hp.trans_le h)).2
  have hexp := two_zpow_lt_iff.mp hlt
  omega

/-! ### The nearest double -/

/-- The exponent of the last place of a positive double. -/
def lastPlace (q : ℚ) : Int := max (binade q - 52) (-1074)

/-- The positive double nearest to a rational, of any size. -/
def nearest (q : ℚ) : ℚ := (roundHalfEven (q / (2 : ℚ) ^ lastPlace q) : ℚ) * (2 : ℚ) ^ lastPlace q

theorem toDouble_eq {q : ℚ} (hq : q ≠ 0) : toDouble q =
    if (2 : ℚ) ^ (1024 : Nat) ≤ nearest |q| then .inf (decide (q < 0))
    else .fin (if q < 0 then -nearest |q| else nearest |q|) := by
  unfold toDouble
  rw [if_neg hq]
  rfl

theorem nearest_nonneg {q : ℚ} (hq : 0 < q) : 0 ≤ nearest q := by
  have hdiv : 0 ≤ q / (2 : ℚ) ^ lastPlace q := (div_pos hq (two_zpow_pos _)).le
  exact mul_nonneg (Int.cast_nonneg (roundHalfEven_nonneg hdiv)) (two_zpow_pos _).le

/-- A double of the last place of a rational that is above it is above the double nearest to it. -/
theorem nearest_le {q : ℚ} {m : Int} (h : q ≤ m * (2 : ℚ) ^ lastPlace q) :
    nearest q ≤ m * (2 : ℚ) ^ lastPlace q := by
  apply mul_le_mul_of_nonneg_right _ (two_zpow_pos _).le
  have hround := roundHalfEven_mono ((div_le_iff₀ (two_zpow_pos _)).mpr h)
  rw [roundHalfEven_intCast] at hround
  exact Int.cast_le.mpr hround

theorem le_nearest {q : ℚ} {m : Int} (h : m * (2 : ℚ) ^ lastPlace q ≤ q) :
    m * (2 : ℚ) ^ lastPlace q ≤ nearest q := by
  apply mul_le_mul_of_nonneg_right _ (two_zpow_pos _).le
  have hround := roundHalfEven_mono ((le_div_iff₀ (two_zpow_pos _)).mpr h)
  rw [roundHalfEven_intCast] at hround
  exact Int.cast_le.mpr hround

/-- A double of the last place of a rational is its own nearest. -/
theorem nearest_of_eq {q : ℚ} {m : Int} (h : q = m * (2 : ℚ) ^ lastPlace q) : nearest q = q :=
  ((nearest_le h.le).trans_eq h.symm).antisymm (h.le.trans (le_nearest h.ge))

/-- A power of two is a multiple of a lower one. -/
theorem two_zpow_eq_mul {d e : Int} (h : d ≤ e) : (2 : ℚ) ^ e = ((2 ^ (e - d).toNat : Int) : ℚ) * 2 ^ d := by
  have hpow : ((2 ^ (e - d).toNat : Int) : ℚ) = (2 : ℚ) ^ (e - d) := by
    rw [Int.cast_pow, Int.cast_ofNat, ← zpow_natCast, Int.toNat_of_nonneg (by omega)]
  rw [hpow, ← zpow_add₀ two_ne_zero, sub_add_cancel]

theorem nearest_mono {p q : ℚ} (hp : 0 < p) (h : p ≤ q) : nearest p ≤ nearest q := by
  have hbinade := binade_mono hp h
  by_cases hplace : lastPlace p = lastPlace q
  · unfold nearest
    rw [hplace]
    apply mul_le_mul_of_nonneg_right _ (two_zpow_pos _).le
    exact Int.cast_le.mpr (roundHalfEven_mono (div_le_div_of_nonneg_right h (two_zpow_pos _).le))
  · -- the power of two at the foot of the binade of `q` is between them
    have hq : lastPlace q = binade q - 52 ∧ lastPlace p ≤ binade q ∧ binade p + 1 ≤ binade q := by
      unfold lastPlace at hplace ⊢
      omega
    obtain ⟨hlast, hle, hlt⟩ := hq
    calc nearest p ≤ 2 ^ binade q := by
          rw [two_zpow_eq_mul hle]
          apply nearest_le
          rw [← two_zpow_eq_mul hle]
          exact (binade_spec hp).2.le.trans (two_zpow_le hlt)
      _ ≤ nearest q := by
          have hfoot : lastPlace q ≤ binade q := by omega
          rw [two_zpow_eq_mul hfoot]
          apply le_nearest
          rw [← two_zpow_eq_mul hfoot]
          exact (binade_spec (hp.trans_le h)).1

theorem le_fin_iff {p q : ℚ} : (JsNum.fin p).le (.fin q) = true ↔ p ≤ q := decide_eq_true_iff

/-- The double nearest to a positive rational. -/
theorem toDouble_of_pos {q : ℚ} (hq : 0 < q) :
    toDouble q = if (2 : ℚ) ^ (1024 : Nat) ≤ nearest q then .inf false else .fin (nearest q) := by
  rw [toDouble_eq hq.ne', abs_of_pos hq, if_neg hq.not_gt, decide_eq_false hq.not_gt]

theorem toDouble_of_neg {q : ℚ} (hq : q < 0) :
    toDouble q = if (2 : ℚ) ^ (1024 : Nat) ≤ nearest (-q) then .inf true else .fin (-nearest (-q)) := by
  rw [toDouble_eq hq.ne, abs_of_neg hq, if_pos hq, decide_eq_true hq]

theorem toDouble_mono_of_pos {p q : ℚ} (hp : 0 < p) (h : p ≤ q) : (toDouble p).le (toDouble q) = true := by
  have hnearest := nearest_mono hp h
  rw [toDouble_of_pos hp, toDouble_of_pos (hp.trans_le h)]
  split
  · rename_i hhuge
    rw [if_pos (hhuge.trans hnearest)]
    rfl
  · split
    · rfl
    · exact le_fin_iff.mpr hnearest

theorem toDouble_mono_of_neg {p q : ℚ} (h : p ≤ q) (hq : q < 0) : (toDouble p).le (toDouble q) = true := by
  have hnearest := nearest_mono (neg_pos.mpr hq) (neg_le_neg h)
  rw [toDouble_of_neg hq, toDouble_of_neg (h.trans_lt hq)]
  split
  · split <;> rfl
  · rename_i hsmall
    rw [if_neg fun hhuge => hsmall (hhuge.trans hnearest)]
    exact le_fin_iff.mpr (neg_le_neg hnearest)

theorem toDouble_nonneg {q : ℚ} (hq : 0 ≤ q) : (JsNum.fin 0).le (toDouble q) = true := by
  rcases hq.eq_or_lt with rfl | hq
  · rfl
  · rw [toDouble_of_pos hq]
    split
    · rfl
    · exact le_fin_iff.mpr (nearest_nonneg hq)

theorem toDouble_nonpos {q : ℚ} (hq : q ≤ 0) : (toDouble q).le (.fin 0) = true := by
  rcases hq.eq_or_lt with rfl | hq
  · rfl
  · rw [toDouble_of_neg hq]
    split
    · rfl
    · exact le_fin_iff.mpr (neg_nonpos.mpr (nearest_nonneg (neg_pos.mpr hq)))

theorem le_of_le_of_le {x y z : JsNum} (hxy : x.le y = true) (hyz : y.le z = true) : x.le z = true := by
  cases x <;> cases y <;> cases z <;> simp_all [le]
  · exact hxy.trans hyz
  · rcases hxy with h | h
    · exact Or.inl h
    · exact Or.inr (hyz.resolve_left (by simp [h]))

/-- **Rounding is monotone.** -/
theorem toDouble_mono {p q : ℚ} (h : p ≤ q) : (toDouble p).le (toDouble q) = true := by
  rcases lt_or_ge 0 p with hp | hp
  · exact toDouble_mono_of_pos hp h
  · rcases lt_or_ge q 0 with hq | hq
    · exact toDouble_mono_of_neg h hq
    · exact le_of_le_of_le (toDouble_nonpos hp) (toDouble_nonneg hq)

/-- **The integers up to `2 ^ 53` are doubles.** -/
theorem toDouble_natCast {n : Nat} (hn : n ≤ 2 ^ 53) : toDouble n = .fin n := by
  rcases n.eq_zero_or_pos with rfl | hpos
  · rfl
  have hpos' : (0 : ℚ) < n := Nat.cast_pos.mpr hpos
  have hle : (n : ℚ) ≤ 2 ^ (53 : Int) := by exact_mod_cast hn
  have hbinade : binade n ≤ 53 := by
    have hlt : (2 : ℚ) ^ binade n < 2 ^ (54 : Int) :=
      ((binade_spec hpos').1.trans hle).trans_lt (two_zpow_lt_iff.mpr (by norm_num))
    have hexp := two_zpow_lt_iff.mp hlt
    omega
  have hnearest : nearest n = n := by
    rcases (show binade n ≤ 52 ∨ binade n = 53 by omega) with hlow | hhigh
    · have hplace : lastPlace n ≤ 0 := by
        unfold lastPlace
        omega
      apply nearest_of_eq (m := n * 2 ^ (0 - lastPlace n).toNat)
      rw [Int.cast_mul, mul_assoc, ← two_zpow_eq_mul hplace]
      simp
    · have hplace : lastPlace n = 1 := by
        unfold lastPlace
        omega
      have heq : (n : ℚ) = 2 ^ (53 : Int) := hle.antisymm (hhigh ▸ (binade_spec hpos').1)
      apply nearest_of_eq (m := 2 ^ 52)
      rw [hplace, heq]
      norm_num
  rw [toDouble_of_pos hpos', hnearest, if_neg]
  have hsmall : (2 : ℚ) ^ (53 : Int) < 2 ^ (1024 : Nat) := by
    rw [← zpow_natCast]
    exact two_zpow_lt_iff.mpr (by norm_num)
  exact (hle.trans_lt hsmall).not_ge

/-! ### Rounding down -/

/-- `Math.floor` -/
def floor : JsNum → JsNum
  | .fin q => .fin ⌊q⌋
  | x => x

theorem floor_mono {x y : JsNum} (h : x.le y = true) : x.floor.le y.floor = true := by
  cases x with
  | fin p =>
      cases y with
      | fin q => exact le_fin_iff.mpr (Int.cast_le.mpr (Int.floor_mono (le_fin_iff.mp h)))
      | inf negative => exact h
      | nan => exact h
  | inf negative => cases y <;> exact h
  | nan => exact h

theorem floor_ne_nan {x : JsNum} (h : x ≠ .nan) : x.floor ≠ .nan := by
  cases x with
  | fin q => exact JsNum.noConfusion
  | inf negative => exact JsNum.noConfusion
  | nan => exact absurd rfl h

theorem toDouble_ne_nan (q : ℚ) : toDouble q ≠ .nan := by
  unfold toDouble
  dsimp only
  split
  · exact JsNum.noConfusion
  · split <;> exact JsNum.noConfusion

theorem le_inf {x : JsNum} (h : x ≠ .nan) : x.le (.inf false) = true := by
  cases x with
  | fin q => rfl
  | inf negative => exact Bool.or_true negative
  | nan => exact absurd rfl h

theorem inf_le {x : JsNum} (h : x ≠ .nan) : (JsNum.inf true).le x = true := by
  cases x with
  | fin q => rfl
  | inf negative => rfl
  | nan => exact absurd rfl h

/-- Two numbers of which neither is above the other are equal. -/
theorem eq_of_le_of_le {x y : JsNum} (hxy : x.le y = true) (hyx : y.le x = true) : x = y := by
  cases x <;> cases y <;> simp_all [le]
  · exact hxy.antisymm hyx
  · rename_i a b
    cases a <;> cases b <;> simp_all

/-! ### Digits that read back -/

/-- What lies between a number that reads back as a double and the double reads back as well. -/
theorem toDouble_eq_of_between {p r q : ℚ} (hq : toDouble q = .fin q) (hp : toDouble p = .fin q)
    (h : p ≤ r ∧ r ≤ q ∨ q ≤ r ∧ r ≤ p) : toDouble r = .fin q := by
  rcases h with ⟨hpr, hrq⟩ | ⟨hqr, hrp⟩
  · exact eq_of_le_of_le (hq ▸ toDouble_mono hrq) (hp ▸ toDouble_mono hpr)
  · exact eq_of_le_of_le (hp ▸ toDouble_mono hrp) (hq ▸ toDouble_mono hqr)

/-- **No digits that read back are missed**: of all multiples of a power of ten one of the two around a double
reads back, if any does. -/
theorem isSome_readsBack_iff {q : ℚ} {n : Int} {k : Nat} (hq : toDouble q = .fin q) :
    (readsBack q n k).isSome = true ↔ ∃ s : Int, toDouble (s * (10 : ℚ) ^ (n - k)) = .fin q := by
  unfold readsBack
  have hu : (0 : ℚ) < 10 ^ (n - k) := zpow_pos (by norm_num) _
  generalize (10 : ℚ) ^ (n - k) = u at hu
  dsimp only
  rw [List.find?_isSome]
  constructor
  · rintro ⟨s, -, hs⟩
    exact ⟨s, of_decide_eq_true hs⟩
  · rintro ⟨m, hm⟩
    -- whichever of the two is nearer, they are the integers on either side of `q / u`
    have hmem : ∀ s : Int, s = ⌊q / u⌋ ∨ s = ⌊q / u⌋ + 1 →
        s ∈ [roundHalfEven (q / u), if roundHalfEven (q / u) ≤ q / u then roundHalfEven (q / u) + 1
          else roundHalfEven (q / u) - 1] := by
      intro s hs
      rcases roundHalfEven_eq_or (q / u) with hround | hround
      · rw [hround, if_pos (Int.floor_le _)]
        simpa using hs
      · have habove : ¬((⌊q / u⌋ + 1 : Int) : ℚ) ≤ q / u := by
          rw [Int.cast_add, Int.cast_one]
          exact not_le.mpr (Int.lt_floor_add_one _)
        rw [hround, if_neg habove, add_sub_cancel_right]
        simpa using hs.symm
    rcases le_or_gt (m : ℚ) (q / u) with hle | hgt
    · refine ⟨⌊q / u⌋, hmem _ (Or.inl rfl), decide_eq_true (toDouble_eq_of_between hq hm (Or.inl ⟨?_, ?_⟩))⟩
      · exact mul_le_mul_of_nonneg_right (Int.cast_le.mpr (Int.le_floor.mpr hle)) hu.le
      · exact (le_div_iff₀ hu).mp (Int.floor_le _)
    · refine ⟨⌊q / u⌋ + 1, hmem _ (Or.inr rfl), decide_eq_true (toDouble_eq_of_between hq hm (Or.inr ⟨?_, ?_⟩))⟩
      · rw [Int.cast_add, Int.cast_one]
        exact (div_le_iff₀ hu).mp (Int.lt_floor_add_one _).le
      · exact mul_le_mul_of_nonneg_right (Int.cast_le.mpr (Int.floor_lt.mpr hgt)) hu.le

/-- The doubles below a power of two are closer than those above it, and of its 16 digits it is not the
nearest that read back. -/
example : (fin ((2 : ℚ) ^ (-44 : Int))).toString = JsText.js "5.684341886080802e-14" := by decide +kernel

end JsNum
