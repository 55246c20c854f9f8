import AxonaBridge.JsRounding
import AxonaBridge.ServerModel

/-!
# Settings that refuse

The resolvers that answer a bad value of the environment with a refusal: `strictPosInt` of
`socket_bootstrap.js` and `graduated_registry.js`, `strictCap` of `fill_arming.js`, and the two resolvers
over the first. A number is read by `parseInt`, which rounds, and kept where it is a safe integer, so what
is kept is the very number that was written.
-/

open JsText

namespace JsNum

/-- `Number.isSafeInteger` -/
def isSafeInteger : JsNum → Bool
  | .fin q => q.den = 1 ∧ |q| ≤ 2 ^ 53 - 1
  | _ => false

end JsNum

namespace JsText

/-- `/^[0-9]+$/` -/
def isDigits (s : JsString) : Bool := s ≠ [] && s.all isDigit

/-- The number a string of digits writes. -/
def digitsValue (s : JsString) : Nat := s.foldl (fun n u => 10 * n + (u.toNat - 48)) 0

theorem toNat_of_isDigit {u : UInt16} (h : isDigit u = true) : 48 ≤ u.toNat ∧ u.toNat ≤ 57 := by
  unfold isDigit at h
  rw [Bool.and_eq_true, decide_eq_true_eq, decide_eq_true_eq] at h
  exact h

theorem isSpace_of_isDigit {u : UInt16} (h : isDigit u = true) : isSpace u = false := by
  obtain ⟨hlow, hhigh⟩ := toNat_of_isDigit h
  have hne : ∀ v : UInt16, v.toNat < 48 ∨ 57 < v.toNat → (u == v) = false := by
    intro v hv
    refine beq_eq_false_iff_ne.mpr fun heq => ?_
    rw [heq] at hlow hhigh
    omega
  have hrange : ∀ v w : UInt16, w.toNat < 48 ∨ 57 < v.toNat → (decide (v ≤ u) && decide (u ≤ w)) = false := by
    intro v w hvw
    rw [Bool.and_eq_false_iff, decide_eq_false_iff_not, decide_eq_false_iff_not, UInt16.le_iff_toNat_le,
      UInt16.le_iff_toNat_le]
    omega
  unfold isSpace
  rw [hrange 9 13 (by decide), hrange 0x2000 0x200A (by decide), hne 0x20 (by decide), hne 0xA0 (by decide),
    hne 0x1680 (by decide), hne 0x2028 (by decide), hne 0x2029 (by decide), hne 0x202F (by decide),
    hne 0x205F (by decide), hne 0x3000 (by decide), hne 0xFEFF (by decide)]
  rfl

/-- `parseInt` reads a string of digits whole, and rounds. -/
theorem parseInt_of_isDigits {s : JsString} (h : isDigits s = true) :
    parseInt s = JsNum.toDouble (digitsValue s) := by
  unfold isDigits at h
  rw [Bool.and_eq_true, decide_eq_true_eq] at h
  obtain ⟨hne, hall⟩ := h
  have htake : s.takeWhile isDigit = s := List.takeWhile_eq_self_iff.mpr fun u hu => List.all_eq_true.mp hall u hu
  cases s with
  | nil => exact absurd rfl hne
  | cons u s =>
      have hu : isDigit u = true := List.all_eq_true.mp hall u List.mem_cons_self
      obtain ⟨hlow, -⟩ := toNat_of_isDigit hu
      have hdrop : (u :: s).dropWhile isSpace = u :: s :=
        List.dropWhile_cons_of_neg (by rw [isSpace_of_isDigit hu]; exact Bool.false_ne_true)
      have hminus : u ≠ 45 := fun heq => by rw [heq] at hlow; exact absurd hlow (by decide)
      have hplus : u ≠ 43 := fun heq => by rw [heq] at hlow; exact absurd hlow (by decide)
      unfold parseInt
      rw [hdrop]
      dsimp only
      split
      · rename_i hcons
        exact absurd (List.cons.inj hcons).1 hminus
      · rename_i hcons
        exact absurd (List.cons.inj hcons).1 hplus
      · dsimp only
        rw [htake, if_neg (List.cons_ne_nil _ _), if_neg Bool.false_ne_true]
        rfl

/-- A positive safe integer written in digits. -/
def strictNumber (raw : JsString) : Option Nat :=
  if isDigits raw then
    match parseInt raw with
    | .fin q => if (JsNum.fin q).isSafeInteger ∧ 0 < q then some q.num.toNat else none
    | _ => none
  else none

/-- The string writes this number in digits, and it is a positive safe integer. -/
structure Writes (raw : JsString) (n : Nat) : Prop where
  digits : isDigits raw = true
  value : digitsValue raw = n
  positive : 0 < n
  safe : n < 2 ^ 53

/-- Beyond the safe integers `parseInt` rounds to what is not safe. -/
theorem not_isSafeInteger_of_le {n : Nat} (h : 2 ^ 53 ≤ n) : (JsNum.toDouble n).isSafeInteger = false := by
  have hmono := @JsNum.toDouble_mono (2 ^ 53 : Nat) n (Nat.cast_le.mpr h)
  rw [JsNum.toDouble_natCast le_rfl] at hmono
  cases hdouble : JsNum.toDouble n with
  | fin q =>
      rw [hdouble, JsNum.le_fin_iff] at hmono
      refine decide_eq_false fun hsafe => ?_
      have habs : q ≤ 2 ^ 53 - 1 := (le_abs_self q).trans hsafe.2
      push_cast at hmono
      linarith
  | inf negative => rfl
  | nan => rfl

theorem strictNumber_eq_some_iff {raw : JsString} {n : Nat} : strictNumber raw = some n ↔ Writes raw n := by
  unfold strictNumber
  by_cases hdigits : isDigits raw = true
  · rw [if_pos hdigits, parseInt_of_isDigits hdigits]
    by_cases hsafe : digitsValue raw < 2 ^ 53
    · rw [JsNum.toDouble_natCast hsafe.le]
      have hinteger : (JsNum.fin (digitsValue raw : ℚ)).isSafeInteger = true := by
        refine decide_eq_true ⟨rfl, ?_⟩
        rw [abs_of_nonneg (Nat.cast_nonneg _)]
        have hle : ((digitsValue raw + 1 : Nat) : ℚ) ≤ (2 ^ 53 : Nat) := Nat.cast_le.mpr hsafe
        push_cast at hle
        linarith
      by_cases hpos : 0 < digitsValue raw
      · dsimp only
        rw [if_pos ⟨hinteger, Nat.cast_pos.mpr hpos⟩, Option.some.injEq]
        have hnat : ((digitsValue raw : ℚ).num).toNat = digitsValue raw := rfl
        rw [hnat]
        exact ⟨fun h => ⟨hdigits, h, h ▸ hpos, h ▸ hsafe⟩, fun h => h.value⟩
      · dsimp only
        rw [if_neg fun h => hpos (Nat.cast_pos.mp h.2)]
        exact ⟨fun h => (by cases h), fun h => absurd (h.value ▸ h.positive) hpos⟩
    · -- what was rounded is not kept
      have hrounded := not_isSafeInteger_of_le (not_lt.mp hsafe)
      refine iff_of_false (fun h => ?_) fun h => hsafe (h.value ▸ h.safe)
      split at h
      · rename_i q hdouble
        rw [hdouble] at hrounded
        rw [if_neg fun hboth => Bool.false_ne_true (hrounded.symm.trans hboth.1)] at h
        cases h
      · cases h
  · rw [if_neg hdigits]
    exact ⟨fun h => (by cases h), fun h => absurd h.digits hdigits⟩

theorem strictNumber_eq_none_iff {raw : JsString} : strictNumber raw = none ↔ ∀ n, ¬Writes raw n := by
  rw [Option.eq_none_iff_forall_not_mem]
  exact forall_congr' fun n => not_congr strictNumber_eq_some_iff

end JsText

namespace AxonaBridge

/-- `ON_VALUES.has(raw.trim().toLowerCase())` of a variable that is present. -/
def isOn (raw : Option JsString) : Bool :=
  raw.any fun raw => toLowerCase (trim raw) ∈ [js "1", js "on", js "true", js "yes"]

def refusedNumber (name raw : JsString) : JsString :=
  name ++ js ": must be a positive integer, got " ++ quote raw

def strictPosInt (raw : Option JsString) (name : JsString) : Except JsString (Option Nat) :=
  match raw with
  | none => .ok none
  | some raw =>
      match strictNumber raw with
      | some n => .ok (some n)
      | none => .error (refusedNumber name raw)

/-- `strictPosInt(raw, name) ?? dflt` -/
def setting (raw : Option JsString) (name : JsString) (dflt : Nat) : Except JsString Nat :=
  (strictPosInt raw name).map fun n => n.getD dflt

/-- The number of a variable is the one it writes, or the default where it is absent. -/
def Chosen (raw : Option JsString) (dflt n : Nat) : Prop :=
  match raw with
  | none => n = dflt
  | some raw => Writes raw n

/-- The refusal is of this variable, which is present and writes no positive safe integer. -/
def Blames (name : JsString) (raw : Option JsString) (msg : JsString) : Prop :=
  ∃ text, raw = some text ∧ (∀ n, ¬Writes text n) ∧ msg = refusedNumber name text

section Setting

variable {raw : Option JsString} {name msg : JsString} {dflt n : Nat}

theorem setting_eq_ok_iff : setting raw name dflt = .ok n ↔ Chosen raw dflt n := by
  cases raw with
  | none => exact ⟨fun h => (Except.ok.inj h).symm, fun h => congrArg Except.ok h.symm⟩
  | some text =>
      have hwrites := @strictNumber_eq_some_iff text n
      unfold setting strictPosInt Chosen
      dsimp only
      rw [← hwrites]
      cases strictNumber text with
      | none => exact ⟨fun h => (by cases h), fun h => by cases h⟩
      | some m => exact ⟨fun h => congrArg some (Except.ok.inj h), fun h => congrArg Except.ok (Option.some.inj h)⟩

theorem setting_eq_error_iff : setting raw name dflt = .error msg ↔ Blames name raw msg := by
  cases raw with
  | none => exact ⟨fun h => (by cases h), fun ⟨text, h, _⟩ => by cases h⟩
  | some text =>
      have hnone := @strictNumber_eq_none_iff text
      unfold setting strictPosInt Blames
      dsimp only
      cases hnumber : strictNumber text with
      | none =>
          refine ⟨fun h => ⟨text, rfl, hnone.mp hnumber, (Except.error.inj h).symm⟩, ?_⟩
          rintro ⟨text', heq, -, rfl⟩
          rw [← Option.some.inj heq]
          rfl
      | some m =>
          refine ⟨fun h => (by cases h), ?_⟩
          rintro ⟨text', heq, hnot, -⟩
          rw [← Option.some.inj heq] at hnot
          exact absurd (strictNumber_eq_some_iff.mp hnumber) (hnot m)

/-- A default that is one stays positive and safe. -/
theorem Chosen.bounds (h : Chosen raw dflt n) (hpos : 0 < dflt) (hsafe : dflt < 2 ^ 53) :
    0 < n ∧ n < 2 ^ 53 := by
  cases raw with
  | none =>
      obtain rfl : n = dflt := h
      exact ⟨hpos, hsafe⟩
  | some text =>
      have hwrites : Writes text n := h
      exact ⟨hwrites.positive, hwrites.safe⟩

theorem Chosen.unique {m : Nat} (hm : Chosen raw dflt m) (hn : Chosen raw dflt n) : m = n := by
  cases raw with
  | none =>
      have hm : m = dflt := hm
      have hn : n = dflt := hn
      rw [hm, hn]
  | some text =>
      have hm : Writes text m := hm
      have hn : Writes text n := hn
      rw [← hm.value, hn.value]

end Setting

/-- A chain of steps ends well exactly when both its parts do. -/
theorem bind_eq_ok_iff {ε α β : Type} {x : Except ε α} {f : α → Except ε β} {b : β} :
    (x >>= f) = .ok b ↔ ∃ a, x = .ok a ∧ f a = .ok b := by
  cases x with
  | error err => exact ⟨fun h => (by cases h), fun ⟨_, h, _⟩ => by cases h⟩
  | ok a => exact ⟨fun h => ⟨a, rfl, h⟩, fun ⟨_, h, hf⟩ => by cases h; exact hf⟩

theorem bind_eq_error_iff {ε α β : Type} {x : Except ε α} {f : α → Except ε β} {err : ε} :
    (x >>= f) = .error err ↔ x = .error err ∨ ∃ a, x = .ok a ∧ f a = .error err := by
  cases x with
  | error err' =>
      refine ⟨fun h => Or.inl (congrArg Except.error (Except.error.inj h)), ?_⟩
      rintro (h | ⟨_, h, -⟩)
      · exact congrArg Except.error (Except.error.inj h)
      · cases h
  | ok a =>
      refine ⟨fun h => Or.inr ⟨a, rfl, h⟩, ?_⟩
      rintro (h | ⟨_, h, hf⟩)
      · cases h
      · cases h
        exact hf

/-! ### Socket-is-bootstrap -/

namespace SocketBootstrap

/-- The variables `resolveSocketBootstrap` reads. -/
structure Env where
  /-- `BRIDGE_SOCKET_IS_BOOTSTRAP` -/
  on : Option JsString := none
  /-- `BRIDGE_PROVISIONAL_MAX` -/
  provisional : Option JsString := none
  /-- `BRIDGE_BIND_DEADLINE_MS` -/
  bindDeadline : Option JsString := none
  /-- `BRIDGE_MAKE_ROOM_PER_MIN` -/
  makeRoomRate : Option JsString := none
  /-- `BRIDGE_SOCKET_BOOTSTRAP_MIN_KERNEL` -/
  minKernel : Option JsString := none
  /-- `BRIDGE_SOCKET_BOOTSTRAP_COOLDOWN_MS` -/
  cooldownMs : Option JsString := none

/-- What the resolver answers with the flag on. -/
structure Resolved where
  provisionalMax : Nat
  bindDeadlineMs : Nat
  makeRoomPerMin : Nat
  cooldownMs : Nat
  minKernel : JsString

/-- What the door reads of it. -/
def Resolved.config (c : Resolved) : Config where
  makeRoomPerMin := c.makeRoomPerMin
  minKernel := c.minKernel
  cooldownMs := c.cooldownMs

/-- `/^\d+\.\d+\.\d+$/` -/
def isSemver (s : JsString) : Bool := (split s 46).length = 3 && (split s 46).all isDigits

def refusedKernel (raw : JsString) : JsString :=
  js "BRIDGE_SOCKET_BOOTSTRAP_MIN_KERNEL: must be a semver x.y.z, got " ++ quote raw

def resolveSocketBootstrap (env : Env) : Except JsString (Option Resolved) :=
  if isOn env.on then do
    let minKernel := env.minKernel.getD (js "4.107.0")
    if isSemver minKernel then
      let provisionalMax ← setting env.provisional (js "BRIDGE_PROVISIONAL_MAX") 20
      let bindDeadlineMs ← setting env.bindDeadline (js "BRIDGE_BIND_DEADLINE_MS") 15000
      let makeRoomPerMin ← setting env.makeRoomRate (js "BRIDGE_MAKE_ROOM_PER_MIN") 4
      let cooldownMs ← setting env.cooldownMs (js "BRIDGE_SOCKET_BOOTSTRAP_COOLDOWN_MS") 60000
      return some { provisionalMax, bindDeadlineMs, makeRoomPerMin, cooldownMs, minKernel }
    else throw (refusedKernel minKernel)
  else return none

/-- Every setting is the one that was written, or its default. -/
structure ResolvedFrom (env : Env) (c : Resolved) : Prop where
  on : isOn env.on = true
  minKernel : c.minKernel = env.minKernel.getD (js "4.107.0")
  semver : isSemver c.minKernel = true
  provisionalMax : Chosen env.provisional 20 c.provisionalMax
  bindDeadlineMs : Chosen env.bindDeadline 15000 c.bindDeadlineMs
  makeRoomPerMin : Chosen env.makeRoomRate 4 c.makeRoomPerMin
  cooldownMs : Chosen env.cooldownMs 60000 c.cooldownMs

/-- A refusal names a variable that is present and says no more than it may. -/
def Refuses (env : Env) (msg : JsString) : Prop :=
  (∃ raw, env.minKernel = some raw ∧ isSemver raw = false ∧ msg = refusedKernel raw) ∨
    Blames (js "BRIDGE_PROVISIONAL_MAX") env.provisional msg ∨
    Blames (js "BRIDGE_BIND_DEADLINE_MS") env.bindDeadline msg ∨
    Blames (js "BRIDGE_MAKE_ROOM_PER_MIN") env.makeRoomRate msg ∨
    Blames (js "BRIDGE_SOCKET_BOOTSTRAP_COOLDOWN_MS") env.cooldownMs msg

section Resolver

variable {env : Env}

theorem resolveSocketBootstrap_eq_some_iff {c : Resolved} :
    resolveSocketBootstrap env = .ok (some c) ↔ ResolvedFrom env c := by
  unfold resolveSocketBootstrap
  by_cases hon : isOn env.on = true
  · rw [if_pos hon]
    dsimp only
    by_cases hsemver : isSemver (env.minKernel.getD (js "4.107.0")) = true
    · rw [if_pos hsemver]
      simp only [bind_eq_ok_iff, setting_eq_ok_iff]
      constructor
      · rintro ⟨provisionalMax, hp, bindDeadlineMs, hb, makeRoomPerMin, hm, cooldownMs, hc, hsome⟩
        cases hsome
        exact ⟨hon, rfl, hsemver, hp, hb, hm, hc⟩
      · intro h
        refine ⟨_, h.provisionalMax, _, h.bindDeadlineMs, _, h.makeRoomPerMin, _, h.cooldownMs, ?_⟩
        rw [← h.minKernel]
        rfl
    · rw [if_neg hsemver]
      exact ⟨fun h => (by cases h), fun h => absurd (h.minKernel ▸ h.semver) hsemver⟩
  · rw [if_neg hon]
    exact ⟨fun h => (by cases h), fun h => absurd h.on hon⟩

theorem resolveSocketBootstrap_eq_none_iff :
    resolveSocketBootstrap env = .ok none ↔ isOn env.on = false := by
  unfold resolveSocketBootstrap
  by_cases hon : isOn env.on = true
  · rw [if_pos hon, hon]
    dsimp only
    refine iff_of_false (fun h => ?_) (by decide)
    split at h
    · simp only [bind_eq_ok_iff] at h
      obtain ⟨_, -, _, -, _, -, _, -, hnone⟩ := h
      cases hnone
    · cases h
  · rw [if_neg hon]
    exact iff_of_true rfl (Bool.not_eq_true _ ▸ hon)

/-- A refusal is of a variable with a bad value. -/
theorem refuses_of_resolveSocketBootstrap {msg : JsString}
    (h : resolveSocketBootstrap env = .error msg) : isOn env.on = true ∧ Refuses env msg := by
  unfold resolveSocketBootstrap at h
  split at h
  · rename_i hon
    refine ⟨hon, ?_⟩
    dsimp only at h
    split at h
    · simp only [bind_eq_error_iff, setting_eq_error_iff] at h
      rcases h with h | ⟨_, -, h | ⟨_, -, h | ⟨_, -, h | ⟨_, -, h⟩⟩⟩⟩
      · exact Or.inr (Or.inl h)
      · exact Or.inr (Or.inr (Or.inl h))
      · exact Or.inr (Or.inr (Or.inr (Or.inl h)))
      · exact Or.inr (Or.inr (Or.inr (Or.inr h)))
      · cases h
    · rename_i hsemver
      cases h
      cases hraw : env.minKernel with
      | none =>
          -- the default is a version of three parts
          rw [hraw] at hsemver
          exact absurd (by decide +kernel) hsemver
      | some raw =>
          rw [hraw] at hsemver
          exact Or.inl ⟨raw, hraw, Bool.not_eq_true _ ▸ hsemver, rfl⟩
  · cases h

/-- **The settings of the door.** With the flag off nothing is read. With it on the answer is the settings
the variables write, the defaults where they are absent, every number positive and a safe integer, or it is a
refusal that names a variable which is present and writes none. -/
theorem resolveSocketBootstrap_spec (env : Env) :
    (resolveSocketBootstrap env = .ok none ↔ isOn env.on = false) ∧
      (∀ c, resolveSocketBootstrap env = .ok (some c) ↔ ResolvedFrom env c) ∧
      (∀ msg, resolveSocketBootstrap env = .error msg → Refuses env msg) ∧
      ∀ c, resolveSocketBootstrap env = .ok (some c) →
        ∀ n ∈ [c.provisionalMax, c.bindDeadlineMs, c.makeRoomPerMin, c.cooldownMs], 0 < n ∧ n < 2 ^ 53 := by
  refine ⟨resolveSocketBootstrap_eq_none_iff, fun c => resolveSocketBootstrap_eq_some_iff,
    fun msg h => (refuses_of_resolveSocketBootstrap h).2, fun c h n hn => ?_⟩
  have hfrom := resolveSocketBootstrap_eq_some_iff.mp h
  simp only [List.mem_cons, List.not_mem_nil, or_false] at hn
  rcases hn with rfl | rfl | rfl | rfl
  · exact hfrom.provisionalMax.bounds (by decide) (by decide)
  · exact hfrom.bindDeadlineMs.bounds (by decide) (by decide)
  · exact hfrom.makeRoomPerMin.bounds (by decide) (by decide)
  · exact hfrom.cooldownMs.bounds (by decide) (by decide)

end Resolver

end SocketBootstrap

/-! ### The graduated sample -/

namespace GraduatedSample

/-- The variables `resolveGraduatedSample` reads. -/
structure Env where
  /-- `BRIDGE_GRADUATED_SAMPLE` -/
  on : Option JsString := none
  /-- `BRIDGE_GRADUATED_R_SAMPLE` -/
  rSample : Option JsString := none
  /-- `BRIDGE_GRADUATED_L_REG_MS` -/
  lRegMs : Option JsString := none
  /-- `BRIDGE_GRADUATED_M_REG` -/
  mReg : Option JsString := none

def refusedSample (rSample mReg : Nat) : JsString :=
  js "BRIDGE_GRADUATED_R_SAMPLE: " ++ (JsNum.fin rSample).toString ++
    js " exceeds BRIDGE_GRADUATED_M_REG " ++ (JsNum.fin mReg).toString

/-- Every number is the one that was written, or its default, and the sample fits the registry. -/
structure ResolvedFrom (env : Env) (c : SampleConfig) : Prop where
  on : isOn env.on = true
  rSample : Chosen env.rSample 16 c.rSample
  lRegMs : ∃ n, Chosen env.lRegMs 86400000 n ∧ c.lRegMs = n
  mReg : Chosen env.mReg 4096 c.mReg
  fits : c.rSample ≤ c.mReg

/-- A refusal names a variable that writes no number, or two numbers that do not go together. -/
def Refuses (env : Env) (msg : JsString) : Prop :=
  Blames (js "BRIDGE_GRADUATED_R_SAMPLE") env.rSample msg ∨
    Blames (js "BRIDGE_GRADUATED_L_REG_MS") env.lRegMs msg ∨
    Blames (js "BRIDGE_GRADUATED_M_REG") env.mReg msg ∨
    ∃ rSample mReg, Chosen env.rSample 16 rSample ∧ Chosen env.mReg 4096 mReg ∧ mReg < rSample ∧
      msg = refusedSample rSample mReg

section Resolver

variable {env : Env}

/-- The sample and the registry are of a positive size, and what is registered is kept for a while. -/
theorem ResolvedFrom.bounds {c : SampleConfig} (h : ResolvedFrom env c) :
    0 < c.rSample ∧ c.rSample ≤ c.mReg ∧ c.mReg < 2 ^ 53 ∧ 0 < c.lRegMs ∧ c.lRegMs < 2 ^ 53 := by
  obtain ⟨n, hn, hlreg⟩ := h.lRegMs
  have hl := hn.bounds (by decide) (by decide)
  refine ⟨(h.rSample.bounds (by decide) (by decide)).1, h.fits,
    (h.mReg.bounds (by decide) (by decide)).2, ?_, ?_⟩
  · rw [hlreg]
    exact Int.natCast_pos.mpr hl.1
  · rw [hlreg]
    exact Int.ofNat_lt.mpr hl.2

end Resolver

end GraduatedSample

end AxonaBridge
