import Scriptlet.Proofs.Doubles

/-!
# Rounding to the nearest double

Quotients and products of doubles are computed with a few bits to spare and then rounded. A double stands for an
interval of rationals (`Binary.rounding`); the main statements say that a quotient or a product in that interval
becomes this double.
-/
namespace Scriptlet.Number

open Float.Model Float.Model.UnpackedFloat

/-- The mantissa is the whole part of `v`, and the bits behind it say how the rest compares with a half. -/
def Approximates (em : ExtendedMantissa) (v : ℚ) : Prop :=
  ∃ rest : ℚ, v = em.mantissa + rest ∧ 0 ≤ rest ∧ rest < 1 ∧ (em.roundBit = true ↔ 1 / 2 ≤ rest) ∧
    (em.stickyBit = true ↔ rest ≠ 0 ∧ rest ≠ 1 / 2)

/-- `s` is the whole number nearest to `v`, the even one if there are two. -/
def RoundsTo (v : ℚ) (s : ℕ) : Prop :=
  (s - 1 / 2 < v ∧ v < s + 1 / 2) ∨ (s % 2 = 0 ∧ s - 1 / 2 ≤ v ∧ v ≤ s + 1 / 2)

namespace Approximates

variable {em : ExtendedMantissa} {v : ℚ}

theorem shiftRightOne (h : Approximates em v) : Approximates em.shiftRightOne (v / 2) := by
  obtain ⟨rest, rfl, h₀, h₁, hround, hsticky⟩ := h
  have split : (em.mantissa : ℚ) = 2 * (em.mantissa / 2 : ℕ) + (em.mantissa % 2 : ℕ) := by
    exact_mod_cast (Nat.div_add_mod em.mantissa 2).symm
  have some : (em.roundBit || em.stickyBit) = true ↔ rest ≠ 0 := by
    rw [Bool.or_eq_true, hround, hsticky]
    constructor
    · rintro (h | h)
      · linarith
      · exact h.1
    · intro h
      by_cases hr : rest = 1 / 2
      · exact .inl hr.ge
      · exact .inr ⟨h, hr⟩
  obtain even | odd := Nat.mod_two_eq_zero_or_one em.mantissa
  · refine ⟨rest / 2, ?_, by linarith, by linarith, ?_, some.trans ?_⟩
    · change _ = ((em.mantissa / 2 : ℕ) : ℚ) + _
      rw [split, even]
      push_cast
      ring
    · simp only [ExtendedMantissa.shiftRightOne, even]
      constructor
      · simp
      · intro; linarith
    · constructor
      · intro h
        exact ⟨by positivity, by linarith⟩
      · rintro ⟨h, -⟩ rfl
        exact h (by simp)
  · refine ⟨(1 + rest) / 2, ?_, by linarith, by linarith, ?_, some.trans ?_⟩
    · change _ = ((em.mantissa / 2 : ℕ) : ℚ) + _
      rw [split, odd]
      push_cast
      ring
    · simp only [ExtendedMantissa.shiftRightOne, odd]
      constructor
      · intro; linarith
      · simp
    · constructor
      · intro h
        refine ⟨by positivity, fun h' => h (by linarith)⟩
      · rintro ⟨-, h⟩ rfl
        exact h (by norm_num)

theorem shiftRight (h : Approximates em v) (n : ℕ) : Approximates (em >>> n) (v / 2 ^ n) := by
  induction n with
  | zero =>
    change Approximates em (v / 2 ^ 0)
    simpa using h
  | succ n ih =>
    have step := ih.shiftRightOne
    rwa [div_div, ← pow_succ] at step

theorem ofMantissaAndAccuracy_eq {d : ℕ} (hd : 0 < d) (q r : ℕ) :
    ExtendedMantissa.ofMantissaAndAccuracy q (accuracyOfFraction r d) =
      ⟨q, decide (d ≤ 2 * r), decide (r ≠ 0 ∧ d ≠ 2 * r)⟩ := by
  unfold accuracyOfFraction
  split_ifs with hr
  · subst hr
    simp [ExtendedMantissa.ofMantissaAndAccuracy, hd.ne']
  · rcases lt_trichotomy (2 * r) d with h | h | h
    · rw [Nat.compare_eq_lt.2 h]
      simp [ExtendedMantissa.ofMantissaAndAccuracy, hr, h.ne', h]
    · rw [Nat.compare_eq_eq.2 h]
      simp [ExtendedMantissa.ofMantissaAndAccuracy, h]
    · rw [Nat.compare_eq_gt.2 h]
      simp [ExtendedMantissa.ofMantissaAndAccuracy, hr, h.ne, h.le]

/-- The whole part of a quotient, with what the remainder says. -/
theorem ofFraction {d : ℕ} (hd : 0 < d) (n : ℕ) :
    Approximates (.ofMantissaAndAccuracy (n / d) (accuracyOfFraction (n % d) d)) ((n : ℚ) / d) := by
  have hd' : (0 : ℚ) < d := by exact_mod_cast hd
  have hr : ((n % d : ℕ) : ℚ) < d := by exact_mod_cast Nat.mod_lt n hd
  have value : (n : ℚ) / d = (n / d : ℕ) + (n % d : ℕ) / (d : ℚ) := by
    have split : (n : ℚ) = d * (n / d : ℕ) + (n % d : ℕ) := by exact_mod_cast (Nat.div_add_mod n d).symm
    rw [div_eq_iff hd'.ne', add_mul, div_mul_cancel₀ _ hd'.ne']
    linarith
  have half : (1 : ℚ) / 2 ≤ (n % d : ℕ) / (d : ℚ) ↔ d ≤ 2 * (n % d) := by
    rw [le_div_iff₀ hd', ← @Nat.cast_le ℚ]
    push_cast
    constructor <;> intro h <;> linarith
  have zero : (n % d : ℕ) / (d : ℚ) = 0 ↔ n % d = 0 := by
    rw [div_eq_zero_iff, Nat.cast_eq_zero]
    exact or_iff_left hd'.ne'
  have middle : (n % d : ℕ) / (d : ℚ) = 1 / 2 ↔ d = 2 * (n % d) := by
    rw [div_eq_iff hd'.ne', ← @Nat.cast_inj ℚ]
    push_cast
    constructor <;> intro h <;> linarith
  rw [ofMantissaAndAccuracy_eq hd]
  refine ⟨(n % d : ℕ) / (d : ℚ), value, by positivity, (div_lt_one hd').2 hr, ?_, ?_⟩
  · rw [half, decide_eq_true_iff]
  · simp only [ne_eq, zero, middle, decide_eq_true_eq]

theorem exact (m : ℕ) : Approximates (.ofMantissaAndAccuracy m .exact) m :=
  ⟨0, by simp [ExtendedMantissa.ofMantissaAndAccuracy], le_refl _, one_pos,
    by norm_num [ExtendedMantissa.ofMantissaAndAccuracy], by simp [ExtendedMantissa.ofMantissaAndAccuracy]⟩

theorem roundedMantissa {s : ℕ} (h : Approximates em v) (hs : RoundsTo v s) : em.roundedMantissa = s := by
  obtain ⟨rest, rfl, h₀, h₁, hround, hsticky⟩ := h
  obtain ⟨m, round, sticky⟩ := em
  dsimp only at hs hround hsticky
  have near : (s : ℚ) - 1 / 2 ≤ m + rest ∧ m + rest ≤ s + 1 / 2 := by
    rcases hs with hs | hs
    · exact ⟨hs.1.le, hs.2.le⟩
    · exact hs.2
  cases round <;> cases sticky <;>
    simp only [true_iff, false_iff, reduceCtorEq, not_le, not_and, not_not, ne_eq] at hround hsticky
  · have : rest = 0 := by
      by_contra h
      linarith [hsticky h]
    have lower : s < m + 1 := by exact_mod_cast (by linarith : (s : ℚ) < m + 1)
    have upper : m < s + 1 := by exact_mod_cast (by linarith : (m : ℚ) < s + 1)
    change m = s
    omega
  · have lower : s < m + 1 := by exact_mod_cast (by linarith : (s : ℚ) < m + 1)
    have upper : m < s + 1 := by exact_mod_cast (by linarith : (m : ℚ) < s + 1)
    change m = s
    omega
  · have : rest = 1 / 2 := hsticky (by linarith)
    have lower : s < m + 2 := by exact_mod_cast (by linarith : (s : ℚ) < m + 2)
    have upper : m < s + 1 := by exact_mod_cast (by linarith : (m : ℚ) < s + 1)
    change m + m % 2 = s
    rcases hs with hs | hs
    · have lower : s < m + 1 := by exact_mod_cast (by linarith : (s : ℚ) < m + 1)
      have upper : m < s := by exact_mod_cast (by linarith : (m : ℚ) < s)
      omega
    · omega
  · have : (1 : ℚ) / 2 < rest := lt_of_le_of_ne hround (Ne.symm hsticky.2)
    have lower : s < m + 2 := by exact_mod_cast (by linarith : (s : ℚ) < m + 2)
    have upper : m < s := by exact_mod_cast (by linarith : (m : ℚ) < s)
    change m + 1 = s
    omega

/-- The whole part lies between the same whole bounds as the value. -/
theorem mantissa_lt {k : ℕ} (h : Approximates em v) (hv : v < k) : em.mantissa < k := by
  obtain ⟨rest, rfl, h₀, -⟩ := h
  exact_mod_cast (by linarith : (em.mantissa : ℚ) < k)

theorem le_mantissa {k : ℕ} (h : Approximates em v) (hv : k ≤ v) : k ≤ em.mantissa := by
  obtain ⟨rest, rfl, -, h₁, -⟩ := h
  exact Nat.lt_succ_iff.1 (by exact_mod_cast (by linarith : (k : ℚ) < em.mantissa + 1))

end Approximates

theorem mantissa_ofMantissaAndAccuracy (m : ℕ) (acc : Accuracy) :
    (ExtendedMantissa.ofMantissaAndAccuracy m acc).mantissa = m := by
  unfold ExtendedMantissa.ofMantissaAndAccuracy
  split <;> rfl

/-- The exponent that a mantissa gets is `e + n`. -/
def Lands (m : ℕ) (e : ℤ) (n : ℕ) : Prop := max ((m.log2 : ℤ) + 1 + e - 53) (-1074) = e + n

theorem shiftToTargetExponent_eq {m n : ℕ} {e : ℤ} (h : Lands m e n) (acc : Accuracy) :
    shiftToTargetExponent .binary64 m e acc = (ExtendedMantissa.ofMantissaAndAccuracy m acc >>> n, e + n) := by
  have target : Format.targetExponent .binary64 (totalExponent m e) = e + n := h
  rw [shiftToTargetExponent, target, shiftToExponent]
  simp

section Rounding

variable {q n s : ℕ} {t : ℤ} {acc : Accuracy} {v : ℚ} {sign : Sign}
  (hv : Approximates (.ofMantissaAndAccuracy q acc) v) (hn : Lands q t n) (hs : RoundsTo (v / 2 ^ n) s)
include hv hn hs

theorem roundWithAccuracy_eq (fits : Lands s (t + n) 0) (pos : 0 < s) :
    roundWithAccuracy .binary64 sign q t acc = .finite sign s (t + n) pos := by
  have same : (ExtendedMantissa.ofMantissaAndAccuracy s .exact >>> 0).mantissa = s := rfl
  rw [roundWithAccuracy, shiftToTargetExponent_eq hn]
  dsimp only
  rw [(hv.shiftRight n).roundedMantissa hs, shiftToTargetExponent_eq fits]
  dsimp only
  rw [dif_neg (by rw [same]; exact pos.ne')]
  exact finite_congr same (by simp)

/-- The mantissa got one bit too many. -/
theorem roundWithAccuracy_carry (carries : Lands s (t + n) 1) (pos : 0 < s / 2) :
    roundWithAccuracy .binary64 sign q t acc = .finite sign (s / 2) (t + n + 1) pos := by
  have half : (ExtendedMantissa.ofMantissaAndAccuracy s .exact >>> 1).mantissa = s / 2 := rfl
  rw [roundWithAccuracy, shiftToTargetExponent_eq hn]
  dsimp only
  rw [(hv.shiftRight n).roundedMantissa hs, shiftToTargetExponent_eq carries]
  dsimp only
  rw [dif_neg (by rw [half]; exact pos.ne')]
  exact finite_congr half (by simp)

end Rounding

/-- The value lies in the interval. -/
def Rounding.Contains (r : Rounding) (v : ℚ) : Prop :=
  (r.low * 2 ^ r.exponent < v ∧ v < r.high * 2 ^ r.exponent) ∨
    (r.closed = true ∧ r.low * 2 ^ r.exponent ≤ v ∧ v ≤ r.high * 2 ^ r.exponent)

section Nearest

variable {b : Binary} {w : ℚ}

/-- In quarters of the last place. -/
theorem Rounding.contains_iff : b.rounding.Contains (w * 2 ^ b.exponent) ↔
    ((b.rounding.low : ℚ) < 4 * w ∧ 4 * w < 4 * b.significand + 2) ∨
      (b.significand % 2 = 0 ∧ (b.rounding.low : ℚ) ≤ 4 * w ∧ 4 * w ≤ 4 * b.significand + 2) := by
  have unit : (0 : ℚ) < 2 ^ b.exponent / 4 := by positivity
  have quarter : (2 : ℚ) ^ b.rounding.exponent = 2 ^ b.exponent / 4 := by
    change (2 : ℚ) ^ (b.exponent - 2) = _
    rw [zpow_sub₀ two_ne_zero]
    norm_num
  have value : w * 2 ^ b.exponent = 4 * w * (2 ^ b.exponent / 4) := by ring
  have high : (b.rounding.high : ℚ) = 4 * b.significand + 2 := by
    change ((4 * b.significand + 2 : ℕ) : ℚ) = _
    push_cast
    ring
  have closed : b.rounding.closed = true ↔ b.significand % 2 = 0 := beq_iff_eq
  rw [Rounding.Contains, quarter, value, high, closed]
  simp only [mul_lt_mul_iff_left₀ unit, mul_le_mul_iff_left₀ unit]

theorem Binary.low_cases (pos : 0 < b.significand) :
    (b.significand = 2 ^ 52 ∧ -1074 < b.exponent ∧ (b.rounding.low : ℚ) = 4 * b.significand - 1) ∨
      ((b.significand ≠ 2 ^ 52 ∨ b.exponent ≤ -1074) ∧ (b.rounding.low : ℚ) = 4 * b.significand - 2) := by
  have nearer : b.rounding.low =
      if b.significand = 2 ^ 52 ∧ -1074 < b.exponent then 4 * b.significand - 1 else 4 * b.significand - 2 := by
    unfold Binary.rounding
    simp [twoTo, fractionBits, leastExponent]
  rw [nearer]
  split_ifs with h
  · refine .inl ⟨h.1, h.2, ?_⟩
    rw [Nat.cast_sub (by omega)]
    push_cast
    ring
  · refine .inr ⟨by omega, ?_⟩
    rw [Nat.cast_sub (by omega)]
    push_cast
    ring

theorem Rounding.Contains.roundsTo (pos : 0 < b.significand) (h : b.rounding.Contains (w * 2 ^ b.exponent)) :
    RoundsTo w b.significand := by
  have low : 4 * (b.significand : ℚ) - 2 ≤ b.rounding.low := by
    rcases Binary.low_cases pos with ⟨-, -, h⟩ | ⟨-, h⟩ <;> linarith
  rcases Rounding.contains_iff.1 h with ⟨h₁, h₂⟩ | ⟨h₀, h₁, h₂⟩
  · exact .inl ⟨by linarith, by linarith⟩
  · exact .inr ⟨h₀, by linarith, by linarith⟩

/-- Below the interval of the next power of two. -/
theorem Rounding.Contains.lt (canonical : b.Canonical) (pos : 0 < b.significand)
    (h : b.rounding.Contains (w * 2 ^ b.exponent)) : w < 2 ^ 53 := by
  have hs : (b.significand : ℚ) + 1 ≤ 2 ^ 53 := by exact_mod_cast canonical.significand_lt
  rcases h.roundsTo pos with h | h <;> linarith

theorem Approximates.log2_eq {q k : ℕ} {acc : Accuracy} {v : ℚ}
    (h : Approximates (.ofMantissaAndAccuracy q acc) v) (lower : 2 ^ k ≤ v) (upper : v < 2 ^ (k + 1)) :
    q.log2 = k := by
  have same := mantissa_ofMantissaAndAccuracy q acc
  have lower' : 2 ^ k ≤ q := by rw [← same]; exact h.le_mantissa (by exact_mod_cast lower)
  have upper' : q < 2 ^ (k + 1) := by rw [← same]; exact h.mantissa_lt (by exact_mod_cast upper)
  exact (Nat.log2_eq_iff (by have := Nat.two_pow_pos k; omega)).2 ⟨lower', upper'⟩

theorem Approximates.log2_le {q k : ℕ} {acc : Accuracy} {v : ℚ}
    (h : Approximates (.ofMantissaAndAccuracy q acc) v) (upper : v < 2 ^ (k + 1)) : q.log2 ≤ k := by
  have same := mantissa_ofMantissaAndAccuracy q acc
  have upper' : q < 2 ^ (k + 1) := by rw [← same]; exact h.mantissa_lt (by exact_mod_cast upper)
  rcases Nat.eq_zero_or_pos q with rfl | hq
  · simp
  · exact Nat.lt_succ_iff.1 ((Nat.log2_lt hq.ne').2 upper')

theorem Binary.Canonical.lands (canonical : b.Canonical) (pos : 0 < b.significand) :
    Lands b.significand b.exponent 0 := by
  obtain ⟨hlt, hleast, -, hfull⟩ := canonical
  unfold Lands
  by_cases full : 2 ^ 52 ≤ b.significand
  · have : b.significand.log2 = 52 := (Nat.log2_eq_iff pos.ne').2 ⟨full, hlt⟩
    omega
  · have : b.significand.log2 < 53 := (Nat.log2_lt pos.ne').2 hlt
    omega

/-- Below the least significand only the interval of a power of two has values. One place further down they are nearest
to a mantissa with one bit too many. -/
theorem Rounding.Contains.carries (canonical : b.Canonical) (pos : 0 < b.significand)
    (h : b.rounding.Contains (w * 2 ^ b.exponent)) (hw : w < 2 ^ 52) (hexponent : -1074 < b.exponent) :
    b.significand = 2 ^ 52 ∧ RoundsTo (2 * w) (2 ^ 53) := by
  have near : (b.significand : ℚ) - 1 / 2 ≤ w := by
    rcases h.roundsTo pos with h | h
    · exact h.1.le
    · exact h.2.1
  have power : b.significand = 2 ^ 52 := by
    have : b.significand < 2 ^ 52 + 1 := by exact_mod_cast (by linarith : (b.significand : ℚ) < 2 ^ 52 + 1)
    have := canonical.full
    omega
  have low : (b.rounding.low : ℚ) ≤ 4 * w := by
    rcases Rounding.contains_iff.1 h with h | h
    · exact h.1.le
    · exact h.2.1
  rcases Binary.low_cases pos with ⟨-, -, hlow⟩ | ⟨hnot, -⟩
  · rw [hlow, power] at low
    push_cast at low
    exact ⟨power, .inr ⟨by norm_num, by push_cast; linarith, by push_cast; linarith⟩⟩
  · omega

section Rounded

variable {q n : ℕ} {t : ℤ} {acc : Accuracy} {sign : Sign} (canonical : b.Canonical) (pos : 0 < b.significand)
  (h : b.rounding.Contains (w * 2 ^ b.exponent))
include canonical h

/-- The value is rounded at its own place. -/
theorem roundWithAccuracy_in_place (hv : Approximates (.ofMantissaAndAccuracy q acc) (w * 2 ^ n))
    (hn : b.exponent = t + n) (place : 2 ^ 52 ≤ w ∨ b.exponent = -1074) :
    roundWithAccuracy .binary64 sign q t acc = .finite sign b.significand b.exponent pos := by
  have hpow : (0 : ℚ) < 2 ^ n := by positivity
  have upper : w * 2 ^ n < 2 ^ (52 + n + 1) := by
    rw [show 52 + n + 1 = 53 + n by omega, pow_add]
    exact mul_lt_mul_of_pos_right (h.lt canonical pos) hpow
  have lands : Lands q t n := by
    unfold Lands
    rcases place with full | least
    · have : q.log2 = 52 + n := by
        refine hv.log2_eq ?_ upper
        rw [pow_add]
        exact mul_le_mul_of_nonneg_right full hpow.le
      have := canonical.least
      omega
    · have := hv.log2_le upper
      omega
  have near : RoundsTo (w * 2 ^ n / 2 ^ n) b.significand := by
    rw [mul_div_cancel_right₀ _ hpow.ne']
    exact h.roundsTo pos
  rw [roundWithAccuracy_eq hv lands near (hn ▸ canonical.lands pos) pos]
  exact finite_congr rfl hn.symm

/-- The value is rounded one place further down, and carried into its own place. -/
theorem roundWithAccuracy_below_place (hv : Approximates (.ofMantissaAndAccuracy q acc) (w * 2 ^ (n + 1)))
    (hn : b.exponent = t + (n + 1)) (hw : w < 2 ^ 52) (hexponent : -1074 < b.exponent) :
    roundWithAccuracy .binary64 sign q t acc = .finite sign b.significand b.exponent pos := by
  obtain ⟨power, near⟩ := h.carries canonical pos hw hexponent
  have hpow : (0 : ℚ) < 2 ^ n := by positivity
  have scaled : w * 2 ^ (n + 1) = 2 * w * 2 ^ n := by
    rw [pow_succ]
    ring
  have lower : 2 ^ 52 ≤ 2 * w := by
    rcases near with h | h
    · push_cast at h
      linarith
    · push_cast at h
      linarith
  rw [scaled] at hv
  have log : q.log2 = 52 + n := by
    refine hv.log2_eq ?_ ?_
    · rw [pow_add]
      exact mul_le_mul_of_nonneg_right lower hpow.le
    · rw [show 52 + n + 1 = 53 + n by omega, pow_add]
      exact mul_lt_mul_of_pos_right (by linarith) hpow
  have lands : Lands q t n := by
    unfold Lands
    omega
  have carries : Lands (2 ^ 53) (t + n) 1 := by
    unfold Lands
    rw [Nat.log2_two_pow]
    omega
  rw [← mul_div_cancel_right₀ (2 * w) hpow.ne'] at near
  rw [roundWithAccuracy_carry hv lands near carries (by norm_num)]
  exact finite_congr (by rw [power]; norm_num) (by omega)

/-- A value in the interval of a double is rounded to it. -/
theorem roundWithAccuracy_of_contains {v : ℚ} (hv : Approximates (.ofMantissaAndAccuracy q acc) v)
    (value : v * 2 ^ t = w * 2 ^ b.exponent) (ht : t ≤ b.exponent)
    (ht' : w < 2 ^ 52 → -1074 < b.exponent → t < b.exponent) :
    roundWithAccuracy .binary64 sign q t acc = .finite sign b.significand b.exponent pos := by
  obtain ⟨n, hn⟩ : ∃ n : ℕ, b.exponent = t + n := ⟨(b.exponent - t).toNat, by omega⟩
  have scaled : v = w * 2 ^ n := by
    have two : (2 : ℚ) ^ t ≠ 0 := by positivity
    rw [hn, zpow_add₀ two_ne_zero, zpow_natCast] at value
    refine mul_right_cancel₀ two (value.trans ?_)
    ring
  rw [scaled] at hv
  by_cases below : w < 2 ^ 52 ∧ -1074 < b.exponent
  · obtain ⟨hw, hexponent⟩ := below
    obtain ⟨k, rfl⟩ : ∃ k, n = k + 1 := ⟨n - 1, by have := ht' hw hexponent; omega⟩
    exact roundWithAccuracy_below_place canonical pos h hv (by exact_mod_cast hn) hw hexponent
  · refine roundWithAccuracy_in_place canonical pos h hv hn ?_
    rcases lt_or_ge w (2 ^ 52) with hw | full
    · have : ¬ -1074 < b.exponent := fun hexponent => below ⟨hw, hexponent⟩
      have := canonical.least
      exact .inr (by omega)
    · exact .inl full

end Rounded

end Nearest

/-! ## Quotients and products -/

theorem two_zpow_log2_le {m : ℕ} (pos : 0 < m) : (2 : ℚ) ^ (m.log2 : ℤ) ≤ m := by
  rw [zpow_natCast]
  exact_mod_cast Nat.log2_self_le pos.ne'

theorem lt_two_zpow_log2 (m : ℕ) : (m : ℚ) < 2 ^ ((m.log2 : ℤ) + 1) := by
  have := @Nat.lt_log2_self m
  rw [← Nat.cast_one, ← Nat.cast_add, zpow_natCast]
  exact_mod_cast this

section Quotient

variable {m₁ m₂ : ℕ} (e₁ e₂ : ℤ) (pos₁ : 0 < m₁) (pos₂ : 0 < m₂)
include pos₁ pos₂

/-- The leading places of the operands tell the leading place of the quotient but for one. -/
theorem two_zpow_lt_quotient :
    (2 : ℚ) ^ (totalExponent m₁ e₁ - totalExponent m₂ e₂ - 1) < m₁ * 2 ^ e₁ / (m₂ * 2 ^ e₂) := by
  have hm₂ : (0 : ℚ) < m₂ := by exact_mod_cast pos₂
  have he₂ : (0 : ℚ) < 2 ^ e₂ := by positivity
  rw [lt_div_iff₀ (by positivity)]
  calc (2 : ℚ) ^ (totalExponent m₁ e₁ - totalExponent m₂ e₂ - 1) * (m₂ * 2 ^ e₂)
      < 2 ^ (totalExponent m₁ e₁ - totalExponent m₂ e₂ - 1) * (2 ^ ((m₂.log2 : ℤ) + 1) * 2 ^ e₂) := by
        gcongr
        exact lt_two_zpow_log2 m₂
    _ = 2 ^ (m₁.log2 : ℤ) * 2 ^ e₁ := by
        rw [← zpow_add₀ two_ne_zero, ← zpow_add₀ two_ne_zero, ← zpow_add₀ two_ne_zero]
        congr 1
        unfold totalExponent
        ring
    _ ≤ m₁ * 2 ^ e₁ := by
        gcongr
        exact two_zpow_log2_le pos₁

/-- A quotient in the interval of a double is rounded to it. -/
theorem div_of_contains {b : Binary} (canonical : b.Canonical) (pos : 0 < b.significand)
    (h : b.rounding.Contains (m₁ * 2 ^ e₁ / (m₂ * 2 ^ e₂))) :
    UnpackedFloat.div .binary64 (.finite .positive m₁ e₁ pos₁) (.finite .positive m₂ e₂ pos₂) =
      .finite .positive b.significand b.exponent pos := by
  have hm₂ : (0 : ℚ) < m₂ := by exact_mod_cast pos₂
  let T := totalExponent m₁ e₁ - totalExponent m₂ e₂
  let t := min (e₁ - e₂) (max (T - 53) (-1074))
  let k := (e₁ - e₂ - t).toNat
  have core : divCore .binary64 m₁ e₁ m₂ e₂ =
    (m₁ <<< k / m₂, t, accuracyOfFraction (m₁ <<< k % m₂) m₂) := rfl
  rw [UnpackedFloat.div, core]
  dsimp only
  have unit : (0 : ℚ) < 2 ^ b.exponent := by positivity
  obtain ⟨w, hw⟩ : ∃ w : ℚ, m₁ * 2 ^ e₁ / (m₂ * 2 ^ e₂) = w * 2 ^ b.exponent :=
    ⟨m₁ * 2 ^ e₁ / (m₂ * 2 ^ e₂) / 2 ^ b.exponent, by field_simp⟩
  have lower := two_zpow_lt_quotient e₁ e₂ pos₁ pos₂
  rw [hw] at h lower
  have exponents {j : ℕ} (hj : w < 2 ^ j) : T - 1 < j + b.exponent := by
    have : (2 : ℚ) ^ (T - 1) < 2 ^ ((j : ℤ) + b.exponent) := by
      refine lower.trans ?_
      rw [zpow_add₀ two_ne_zero, zpow_natCast]
      exact mul_lt_mul_of_pos_right hj unit
    exact (zpow_lt_zpow_iff_right₀ one_lt_two).1 this
  have least := canonical.least
  refine roundWithAccuracy_of_contains canonical pos h (.ofFraction pos₂ (m₁ <<< k)) ?_ ?_ fun hlow hexponent => ?_
  · have shift : (e₁ - e₂) = k + t := by omega
    rw [← hw, Nat.shiftLeft_eq]
    push_cast
    rw [mul_div_mul_comm, ← zpow_sub₀ two_ne_zero, shift, zpow_add₀ two_ne_zero, zpow_natCast]
    ring
  · have := exponents (h.lt canonical pos)
    push_cast at this
    omega
  · have := exponents hlow
    push_cast at this
    omega

end Quotient

/-- A product in the interval of a double is rounded to it, if the product has enough places. -/
theorem mul_of_contains {m₁ m₂ : ℕ} {e₁ e₂ : ℤ} {pos₁ : 0 < m₁} {pos₂ : 0 < m₂} {b : Binary} (canonical : b.Canonical)
    (pos : 0 < b.significand) (h : b.rounding.Contains (m₁ * m₂ * 2 ^ (e₁ + e₂))) (places : e₁ + e₂ < b.exponent) :
    UnpackedFloat.mul .binary64 (.finite .positive m₁ e₁ pos₁) (.finite .positive m₂ e₂ pos₂) =
      .finite .positive b.significand b.exponent pos := by
  have unit : (0 : ℚ) < 2 ^ b.exponent := by positivity
  obtain ⟨w, hw⟩ : ∃ w : ℚ, m₁ * m₂ * 2 ^ (e₁ + e₂) = w * 2 ^ b.exponent :=
    ⟨m₁ * m₂ * 2 ^ (e₁ + e₂) / 2 ^ b.exponent, by field_simp⟩
  rw [UnpackedFloat.mul]
  refine roundWithAccuracy_of_contains canonical pos (hw ▸ h) (.exact (m₁ * m₂)) ?_ places.le fun _ _ => places
  rw [← hw]
  push_cast
  rfl

end Scriptlet.Number
