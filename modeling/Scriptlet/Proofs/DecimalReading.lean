import Scriptlet.Proofs.CorrectRounding

/-!
# Reading decimals

A decimal that lies in the interval of a double is read as this double, and every decimal is read as a double that is
not negative. Whole numbers of up to 53 bits are read exactly.
-/
namespace Scriptlet.Number

open Float.Model Float.Model.UnpackedFloat

/-! ## Exact values -/

/-- The rational that the parts of a double stand for, without its sign. -/
def Binary.magnitude (b : Binary) : ℚ := b.significand * 2 ^ b.exponent

theorem Binary.contains_magnitude {b : Binary} (pos : 0 < b.significand) : b.rounding.Contains b.magnitude := by
  refine Rounding.contains_iff.2 (.inl ⟨?_, by linarith⟩)
  rcases Binary.low_cases pos with ⟨-, -, h⟩ | ⟨-, h⟩ <;> linarith

/-- The least interval starts at half of the least double. -/
theorem Rounding.Contains.le {b : Binary} {v : ℚ} (h : b.rounding.Contains v) (hb : b.Canonical)
    (pos : 0 < b.significand) : (2 : ℚ) ^ (-1075 : ℤ) ≤ v := by
  have low : (2 : ℚ) ≤ b.rounding.low := by
    have : (1 : ℚ) ≤ b.significand := by exact_mod_cast pos
    rcases Binary.low_cases pos with ⟨-, -, h⟩ | ⟨-, h⟩ <;> linarith
  have unit : (2 : ℚ) ^ (-1076 : ℤ) ≤ 2 ^ b.rounding.exponent := by
    refine zpow_le_zpow_right₀ one_le_two ?_
    have := hb.least
    change _ ≤ b.exponent - 2
    omega
  have lower : b.rounding.low * (2 : ℚ) ^ b.rounding.exponent ≤ v := by
    rcases h with h | h
    · exact h.1.le
    · exact h.2.1
  calc (2 : ℚ) ^ (-1075 : ℤ) = 2 * 2 ^ (-1076 : ℤ) := by
        rw [← zpow_one_add₀ two_ne_zero]
        rfl
    _ ≤ b.rounding.low * (2 : ℚ) ^ b.rounding.exponent := by gcongr
    _ ≤ v := lower

/-- The parts of a whole number of up to 53 bits. -/
def Binary.ofNat (n : ℕ) : Binary := ⟨false, n * 2 ^ (52 - n.log2), n.log2 - 52⟩

section Whole

variable {n : ℕ} (pos : 0 < n) (hn : n < 2 ^ 53)
include pos hn

theorem Binary.significand_ofNat : 2 ^ 52 ≤ (ofNat n).significand ∧ (ofNat n).significand < 2 ^ 53 := by
  have hlog : n.log2 < 53 := (Nat.log2_lt pos.ne').2 hn
  have lower := Nat.mul_le_mul_right (2 ^ (52 - n.log2)) (Nat.log2_self_le pos.ne')
  have upper := Nat.mul_lt_mul_of_pos_right (@Nat.lt_log2_self n) (Nat.two_pow_pos (52 - n.log2))
  rw [← Nat.pow_add, show n.log2 + (52 - n.log2) = 52 by omega] at lower
  rw [← Nat.pow_add, show n.log2 + 1 + (52 - n.log2) = 53 by omega] at upper
  exact ⟨lower, upper⟩

theorem Binary.canonical_ofNat : (ofNat n).Canonical := by
  have hlog : n.log2 < 53 := (Nat.log2_lt pos.ne').2 hn
  obtain ⟨lower, upper⟩ := significand_ofNat pos hn
  exact ⟨upper, by dsimp only [ofNat]; omega, by dsimp only [ofNat]; omega, .inl lower⟩

theorem Binary.significand_ofNat_pos : 0 < (ofNat n).significand :=
  (Nat.two_pow_pos 52).trans_le (significand_ofNat pos hn).1

theorem Binary.magnitude_ofNat : (ofNat n).magnitude = n := by
  have hlog : n.log2 < 53 := (Nat.log2_lt pos.ne').2 hn
  have exponent : ((n.log2 : ℤ) - 52) = -((52 - n.log2 : ℕ) : ℤ) := by omega
  dsimp only [magnitude, ofNat]
  rw [exponent, zpow_neg, zpow_natCast]
  push_cast
  field_simp

theorem toFloat_eq : n.toUInt64.toFloat = .ofModel (.pack (.finite .positive (Binary.ofNat n).significand
    (Binary.ofNat n).exponent (Binary.significand_ofNat_pos pos hn))) := by
  have hlog : n.log2 < 53 := (Nat.log2_lt pos.ne').2 hn
  have word : n.toUInt64.toNat = n := Nat.mod_eq_of_lt (hn.trans (by decide))
  have target : Format.targetExponent .binary64 (totalExponent n 0) = n.log2 - 52 := by
    change max ((n.log2 : ℤ) + 1 + 0 - 53) (-1074) = _
    omega
  have shift : (0 - ((n.log2 : ℤ) - 52)).toNat = 52 - n.log2 := by omega
  have exponent : (0 : ℤ) - (52 - n.log2 : ℕ) = n.log2 - 52 := by omega
  change Float.ofModel (.pack (UnpackedFloat.normalize .binary64 (n.toUInt64.toNat : ℤ) 0 .positive)) = _
  rw [word, UnpackedFloat.normalize, show compare (n : ℤ) 0 = .gt from Int.compare_eq_gt.2 (by exact_mod_cast pos)]
  dsimp only
  rw [UnpackedFloat.round, Int.toNat_natCast, target, decreaseExponent, shift, exponent]
  dsimp only
  rw [Nat.shiftLeft_eq]
  congr 2
  have w : ((Binary.ofNat n).significand : ℚ) * 2 ^ (Binary.ofNat n).exponent = (Binary.ofNat n).magnitude := rfl
  refine roundWithAccuracy_of_contains (Binary.canonical_ofNat pos hn) (Binary.significand_ofNat_pos pos hn)
    (Binary.contains_magnitude (Binary.significand_ofNat_pos pos hn)) (.exact _) w (le_refl _) fun small _ => ?_
  have := (Binary.significand_ofNat pos hn).1
  have : (2 : ℚ) ^ 52 ≤ (Binary.ofNat n).significand := by exact_mod_cast this
  linarith

theorem decode_toFloat : decode n.toUInt64.toFloat = .finite (.ofNat n) := by
  rw [toFloat_eq pos hn]
  exact decode_pack (Binary.canonical_ofNat pos hn) rfl _

end Whole

/-! ## Decimals -/

/-- The powers of ten that doubles hold exactly: the power of five is the significand. -/
theorem decode_powerOfTen : ∀ k, (h : k < Float.exactlyRepresentablePowersOfTen.size) →
    decode Float.exactlyRepresentablePowersOfTen[k] =
      .finite { Binary.ofNat (5 ^ k) with exponent := (Binary.ofNat (5 ^ k)).exponent + k } := by
  decide +kernel

theorem size_powersOfTen : Float.exactlyRepresentablePowersOfTen.size = 23 := rfl

theorem five_pow_lt {k : ℕ} (h : k ≤ 22) : 5 ^ k < 2 ^ 53 :=
  (Nat.pow_le_pow_right (by decide) h).trans_lt (by decide)

theorem magnitude_powerOfTen {k : ℕ} (h : k ≤ 22) :
    ((Binary.ofNat (5 ^ k)).significand : ℚ) * 2 ^ ((Binary.ofNat (5 ^ k)).exponent + k) = 10 ^ k := by
  have five := Binary.magnitude_ofNat (Nat.pow_pos (by decide)) (five_pow_lt h)
  rw [zpow_add₀ two_ne_zero, ← mul_assoc, zpow_natCast]
  change (Binary.ofNat (5 ^ k)).magnitude * 2 ^ k = 10 ^ k
  rw [five]
  push_cast
  rw [← mul_pow]
  norm_num

theorem ofScientific_short {c k : ℕ} (h : c < 2 ^ 53 ∧ k ≤ 22) (hk : k < Float.exactlyRepresentablePowersOfTen.size) :
    Float.ofScientific c true k = c.toUInt64.toFloat / Float.exactlyRepresentablePowersOfTen[k] := by
  rw [Float.ofScientific, dif_pos h]
  rfl

theorem ofScientific_long {c k : ℕ} (h : ¬ (c < 2 ^ 53 ∧ k ≤ 22)) :
    Float.ofScientific c true k = .ofModel (.pack (UnpackedFloat.ofScientific .binary64 c (Int.negOfNat k))) := by
  rw [Float.ofScientific, dif_neg h]
  rfl

/-- The guards against huge powers do not touch a decimal that is large enough. -/
theorem ofScientific_negOfNat {c k : ℕ} (hc : 0 < c) (hk : k ≤ 2048 + c.log2) :
    UnpackedFloat.ofScientific .binary64 c (Int.negOfNat k) =
      if k = 0 then
        .mul .binary64 (.finite .positive (c <<< 53) (-53) (by simpa using hc))
          (.finite .positive (10 ^ 0) 0 (by decide))
      else .div .binary64 (.finite .positive c 0 hc) (.finite .positive (10 ^ k) 0 (Nat.pow_pos (by decide))) := by
  have minus : Int.negOfNat k = -(k : ℤ) := Int.negOfNat_eq
  have range : ((2 : ℤ) ^ Format.exponentBits .binary64) = 2048 := rfl
  rw [UnpackedFloat.ofScientific, dif_neg hc.ne', range, minus, if_neg (by omega), if_neg (by omega)]
  by_cases hk₀ : k = 0
  · subst hk₀
    rw [if_pos rfl, if_pos (by simp)]
    rfl
  · rw [if_neg hk₀, if_neg (by omega)]
    congr 2
    simp

theorem le_of_contains {b : Binary} (hb : b.Canonical) (pos : 0 < b.significand) {c k : ℕ}
    (h : b.rounding.Contains (c / 10 ^ k)) : k ≤ 2048 + c.log2 := by
  have least := h.le hb pos
  rw [le_div_iff₀ (by positivity)] at least
  have powers : (2 : ℚ) ^ (-1075 : ℤ) * 2 ^ ((3 * k : ℕ) : ℤ) < 2 ^ ((c.log2 : ℤ) + 1) := by
    calc (2 : ℚ) ^ (-1075 : ℤ) * 2 ^ ((3 * k : ℕ) : ℤ) ≤ 2 ^ (-1075 : ℤ) * 10 ^ k := by
          rw [zpow_natCast, pow_mul]
          gcongr
          norm_num
      _ ≤ c := least
      _ < 2 ^ ((c.log2 : ℤ) + 1) := lt_two_zpow_log2 c
  rw [← zpow_add₀ two_ne_zero, zpow_lt_zpow_iff_right₀ one_lt_two] at powers
  omega

theorem Rounding.Contains.exponent_nonneg {b : Binary} (hb : b.Canonical) (pos : 0 < b.significand) {v : ℚ}
    (h : b.rounding.Contains v) (large : 2 ^ 53 ≤ v) : 0 ≤ b.exponent := by
  have unit : (0 : ℚ) < 2 ^ b.exponent := by positivity
  obtain ⟨w, rfl⟩ : ∃ w : ℚ, v = w * 2 ^ b.exponent := ⟨v / 2 ^ b.exponent, by field_simp⟩
  refine Classical.byContradiction fun negative => ?_
  have small : (2 : ℚ) ^ b.exponent ≤ 1 := zpow_le_one_of_nonpos₀ one_le_two (by omega)
  have := h.lt hb pos
  nlinarith

/-- A decimal in the interval of a double is read as it. -/
theorem ofScientific_of_contains {x : Float} {b : Binary} (h : decode x = .finite b) (hn : b.negative = false)
    (pos : 0 < b.significand) {c k : ℕ} (hc : b.rounding.Contains (c / 10 ^ k)) : Float.ofScientific c true k = x := by
  have canonical := (decode_finite h).1
  have hc₀ : 0 < c := by
    have least := hc.le canonical pos
    rcases Nat.eq_zero_or_pos c with rfl | hc₀
    · rw [Nat.cast_zero, zero_div] at least
      exact absurd least (not_le.2 (by positivity))
    · exact hc₀
  rw [eq_pack_of_decode h hn pos]
  by_cases short : c < 2 ^ 53 ∧ k ≤ 22
  · have hk : k < Float.exactlyRepresentablePowersOfTen.size := by rw [size_powersOfTen]; omega
    have parts := unpack_of_decode (decode_toFloat hc₀ short.1) rfl (Binary.significand_ofNat_pos hc₀ short.1)
    have partsTen := unpack_of_decode (decode_powerOfTen k hk) rfl
      (Binary.significand_ofNat_pos (Nat.pow_pos (by decide)) (five_pow_lt short.2))
    rw [ofScientific_short short hk]
    change Float.ofModel (.pack (UnpackedFloat.div .binary64 _ _)) = _
    rw [parts, partsTen, div_of_contains _ _ _ _ canonical pos]
    rw [magnitude_powerOfTen short.2]
    change b.rounding.Contains ((Binary.ofNat c).magnitude / 10 ^ k)
    rwa [Binary.magnitude_ofNat hc₀ short.1]
  · rw [ofScientific_long short, ofScientific_negOfNat hc₀ (le_of_contains canonical pos hc)]
    split_ifs with hk
    · subst hk
      rw [pow_zero, div_one] at hc
      have exact : ((c <<< 53 : ℕ) : ℚ) * (10 ^ 0 : ℕ) * 2 ^ ((-53 : ℤ) + 0) = c := by
        rw [Nat.shiftLeft_eq]
        push_cast
        norm_num [mul_assoc]
      have whole : 0 ≤ b.exponent := hc.exponent_nonneg canonical pos (by exact_mod_cast (by omega : 2 ^ 53 ≤ c))
      rw [mul_of_contains canonical pos (by rwa [exact]) (by omega)]
    · rw [div_of_contains _ _ _ _ canonical pos]
      simpa using hc

theorem unsigned_roundWithAccuracy (m : ℕ) (e : ℤ) (acc : Accuracy) :
    Unsigned (.ofModel (.pack (roundWithAccuracy .binary64 .positive m e acc))) := by
  rw [roundWithAccuracy]
  dsimp only
  split_ifs with h
  · exact unsigned_zero
  · exact unsigned_finite _

/-- No decimal is read as a negative number or as a NaN. -/
theorem unsigned_ofScientific (c k : ℕ) : Unsigned (Float.ofScientific c true k) := by
  by_cases short : c < 2 ^ 53 ∧ k ≤ 22
  · have hk : k < Float.exactlyRepresentablePowersOfTen.size := by rw [size_powersOfTen]; omega
    have partsTen := unpack_of_decode (decode_powerOfTen k hk) rfl
      (Binary.significand_ofNat_pos (Nat.pow_pos (by decide)) (five_pow_lt short.2))
    rw [ofScientific_short short hk]
    change Unsigned (.ofModel (.pack (UnpackedFloat.div .binary64 _ _)))
    rcases Nat.eq_zero_or_pos c with rfl | hc
    · rw [partsTen]
      exact unsigned_zero
    · rw [unpack_of_decode (decode_toFloat hc short.1) rfl (Binary.significand_ofNat_pos hc short.1), partsTen]
      exact unsigned_roundWithAccuracy _ _ _
  · rw [ofScientific_long short]
    unfold UnpackedFloat.ofScientific
    split_ifs
    · exact unsigned_zero
    · exact unsigned_infinity
    · exact unsigned_zero
    · exact unsigned_roundWithAccuracy _ _ _
    · exact unsigned_roundWithAccuracy _ _ _

/-- A whole number of up to 53 bits becomes a double exactly. -/
theorem decode_ofInt {n : ℕ} (pos : 0 < n) (hn : n < 2 ^ 53) : decode (ofInt n) = .finite (.ofNat n) := by
  have hk : 0 < Float.exactlyRepresentablePowersOfTen.size := by decide
  have product : ofInt n = n.toUInt64.toFloat * Float.exactlyRepresentablePowersOfTen[0] := by
    change Float.ofScientific n false 0 = _
    rw [Float.ofScientific, dif_pos ⟨hn, by decide⟩]
    rfl
  have canonical := Binary.canonical_ofNat pos hn
  have hsig := Binary.significand_ofNat_pos pos hn
  have one := unpack_of_decode (decode_powerOfTen 0 hk) rfl (by decide)
  rw [product]
  change decode (.ofModel (.pack (UnpackedFloat.mul .binary64 _ _))) = _
  have exact : ((Binary.ofNat n).significand : ℚ) * (Binary.ofNat (5 ^ 0)).significand *
      2 ^ ((Binary.ofNat n).exponent + ((Binary.ofNat (5 ^ 0)).exponent + (0 : ℕ))) = (Binary.ofNat n).magnitude := by
    rw [zpow_add₀ two_ne_zero, mul_mul_mul_comm, magnitude_powerOfTen (Nat.zero_le _), pow_zero, mul_one]
    rfl
  rw [unpack_of_decode (decode_toFloat pos hn) rfl hsig, one, mul_of_contains canonical hsig]
  · exact decode_pack canonical rfl hsig
  · rw [exact]
    exact Binary.contains_magnitude hsig
  · change _ + (-52 : ℤ) < _
    omega

theorem Binary.whole_ofNat {n : ℕ} (pos : 0 < n) (hn : n < 2 ^ 53) : (ofNat n).whole = n := by
  have hlog : n.log2 < 53 := (Nat.log2_lt pos.ne').2 hn
  have places : (ofNat n).exponent.natAbs = 52 - n.log2 := by dsimp only [ofNat]; omega
  rw [whole, places]
  split_ifs with h
  · exact Nat.mul_div_cancel _ (Nat.two_pow_pos _)
  · have : 52 - n.log2 = 0 := by dsimp only [ofNat] at h; omega
    simp [ofNat, this, twoTo]

theorem toWord_ofInt {n : ℕ} (hn : n < 2 ^ 53) : toWord (ofInt n) = n := by
  rcases Nat.eq_zero_or_pos n with rfl | pos
  · decide +kernel
  · rw [toWord, decode_ofInt pos hn]
    change clampWord (Binary.ofNat n).whole = _
    rw [Binary.whole_ofNat pos hn, clampWord, wordMin, wordMax]
    omega

end Scriptlet.Number
