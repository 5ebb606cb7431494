import Scriptlet.Proofs.DecimalReading

/-!
# The digits that a double is written with

The search for the fewest digits always ends on a grid of decimals that has a point in the interval of the double. So
what is found reads back as the double.
-/
namespace Scriptlet.Number

/-- The rational that a decimal stands for. -/
def Decimal.value (d : Decimal) : ℚ := d.digits * 10 ^ d.place

theorem Decimal.value_trim (n : ℕ) (d : Decimal) : (d.trim n).value = d.value := by
  induction n generalizing d with
  | zero => rfl
  | succ n ih =>
    rw [trim]
    split_ifs with h
    · have whole : ((d.digits / 10 : ℕ) : ℚ) * 10 = d.digits := by
        simp only [Bool.and_eq_true, bne_iff_ne, beq_iff_eq] at h
        exact_mod_cast Nat.div_mul_cancel (Nat.dvd_of_mod_eq_zero h.2)
      rw [ih, value, value, zpow_add₀ (by norm_num), zpow_one, ← whole]
      ring
    · rfl

/-! ## One grid -/

section Grid

variable (r : Rounding) (place : ℤ)

/-- The two sides are scaled alike. -/
theorem Rounding.scale_eq : ∃ k : ℚ, 0 < k ∧ ((r.scale place).factor : ℚ) = 2 ^ r.exponent * k ∧
    ((r.scale place).unit : ℚ) = 10 ^ place * k := by
  have split (a : ℚ) (ha : 0 < a) (n : ℤ) : ∃ k : ℚ, 0 < k ∧ (if n < 0 then 1 else a ^ n.natAbs) = a ^ n * k ∧
      (if n < 0 then a ^ n.natAbs else 1) = k := by
    split_ifs with h
    · refine ⟨a ^ n.natAbs, by positivity, ?_, rfl⟩
      rw [← zpow_natCast, Int.ofNat_natAbs_of_nonpos h.le, zpow_neg, mul_inv_cancel₀ (zpow_ne_zero _ ha.ne')]
    · refine ⟨1, one_pos, ?_, rfl⟩
      rw [← zpow_natCast, Int.natAbs_of_nonneg (not_lt.1 h), mul_one]
  obtain ⟨k, hk, h₁, h₂⟩ := split 2 two_pos r.exponent
  obtain ⟨l, hl, h₃, h₄⟩ := split 10 (by norm_num) place
  refine ⟨k * l, mul_pos hk hl, ?_, ?_⟩
  · change (((if r.exponent < 0 then 1 else 2 ^ r.exponent.natAbs) *
      (if place < 0 then 10 ^ place.natAbs else 1) : ℕ) : ℚ) = _
    push_cast
    rw [h₁, h₄]
    ring
  · change (((if r.exponent < 0 then 2 ^ r.exponent.natAbs else 1) *
      (if place < 0 then 1 else 10 ^ place.natAbs) : ℕ) : ℚ) = _
    push_cast
    rw [h₂, h₃]
    ring

variable {r place}

/-- Scaled decimals and scaled bounds compare as the decimals and the bounds do. -/
theorem Rounding.lt_scaled {c n : ℕ} :
    n * (r.scale place).factor < c * (r.scale place).unit ↔ (n : ℚ) * 2 ^ r.exponent < c * 10 ^ place := by
  obtain ⟨k, hk, hf, hu⟩ := r.scale_eq place
  rw [← @Nat.cast_lt ℚ, Nat.cast_mul, Nat.cast_mul, hf, hu, ← mul_assoc, ← mul_assoc, mul_lt_mul_iff_left₀ hk]

theorem Rounding.scaled_lt {c n : ℕ} :
    c * (r.scale place).unit < n * (r.scale place).factor ↔ (c : ℚ) * 10 ^ place < n * 2 ^ r.exponent := by
  obtain ⟨k, hk, hf, hu⟩ := r.scale_eq place
  rw [← @Nat.cast_lt ℚ, Nat.cast_mul, Nat.cast_mul, hf, hu, ← mul_assoc, ← mul_assoc, mul_lt_mul_iff_left₀ hk]

/-- The test of one point of the grid, in whole numbers. -/
def Rounding.inside (r : Rounding) (place : ℤ) (c : ℕ) : Bool :=
  if r.closed then r.low * (r.scale place).factor ≤ c * (r.scale place).unit &&
    c * (r.scale place).unit ≤ r.high * (r.scale place).factor
  else r.low * (r.scale place).factor < c * (r.scale place).unit &&
    c * (r.scale place).unit < r.high * (r.scale place).factor

theorem Rounding.contains_of_inside {c : ℕ} (h : r.inside place c = true) : r.Contains (c * 10 ^ place) := by
  unfold inside at h
  split_ifs at h with closed
  · rw [Bool.and_eq_true, decide_eq_true_iff, decide_eq_true_iff, ← not_lt, ← not_lt, scaled_lt, lt_scaled, not_lt,
      not_lt] at h
    exact .inr ⟨closed, h⟩
  · rw [Bool.and_eq_true, decide_eq_true_iff, decide_eq_true_iff, scaled_lt, lt_scaled] at h
    exact .inl h

theorem Rounding.inside_of_lt {c : ℕ} (hlow : r.low * (r.scale place).factor < c * (r.scale place).unit)
    (hhigh : c * (r.scale place).unit < r.high * (r.scale place).factor) : r.inside place c = true := by
  unfold inside
  split_ifs
  · simp [hlow.le, hhigh.le]
  · simp [hlow, hhigh]

theorem Rounding.contains_of_onGrid? {tie : Tie} {c : ℕ} (h : r.onGrid? tie place = some c) :
    r.Contains (c * 10 ^ place) := by
  refine contains_of_inside ?_
  unfold onGrid? at h
  dsimp only at h
  split at h
  · cases h
  · rename_i below _
    cases h
    exact below
  · rename_i _ above
    cases h
    exact above
  · rename_i below above
    -- whichever neighbour is nearer, both are inside
    obtain rfl | rfl : c = r.middle * (r.scale place).factor / (r.scale place).unit ∨
        c = r.middle * (r.scale place).factor / (r.scale place).unit + 1 := by
      split_ifs at h <;> cases tie <;> cases h <;> simp
    · exact below
    · exact above

/-- On a grid finer than half of the last place the next point above is near enough. -/
theorem Rounding.onGrid?_ne_none {tie : Tie} (hlow : r.low < r.middle) (hhigh : r.high = r.middle + 2)
    (fine : (10 : ℚ) ^ place < 2 * 2 ^ r.exponent) : r.onGrid? tie place ≠ none := by
  have fine' : 1 * (r.scale place).unit < 2 * (r.scale place).factor := scaled_lt.2 (by simpa using fine)
  have next : r.inside place (r.middle * (r.scale place).factor / (r.scale place).unit + 1) = true := by
    have pos : 0 < (r.scale place).factor := by omega
    have unit : 0 < (r.scale place).unit := by
      obtain ⟨k, hk, -, hu⟩ := r.scale_eq place
      have : (0 : ℚ) < (r.scale place).unit := by rw [hu]; positivity
      exact_mod_cast this
    have lower := Nat.lt_div_mul_add unit (a := r.middle * (r.scale place).factor)
    have upper := Nat.div_mul_le_self (r.middle * (r.scale place).factor) (r.scale place).unit
    refine inside_of_lt ?_ ?_
    · have := Nat.mul_le_mul_right (r.scale place).factor hlow.le
      rw [Nat.add_mul]
      omega
    · rw [hhigh, Nat.add_mul, Nat.add_mul]
      omega
  unfold onGrid?
  dsimp only
  intro h
  split at h
  · rename_i _ above
    exact absurd (next.symm.trans above) (by simp)
  · cases h
  · cases h
  · split_ifs at h <;> cases tie <;> cases h

end Grid

/-! ## The search -/

/-- The search ends at the latest on the last of its grids. -/
theorem Rounding.contains_search {r : Rounding} {tie : Tie} {n : ℕ} {place : ℤ}
    (last : r.onGrid? tie (place - n) ≠ none) : r.Contains (r.search tie (n + 1) place).value := by
  induction n generalizing place with
  | zero =>
    rw [search]
    split
    · rename_i c found
      rw [Decimal.value_trim]
      exact contains_of_onGrid? found
    · rename_i missing
      exact absurd missing (by simpa using last)
  | succ n ih =>
    rw [search]
    split
    · rename_i c found
      rw [Decimal.value_trim]
      exact contains_of_onGrid? found
    · refine ih ?_
      rwa [sub_sub, add_comm (1 : ℤ), ← Nat.cast_succ]

theorem ten_pow_le_two_pow {m n : ℕ} (h : 196 * n ≤ 59 * m) : 10 ^ n ≤ 2 ^ m := by
  refine (Nat.pow_le_pow_iff_left (show 59 ≠ 0 by decide)).1 ?_
  calc (10 ^ n) ^ 59 = (10 ^ 59) ^ n := by rw [← pow_mul, ← pow_mul, mul_comm]
    _ ≤ (2 ^ 196) ^ n := Nat.pow_le_pow_left (by decide) n
    _ = 2 ^ (196 * n) := (pow_mul ..).symm
    _ ≤ 2 ^ (m * 59) := Nat.pow_le_pow_right (by decide) (by omega)
    _ = (2 ^ m) ^ 59 := pow_mul ..

theorem two_pow_le_ten_pow {m n : ℕ} (h : 28 * m ≤ 93 * n) : 2 ^ m ≤ 10 ^ n := by
  refine (Nat.pow_le_pow_iff_left (show 93 ≠ 0 by decide)).1 ?_
  calc (2 ^ m) ^ 93 = (2 ^ 93) ^ m := by rw [← pow_mul, ← pow_mul, mul_comm]
    _ ≤ (10 ^ 28) ^ m := Nat.pow_le_pow_left (by decide) m
    _ = 10 ^ (28 * m) := (pow_mul ..).symm
    _ ≤ 10 ^ (n * 93) := Nat.pow_le_pow_right (by decide) (by omega)
    _ = (10 ^ n) ^ 93 := pow_mul ..

/-- The estimate of the leading place is at most one too large: in the range of doubles `30103 / 100000` is near enough
to the logarithm of two. -/
theorem ten_zpow_estimate_le {e : ℤ} (hleast : -1074 ≤ e) (hgreatest : e ≤ 1023) :
    (10 : ℚ) ^ (Int.fdiv (e * 30103) 100000 - 1) ≤ 2 ^ e := by
  have floor : Int.fdiv (e * 30103) 100000 * 100000 ≤ e * 30103 := by
    have := Int.mul_fdiv_add_fmod (e * 30103) 100000
    have := Int.fmod_nonneg_of_pos (e * 30103) (show (0 : ℤ) < 100000 by decide)
    omega
  generalize hplace : Int.fdiv (e * 30103) 100000 - 1 = p
  rcases le_total 0 p with hp | hp
  · obtain ⟨n, rfl⟩ := Int.eq_ofNat_of_zero_le hp
    obtain ⟨m, rfl⟩ := Int.eq_ofNat_of_zero_le (show 0 ≤ e by omega)
    rw [zpow_natCast, zpow_natCast]
    exact_mod_cast ten_pow_le_two_pow (by omega)
  · rcases le_total 0 e with he | he
    · exact (zpow_le_one_of_nonpos₀ (by norm_num) hp).trans (one_le_zpow₀ one_le_two he)
    · obtain ⟨n, hn⟩ := Int.eq_ofNat_of_zero_le (show 0 ≤ -p by omega)
      obtain ⟨m, hm⟩ := Int.eq_ofNat_of_zero_le (show 0 ≤ -e by omega)
      have powers : (2 : ℚ) ^ m ≤ 10 ^ n := by exact_mod_cast two_pow_le_ten_pow (by omega)
      rw [← neg_neg p, ← neg_neg e, hn, hm, zpow_neg, zpow_neg, zpow_natCast, zpow_natCast]
      exact inv_anti₀ (by positivity) powers

/-- The comparison of a double with a power of ten, in whole numbers. -/
theorem Binary.ten_zpow_le_magnitude_iff {b : Binary} {place : ℤ} :
    (if b.exponent < 0 then twoTo b.exponent.natAbs else 1) * (if place < 0 then 1 else tenTo place.natAbs) ≤
        b.significand * (if b.exponent < 0 then 1 else twoTo b.exponent.natAbs) *
          (if place < 0 then tenTo place.natAbs else 1) ↔
      (10 : ℚ) ^ place ≤ b.magnitude := by
  have scaled := @Rounding.lt_scaled ⟨0, 0, 0, false, b.exponent⟩ place 1 b.significand
  rw [one_mul, Nat.cast_one, one_mul] at scaled
  rw [← not_iff_not, not_le, not_le, mul_assoc]
  exact scaled

theorem Binary.ten_zpow_leadingPlace_le {b : Binary} (hb : b.Canonical) (pos : 0 < b.significand) :
    (10 : ℚ) ^ b.leadingPlace ≤ b.magnitude := by
  unfold leadingPlace
  dsimp only
  simp only [ten_zpow_le_magnitude_iff]
  split_ifs with low high
  · have log : b.significand.log2 < 53 := (Nat.log2_lt pos.ne').2 hb.significand_lt
    have := hb.least
    have := hb.greatest
    refine (ten_zpow_estimate_le (by omega) (by omega)).trans ?_
    rw [zpow_add₀ two_ne_zero]
    exact mul_le_mul_of_nonneg_right (two_zpow_log2_le pos) (by positivity)
  · simpa using high
  · simpa using low

/-- What a double is written with reads back as it. -/
theorem Binary.contains_shortest {b : Binary} (hb : b.Canonical) (pos : 0 < b.significand) (tie : Tie) :
    b.rounding.Contains (b.shortest tie).value := by
  rw [shortest, if_neg (by simpa using pos.ne')]
  refine Rounding.contains_search (Rounding.onGrid?_ne_none ?_ rfl ?_)
  · have : (b.rounding.low : ℚ) < (4 * b.significand : ℕ) := by
      push_cast
      rcases low_cases pos with ⟨-, -, h⟩ | ⟨-, h⟩ <;> linarith
    exact_mod_cast this
  · have leading := ten_zpow_leadingPlace_le hb pos
    have hs : (b.significand : ℚ) < 2 ^ 53 := by exact_mod_cast hb.significand_lt
    have unit : (0 : ℚ) < 2 ^ b.exponent := by positivity
    calc (10 : ℚ) ^ (b.leadingPlace - digitLimit) = 10 ^ b.leadingPlace / 10 ^ 17 := by
          rw [zpow_sub₀ (by norm_num)]
          rfl
      _ ≤ b.significand * 2 ^ b.exponent / 10 ^ 17 := by
          gcongr
          exact leading
      _ < 2 ^ b.exponent / 2 := by
          rw [div_lt_div_iff₀ (by norm_num) (by norm_num)]
          nlinarith
      _ = 2 * 2 ^ b.rounding.exponent := by
          change _ = 2 * (2 : ℚ) ^ (b.exponent - 2)
          rw [zpow_sub₀ two_ne_zero]
          norm_num
          ring

end Scriptlet.Number
