import Scriptlet.Proofs.Lexemes
import Scriptlet.Proofs.ShortestDigits

/-!
# The texts of numbers

In a printed tree a whole number shows all its digits and every other number the fewest digits that read back. For a
finite number that is not negative this text is a numeral, and the numeral stands for the number.
-/
namespace Scriptlet.Number

open Piece

/-! ## Rows of digits -/

theorem digitsValue_eq (cs : List Char) : digitsValue cs = Nat.ofDigitChars 10 cs 0 := by
  rw [Nat.ofDigitChars_eq_foldl]
  rfl

theorem isDigit_eq (c : Char) : isDigit c = c.isDigit := by
  simp only [isDigit, Char.isDigit]
  rfl

theorem of_isDigit_toString (n : ℕ) : Of isDigit (toString n).toList := by
  intro c hc
  rw [isDigit_eq]
  rw [Nat.toString_eq_repr, Nat.toList_repr] at hc
  exact Nat.isDigit_of_mem_toDigits (by decide) (by decide) hc

theorem toString_ne_nil (n : ℕ) : (toString n).toList ≠ [] := by
  rw [Nat.toString_eq_repr, Nat.toList_repr]
  exact Nat.toDigits_ne_nil

theorem digitsValue_toString (n : ℕ) : digitsValue (toString n).toList = n := by
  simp [digitsValue_eq]

theorem of_isDigit_zeros (n : ℕ) : Of isDigit (zeros n).toList := by
  intro c hc
  rw [zeros, String.toList_ofList] at hc
  rw [List.eq_of_mem_replicate hc]
  rfl

theorem digitsValue_append_zeros (cs : List Char) (n : ℕ) :
    digitsValue (cs ++ (zeros n).toList) = digitsValue cs * 10 ^ n := by
  simp [digitsValue_eq, zeros, Nat.ofDigitChars_append, Nat.mul_comm]

theorem digitsValue_zeros_append (cs : List Char) (n : ℕ) :
    digitsValue ((zeros n).toList ++ cs) = digitsValue cs := by
  simp [digitsValue_eq, zeros, Nat.ofDigitChars_append]

/-! ## Where the point stands -/

section Placing

variable {d : Decimal}

theorem toList_positional_whole (hd : d.digits ≠ 0) (hplace : 0 ≤ d.place) :
    (d.positional false).toList = (toString d.digits).toList ++ (zeros d.place.natAbs).toList := by
  unfold Decimal.positional
  dsimp only
  rw [if_pos hplace, if_neg (by simpa using hd), if_neg Bool.false_ne_true, String.toList_append,
    String.toList_append, String.toList_empty, List.append_nil]

theorem toList_positional_below (hplace : d.place < 0) (hlength : (toString d.digits).toList.length ≤ d.place.natAbs) :
    (d.positional false).toList = ['0'] ++ '.' ::
      ((zeros (d.place.natAbs - (toString d.digits).toList.length)).toList ++ (toString d.digits).toList) := by
  unfold Decimal.positional
  dsimp only
  rw [String.length_toList] at hlength ⊢
  rw [if_neg (not_le.2 hplace), if_pos hlength, String.toList_append, String.toList_append]
  simp

theorem toList_positional_inside (hplace : d.place < 0)
    (hlength : d.place.natAbs < (toString d.digits).toList.length) :
    (d.positional false).toList =
      (toString d.digits).toList.take ((toString d.digits).toList.length - d.place.natAbs) ++ '.' ::
        (toString d.digits).toList.drop ((toString d.digits).toList.length - d.place.natAbs) := by
  unfold Decimal.positional
  dsimp only
  rw [← String.length_toList, if_neg (not_le.2 hplace), if_neg (not_le.2 hlength), String.toList_append,
    String.toList_append]
  simp

end Placing

/-! ## Numerals of doubles -/

section Numerals

variable {x : Float} {b : Binary} (h : decode x = .finite b) (hn : b.negative = false) (pos : 0 < b.significand)
include h hn pos

theorem numeral_whole {cs : List Char} (hne : cs ≠ []) (hcs : Of isDigit cs)
    (hc : b.rounding.Contains (digitsValue cs)) : Numeral cs x := by
  have read : ofDecimal cs [] = x := ofScientific_of_contains h hn pos (by simpa using hc)
  rw [← read]
  exact .whole hne hcs

theorem numeral_decimal {whole fraction : List Char} (hne : whole ≠ []) (hwhole : Of isDigit whole)
    (hfne : fraction ≠ []) (hfraction : Of isDigit fraction)
    (hc : b.rounding.Contains (digitsValue (whole ++ fraction) / 10 ^ fraction.length)) :
    Numeral (whole ++ '.' :: fraction) x := by
  have read : ofDecimal whole fraction = x := ofScientific_of_contains h hn pos hc
  rw [← read]
  exact .decimal hne hwhole hfne hfraction

/-- The written digits, with the point at its place, read back. -/
theorem numeral_positional {d : Decimal} (hd : b.rounding.Contains d.value) :
    Numeral (d.positional false).toList x := by
  have digits : d.digits ≠ 0 := by
    intro zero
    have least := hd.le (decode_finite h).1 pos
    rw [Decimal.value, zero, Nat.cast_zero, zero_mul] at least
    exact absurd least (not_le.2 (by positivity))
  have nonempty := toString_ne_nil d.digits
  have row := of_isDigit_toString d.digits
  have value := digitsValue_toString d.digits
  rcases le_or_gt 0 d.place with hplace | hplace
  · have places : (10 : ℚ) ^ d.place = 10 ^ d.place.natAbs := by
      rw [← zpow_natCast, Int.natAbs_of_nonneg hplace]
    rw [toList_positional_whole digits hplace]
    refine numeral_whole h hn pos (List.append_ne_nil_of_left_ne_nil nonempty _) ?_ ?_
    · exact List.forall_mem_append.2 ⟨row, of_isDigit_zeros _⟩
    · rw [digitsValue_append_zeros, value]
      push_cast
      rwa [← places]
  · have places : d.value = d.digits / 10 ^ d.place.natAbs := by
      rw [Decimal.value, ← zpow_natCast, Int.ofNat_natAbs_of_nonpos hplace.le, zpow_neg, div_inv_eq_mul]
    rw [places] at hd
    rcases le_or_gt (toString d.digits).toList.length d.place.natAbs with below | inside
    · rw [toList_positional_below hplace below]
      refine numeral_decimal h hn pos (by simp) (by simp [Of, isDigit]) ?_ ?_ ?_
      · exact List.append_ne_nil_of_right_ne_nil _ nonempty
      · exact List.forall_mem_append.2 ⟨of_isDigit_zeros _, row⟩
      · have zero : ['0'] = (zeros 1).toList := by simp [zeros]
        have size : (zeros (d.place.natAbs - (toString d.digits).toList.length)).toList.length =
            d.place.natAbs - (toString d.digits).toList.length := by simp [zeros]
        rw [zero, digitsValue_zeros_append, digitsValue_zeros_append, value, List.length_append, size,
          Nat.sub_add_cancel below]
        exact hd
    · rw [toList_positional_inside hplace inside]
      refine numeral_decimal h hn pos ?_ ?_ ?_ ?_ ?_
      · simp only [ne_eq, List.take_eq_nil_iff, nonempty, or_false]
        omega
      · exact fun c hc => row c (List.mem_of_mem_take hc)
      · simp only [ne_eq, List.drop_eq_nil_iff]
        omega
      · exact fun c hc => row c (List.mem_of_mem_drop hc)
      · rw [List.take_append_drop, value, List.length_drop, Nat.sub_sub_self inside.le]
        exact hd

end Numerals

theorem Binary.magnitude_of_isWhole {b : Binary} (h : b.isWhole = true) : b.magnitude = b.whole := by
  unfold isWhole at h
  unfold magnitude whole
  split_ifs with negative
  · have divides : 2 ^ b.exponent.natAbs ∣ b.significand := by
      rw [Bool.or_eq_true, decide_eq_true_iff, beq_iff_eq] at h
      exact Nat.dvd_of_mod_eq_zero (h.resolve_left (not_le.2 negative))
    have exact : ((b.significand / 2 ^ b.exponent.natAbs : ℕ) : ℚ) * 2 ^ b.exponent.natAbs = b.significand := by
      exact_mod_cast Nat.div_mul_cancel divides
    change _ = ((b.significand / 2 ^ b.exponent.natAbs : ℕ) : ℚ)
    rw [← exact, mul_assoc, ← zpow_natCast, ← zpow_add₀ two_ne_zero, Int.ofNat_natAbs_of_nonpos negative.le,
      neg_add_cancel, zpow_zero, mul_one]
  · rw [Nat.cast_mul, ← Int.natAbs_of_nonneg (not_lt.1 negative), zpow_natCast]
    norm_cast

theorem eq_ofDecimal_zero {x : Float} {b : Binary} (h : decode x = .finite b) (hn : b.negative = false)
    (zero : b.significand = 0) : ofDecimal ['0'] ['0'] = x := by
  obtain ⟨canonical, bits⟩ := decode_finite h
  have least : b.exponent = -1074 := canonical.full.resolve_left (by omega)
  refine Float.toBits_inj.1 (UInt64.toNat_inj.1 ?_)
  rw [bits, hn, Binary.bits, zero, least]
  decide +kernel

/-- A number that is finite and not negative is printed as a numeral of this number. -/
theorem numeral_treeText {x : Float} {b : Binary} (h : decode x = .finite b) (hn : b.negative = false) :
    Numeral (treeText x).toList x := by
  unfold treeText
  rw [h]
  dsimp only
  rw [hn, if_neg Bool.false_ne_true]
  rcases Nat.eq_zero_or_pos b.significand with zero | pos
  · have whole : b.isWhole = true := by simp [Binary.isWhole, zero]
    have nothing : b.whole = 0 := by simp [Binary.whole, zero]
    rw [if_pos whole, nothing, ← eq_ofDecimal_zero h hn zero]
    have digit : Of isDigit ['0'] := by simp [Of, isDigit]
    exact Numeral.decimal (List.cons_ne_nil '0' []) digit (List.cons_ne_nil '0' []) digit
  · split_ifs with whole
    · have text : ("" ++ toString b.whole ++ ".0").toList = (toString b.whole).toList ++ '.' :: ['0'] := by simp
      have point : ['0'] = (zeros 1).toList := by simp [zeros]
      rw [text]
      refine numeral_decimal h hn pos (toString_ne_nil _) (of_isDigit_toString _) (by simp) (by simp [Of, isDigit]) ?_
      have value : ((digitsValue ((toString b.whole).toList ++ ['0']) : ℕ) : ℚ) / 10 ^ (['0'] : List Char).length =
          b.magnitude := by
        rw [Binary.magnitude_of_isWhole whole, point, digitsValue_append_zeros, digitsValue_toString, ← point]
        simp
      rw [value]
      exact Binary.contains_magnitude pos
    · have text : plain.write x = (b.shortest .upward).positional false := by
        unfold Layout.write
        rw [h]
        simp [plain, hn]
      rw [text]
      exact numeral_positional h hn pos (Binary.contains_shortest (decode_finite h).1 pos _)

theorem treeText_infinite {x : Float} (h : decode x = .infinite false) : treeText x = "inf" := by
  unfold treeText Layout.write
  rw [h]
  rfl

end Scriptlet.Number
