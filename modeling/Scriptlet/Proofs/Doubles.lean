import Scriptlet.Number.Layout
import Mathlib

/-!
# The bits of doubles

A finite double is decoded into its significand and its exponent. These parts fix its bits again, and they are what
the arithmetic of doubles works with.
-/
namespace Scriptlet.Number

open Float.Model Float.Model.UnpackedFloat

/-- The parts are those of a double: the significand has all its bits, unless the exponent is the least one. -/
structure Binary.Canonical (b : Binary) : Prop where
  significand_lt : b.significand < 2 ^ 53
  least : -1074 ≤ b.exponent
  greatest : b.exponent ≤ 971
  full : 2 ^ 52 ≤ b.significand ∨ b.exponent = -1074

/-- The bits of the magnitude. -/
def Binary.bits (b : Binary) : Nat := (b.exponent + 1074).toNat * 2 ^ 52 + b.significand

/-- Sign, scale and fraction stand next to each other. -/
theorem decode_eq {x : Float} {sign scale fraction : Nat} (hscale : scale < 2 ^ 11)
    (hfraction : fraction < 2 ^ 52) (hx : x.toBits.toNat = sign * 2 ^ 63 + scale * 2 ^ 52 + fraction) :
    decode x =
      if scale = 2047 then if fraction = 0 then .infinite (sign == 1) else .nan
      else if scale = 0 then .finite ⟨sign == 1, fraction, -1074⟩
      else .finite ⟨sign == 1, 2 ^ 52 + fraction, -1074 + (scale - 1 : Nat)⟩ := by
  have h₁ : x.toBits.toNat / 2 ^ 63 = sign := by omega
  have h₂ : x.toBits.toNat / 2 ^ 52 % 2 ^ 11 = scale := by omega
  have h₃ : x.toBits.toNat % 2 ^ 52 = fraction := by omega
  unfold decode
  change (if (x.toBits.toNat / 2 ^ 52 % 2 ^ 11 == 2047) = true then
      if (x.toBits.toNat % 2 ^ 52 == 0) = true then Decoded.infinite (x.toBits.toNat / 2 ^ 63 == 1) else Decoded.nan
    else
      if (x.toBits.toNat / 2 ^ 52 % 2 ^ 11 == 0) = true then
        Decoded.finite ⟨x.toBits.toNat / 2 ^ 63 == 1, x.toBits.toNat % 2 ^ 52, -1074⟩
      else
        Decoded.finite ⟨x.toBits.toNat / 2 ^ 63 == 1, 2 ^ 52 + x.toBits.toNat % 2 ^ 52,
            -1074 + (x.toBits.toNat / 2 ^ 52 % 2 ^ 11 - 1 : Nat)⟩) = _
  rw [h₁, h₂, h₃]
  simp only [beq_iff_eq]

theorem decode_finite {x : Float} {b : Binary} (h : decode x = .finite b) :
    b.Canonical ∧ x.toBits.toNat = (if b.negative then 2 ^ 63 else 0) + b.bits := by
  have size : x.toBits.toNat < 2 ^ 64 := x.toBits.toNat_lt
  obtain ⟨sign, scale, fraction, hsign, hscale, hfraction, hx⟩ : ∃ sign scale fraction, sign ≤ 1 ∧ scale < 2 ^ 11 ∧
      fraction < 2 ^ 52 ∧ x.toBits.toNat = sign * 2 ^ 63 + scale * 2 ^ 52 + fraction :=
    ⟨x.toBits.toNat / 2 ^ 63, x.toBits.toNat / 2 ^ 52 % 2 ^ 11, x.toBits.toNat % 2 ^ 52, by omega, by omega, by omega,
      by omega⟩
  have hneg : (if (sign == 1) = true then 2 ^ 63 else 0) = sign * 2 ^ 63 := by
    obtain rfl | rfl : sign = 0 ∨ sign = 1 := by omega
    · rfl
    · rfl
  rw [decode_eq hscale hfraction hx] at h
  split_ifs at h with h₁ h₂ h₃
  · subst h₃
    cases h
    refine ⟨⟨?_, le_refl _, by simp, .inr rfl⟩, ?_⟩
    · exact hfraction.trans (by decide)
    · rw [hneg, hx, Binary.bits]
      simp
  · cases h
    have exponent : (-1074 + ((scale - 1 : Nat) : Int) + 1074).toNat = scale - 1 := by omega
    refine ⟨⟨?_, ?_, ?_, .inl (Nat.le_add_right _ _)⟩, ?_⟩
    · change 2 ^ 52 + fraction < 2 ^ 53
      omega
    · change -1074 ≤ -1074 + ((scale - 1 : Nat) : Int)
      omega
    · change -1074 + ((scale - 1 : Nat) : Int) ≤ 971
      omega
    · rw [hneg, hx, Binary.bits, exponent]
      change sign * 2 ^ 63 + scale * 2 ^ 52 + fraction = sign * 2 ^ 63 + ((scale - 1) * 2 ^ 52 + (2 ^ 52 + fraction))
      omega

/-! ## From parts to bits -/

theorem toNat_packComponents (exponent : BitVec 11) (mantissa : BitVec 52) :
    (packComponents .binary64 .positive exponent mantissa).toNat = exponent.toNat * 2 ^ 52 + mantissa.toNat := by
  have h := mantissa.isLt
  rw [packComponents, BitVec.toNat_append, BitVec.toNat_append]
  change (0 <<< 11 ||| exponent.toNat) <<< 52 ||| mantissa.toNat = _
  rw [Nat.zero_shiftLeft, Nat.zero_or, ← Nat.shiftLeft_add_eq_or_of_lt h, Nat.shiftLeft_eq]

theorem toBits_pack (u : UnpackedFloat) :
    (Float.ofModel (.pack u)).toBits.toNat = (UnpackedFloat.pack .binary64 u).toNat := rfl

/-- The bits of a positive double, given by its significand and exponent. -/
theorem toBits_finite {b : Binary} (hb : b.Canonical) (pos : 0 < b.significand) :
    (Float.ofModel (.pack (.finite .positive b.significand b.exponent pos))).toBits.toNat = b.bits := by
  obtain ⟨hlt, hleast, hgreatest, hfull⟩ := hb
  rw [toBits_pack, UnpackedFloat.pack]
  have bias : (b.exponent + (Format.exponentBias .binary64 : Nat) + (52 : Nat)).toNat = (b.exponent + 1075).toNat := by
    have : Format.exponentBias .binary64 = 1023 := rfl
    rw [this]
    omega
  dsimp only
  rw [bias, if_neg (by omega)]
  change (if b.significand.log2 + 1 = 53 then
    packComponents .binary64 .positive (BitVec.ofNat 11 (b.exponent + 1075).toNat) (BitVec.ofNat 52 b.significand)
    else packComponents .binary64 .positive 0#11 (BitVec.ofNat 52 b.significand)).toNat = _
  by_cases hnormal : 2 ^ 52 ≤ b.significand
  · have log : b.significand.log2 = 52 := (Nat.log2_eq_iff pos.ne').2 ⟨hnormal, hlt⟩
    rw [if_pos (by rw [log]), toNat_packComponents, BitVec.toNat_ofNat, BitVec.toNat_ofNat, Binary.bits]
    omega
  · have log : b.significand.log2 < 52 := (Nat.log2_lt pos.ne').2 (Nat.lt_of_not_le hnormal)
    rw [if_neg (by omega), toNat_packComponents, BitVec.toNat_ofNat, BitVec.toNat_ofNat, Binary.bits]
    omega

theorem eq_pack_of_decode {x : Float} {b : Binary} (h : decode x = .finite b) (hn : b.negative = false)
    (pos : 0 < b.significand) : x = .ofModel (.pack (.finite .positive b.significand b.exponent pos)) := by
  obtain ⟨canonical, hx⟩ := decode_finite h
  refine Float.toBits_inj.1 (UInt64.toNat_inj.1 ?_)
  rw [toBits_finite canonical, hx, hn]
  simp

theorem decode_pack {b : Binary} (hb : b.Canonical) (hn : b.negative = false) (pos : 0 < b.significand) :
    decode (.ofModel (.pack (.finite .positive b.significand b.exponent pos))) = .finite b := by
  have bits := toBits_finite hb pos
  obtain ⟨negative, significand, exponent⟩ := b
  obtain ⟨hlt, hleast, hgreatest, hfull⟩ := hb
  subst hn
  dsimp only [Binary.bits] at *
  by_cases hnormal : 2 ^ 52 ≤ significand
  · rw [@decode_eq _ 0 (exponent + 1075).toNat (significand - 2 ^ 52) (by omega) (by omega) (by rw [bits]; omega),
      if_neg (by omega), if_neg (by omega)]
    have same : 2 ^ 52 + (significand - 2 ^ 52) = significand := by omega
    have exponent_eq : -1074 + (((exponent + 1075).toNat - 1 : Nat) : Int) = exponent := by omega
    rw [same, exponent_eq]
    simp
  · obtain rfl := hfull.resolve_left hnormal
    rw [@decode_eq _ 0 0 significand (by omega) (by omega) (by rw [bits]; omega)]
    rfl

/-- A double that is neither a NaN nor below zero. -/
def Unsigned (x : Float) : Prop :=
  decode x = .infinite false ∨ ∃ b, decode x = .finite b ∧ b.negative = false

theorem unsigned_of_toBits {x : Float} {scale fraction : Nat} (hscale : scale < 2047) (hfraction : fraction < 2 ^ 52)
    (hx : x.toBits.toNat = scale * 2 ^ 52 + fraction) : Unsigned x := by
  have decoded := @decode_eq x 0 scale fraction (by omega) hfraction (by rw [hx]; omega)
  rw [if_neg (by omega)] at decoded
  split_ifs at decoded
  · exact .inr ⟨_, decoded, rfl⟩
  · exact .inr ⟨_, decoded, rfl⟩

theorem unsigned_zero : Unsigned (.ofModel (.pack (.zero .positive))) :=
  .inr ⟨⟨false, 0, -1074⟩, by decide +kernel, rfl⟩

theorem unsigned_infinity : Unsigned (.ofModel (.pack (.infinity .positive))) := .inl (by decide +kernel)

theorem unsigned_finite {m : Nat} {e : Int} (pos : 0 < m) :
    Unsigned (.ofModel (.pack (.finite .positive m e pos))) := by
  have bits := toBits_pack (.finite .positive m e pos)
  rw [UnpackedFloat.pack] at bits
  dsimp only at bits
  split_ifs at bits with hlarge hnormal
  · have : Float.ofModel (.pack (.finite .positive m e pos)) = .ofModel (.pack (.infinity .positive)) :=
      Float.toBits_inj.1 (UInt64.toNat_inj.1 bits)
    rw [this]
    exact unsigned_infinity
  · rw [toNat_packComponents] at bits
    refine unsigned_of_toBits ?_ (BitVec.isLt _) bits
    rw [BitVec.toNat_ofNat]
    change ¬ 2 ^ 11 ≤ _ at hlarge
    omega
  · rw [toNat_packComponents] at bits
    exact unsigned_of_toBits (by decide) (BitVec.isLt _) bits

/-! ## From bits to parts -/

section Unpacking

variable (x : Float)

theorem toNat_unpackExponent :
    (@unpackExponent .binary64 x.toBits.toBitVec).toNat = x.toBits.toNat / 2 ^ 52 % 2 ^ 11 := by
  rw [unpackExponent, BitVec.toNat_cast, BitVec.extractLsb_toNat, Nat.shiftRight_eq_div_pow]
  rfl

theorem toNat_unpackMantissa :
    (@unpackMantissa .binary64 x.toBits.toBitVec).toNat = x.toBits.toNat % 2 ^ 52 := by
  rw [unpackMantissa, BitVec.toNat_cast, BitVec.extractLsb_toNat, Nat.shiftRight_eq_div_pow]
  change x.toBits.toNat / 2 ^ 0 % 2 ^ 52 = _
  rw [Nat.pow_zero, Nat.div_one]

theorem toNat_unpackSign :
    (@unpackSign .binary64 x.toBits.toBitVec).toNat = x.toBits.toNat / 2 ^ 63 % 2 := by
  rw [unpackSign, BitVec.toNat_cast, BitVec.extractLsb_toNat, Nat.shiftRight_eq_div_pow]
  rfl

end Unpacking

theorem finite_congr {sign : Sign} {s s' : Nat} {e e' : Int} {pos : 0 < s} {pos' : 0 < s'} (hs : s = s')
    (he : e = e') : UnpackedFloat.finite sign s e pos = .finite sign s' e' pos' := by
  subst hs he
  rfl

theorem unpack_of_decode {x : Float} {b : Binary} (h : decode x = .finite b) (hn : b.negative = false)
    (pos : 0 < b.significand) : x.toModel.unpack = .finite .positive b.significand b.exponent pos := by
  obtain ⟨⟨hlt, hleast, hgreatest, hfull⟩, hx⟩ := decode_finite h
  rw [hn, if_neg (by simp), Nat.zero_add, Binary.bits] at hx
  have hexponent := toNat_unpackExponent x
  have hmantissa := toNat_unpackMantissa x
  have hsign := toNat_unpackSign x
  rw [hx] at hexponent hmantissa hsign
  change UnpackedFloat.unpack .binary64 x.toBits.toBitVec = _
  rw [UnpackedFloat.unpack]
  have positive : @unpackSign .binary64 x.toBits.toBitVec = 0#1 :=
    BitVec.eq_of_toNat_eq (by rw [hsign, BitVec.toNat_ofNat]; omega)
  have finite : @unpackExponent .binary64 x.toBits.toBitVec ≠ -1#_ := by
    intro all
    rw [all] at hexponent
    change 2047 = _ at hexponent
    omega
  have bias : (Format.exponentBias .binary64 : Int) + (52 : Nat) = 1075 := rfl
  dsimp only
  rw [positive, if_neg finite, bias]
  by_cases hnormal : 2 ^ 52 ≤ b.significand
  · have scaled : @unpackExponent .binary64 x.toBits.toBitVec ≠ 0#_ := by
      intro zero
      rw [zero] at hexponent
      change 0 = _ at hexponent
      omega
    rw [if_neg scaled]
    refine finite_congr ?_ ?_
    · rw [BitVec.toNat_append, ← Nat.shiftLeft_add_eq_or_of_lt (BitVec.isLt _), hmantissa]
      change 1 <<< 52 + _ = _
      omega
    · omega
  · have unscaled : @unpackExponent .binary64 x.toBits.toBitVec = 0#_ :=
      BitVec.eq_of_toNat_eq (by rw [hexponent]; change _ = 0; omega)
    have some : @unpackMantissa .binary64 x.toBits.toBitVec ≠ 0#_ := by
      intro zero
      rw [zero] at hmantissa
      change 0 = _ at hmantissa
      omega
    rw [if_pos unscaled, dif_neg some]
    refine finite_congr ?_ ?_
    · rw [hmantissa]
      omega
    · omega

end Scriptlet.Number
