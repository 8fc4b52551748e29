/-
**Whole numbers among the floats.**

A float that is not zero is a mantissa times a power of two. Where the mantissa has its full length
nothing is rounded that merely has zeros behind it, so the whole number that a float without a
fraction is comes back as that float, whatever its size.

* `IsNormal`: a mantissa of full length with an exponent of floats;
* `roundWithAccuracy_scaled`: zeros behind such a mantissa are dropped;
* `unpack_ofNat`: the float of a natural number that is such a mantissa times a power of two;
* `toInt_nonneg`, `lt_ofInt_toInt`, `ofInt_toInt_lt`: the whole number of a float that is whole and
  not negative is not negative, and its float compares as the given one.
-/

import Mathlib
import PromptMarkup.Value.Number

namespace PromptMarkup.Number

open Float.Model
open Float.Model.UnpackedFloat

/-! ### Normal floats -/

theorem log2_mul_two_pow {number : Nat} (positive : 0 < number) (places : Nat) :
    (number * 2 ^ places).log2 = number.log2 + places := by
  induction places with
  | zero => simp
  | succ places ih =>
    have more : number * 2 ^ places ≠ 0 :=
      (Nat.mul_pos positive (Nat.two_pow_pos places)).ne'
    have double : number * 2 ^ (places + 1) = 2 * (number * 2 ^ places) := by
      rw [Nat.pow_succ', Nat.mul_left_comm]
    rw [double, Nat.log2_two_mul more, ih, Nat.add_assoc]

/-- A mantissa of full length, and an exponent in the range of floats. -/
structure IsNormal (mantissa : Nat) (exponent : Int) : Prop where
  least : 2 ^ 52 ≤ mantissa
  most : mantissa < 2 ^ 53
  lowest : -1074 ≤ exponent
  highest : exponent ≤ 971

section Normal

variable {mantissa : Nat} {exponent : Int} (normal : IsNormal mantissa exponent)
include normal

theorem IsNormal.pos : 0 < mantissa := Nat.lt_of_lt_of_le (by decide) normal.least

theorem log2_eq : mantissa.log2 = 52 :=
  (Nat.log2_eq_iff normal.pos.ne').mpr ⟨normal.least, normal.most⟩

/-- The exponent of a normal float is that of the shortest form of its value. -/
theorem targetExponent_scaled (places : Nat) :
    Format.binary64.targetExponent (totalExponent (mantissa * 2 ^ places) (exponent - places)) =
      exponent := by
  have lowest := normal.lowest
  simp only [Format.targetExponent, totalExponent, log2_mul_two_pow normal.pos, log2_eq normal,
    Format.mantissaBits, Format.minExponent]
  omega

end Normal

/-! ### Rounding -/

/-- Zeros that are shifted out leave the mantissa exact. -/
theorem shiftRight_scaled (mantissa places : Nat) :
    (⟨mantissa * 2 ^ places, false, false⟩ : ExtendedMantissa) >>> places =
      ⟨mantissa, false, false⟩ := by
  show Nat.repeat ExtendedMantissa.shiftRightOne places _ = _
  induction places generalizing mantissa with
  | zero => rw [Nat.pow_zero, Nat.mul_one]; rfl
  | succ places ih =>
    have split : mantissa * 2 ^ (places + 1) = mantissa * 2 * 2 ^ places := by
      rw [Nat.pow_succ', Nat.mul_assoc]
    rw [Nat.repeat, split, ih]
    simp [ExtendedMantissa.shiftRightOne]

theorem shiftToTargetExponent_scaled {mantissa : Nat} {exponent : Int}
    (normal : IsNormal mantissa exponent) (places : Nat) :
    shiftToTargetExponent .binary64 (mantissa * 2 ^ places) (exponent - places) .exact =
      (⟨mantissa, false, false⟩, exponent) := by
  have amount : (exponent - (exponent - places)).toNat = places := by omega
  have place : exponent - places + places = exponent := by omega
  simp only [shiftToTargetExponent, targetExponent_scaled normal, shiftToExponent, amount, place,
    ExtendedMantissa.ofMantissaAndAccuracy, shiftRight_scaled]

/-- **Zeros behind a mantissa of full length are dropped, and nothing is rounded.** -/
theorem roundWithAccuracy_scaled {mantissa : Nat} {exponent : Int}
    (normal : IsNormal mantissa exponent) (sign : Sign) (places : Nat) :
    roundWithAccuracy .binary64 sign (mantissa * 2 ^ places) (exponent - places) .exact =
      .finite sign mantissa exponent normal.pos := by
  have again : shiftToTargetExponent .binary64 mantissa exponent .exact =
      (⟨mantissa, false, false⟩, exponent) := by
    simpa using shiftToTargetExponent_scaled normal 0
  have exact : (⟨mantissa, false, false⟩ : ExtendedMantissa).roundedMantissa = mantissa := rfl
  simp only [roundWithAccuracy, shiftToTargetExponent_scaled normal, exact, again]
  exact dif_neg normal.pos.ne'

/-- A natural number of at most fifty-three bits fills the mantissa from the right. -/
theorem ofNat_of_eq {mantissa number places : Nat} (normal : IsNormal mantissa (-places))
    (value : mantissa = number * 2 ^ places) :
    UnpackedFloat.ofNat .binary64 number = .finite .positive mantissa (-places) normal.pos := by
  have positive : 0 < number := Nat.pos_of_mul_pos_right (value ▸ normal.pos)
  have order : compare (number : Int) 0 = .gt := Int.compare_eq_gt.mpr (by omega)
  have target : Format.binary64.targetExponent (totalExponent number 0) = -places := by
    have bits := log2_eq normal
    have lowest := normal.lowest
    rw [value, log2_mul_two_pow positive] at bits
    simp only [Format.targetExponent, totalExponent, Format.mantissaBits, Format.minExponent]
    omega
  have amount : (0 - -(places : Int)).toNat = places := by omega
  have place : (0 : Int) - (places : Int) = -(places : Int) - (0 : Nat) := by omega
  simp only [UnpackedFloat.ofNat, UnpackedFloat.ofInt, UnpackedFloat.normalize, order,
    Int.toNat_natCast, UnpackedFloat.round, target, decreaseExponent, amount, Nat.shiftLeft_eq,
    ← value, place]
  simpa using roundWithAccuracy_scaled normal .positive 0

/-! ### Bits -/

theorem toNat_leadingOne (fraction : BitVec 52) :
    (1#1 ++ fraction).toNat = 2 ^ 52 + fraction.toNat := by
  rw [BitVec.toNat_append, ← Nat.shiftLeft_add_eq_or_of_lt fraction.isLt]
  rfl

theorem unpackSign_packComponents (sign : Sign) (field : BitVec 11) (fraction : BitVec 52) :
    Sign.ofBitVec (unpackSign (packComponents .binary64 sign field fraction)) = sign := by
  have cut : unpackSign (packComponents .binary64 sign field fraction) = sign.toBitVec := by
    show (sign.toBitVec ++ field ++ fraction).extractLsb' 63 1 = sign.toBitVec
    rw [BitVec.extractLsb'_append_eq_of_le (by decide),
      BitVec.extractLsb'_append_eq_of_le (by decide)]
    cases sign <;> rfl
  rw [cut]
  cases sign <;> rfl

/-- **A normal float is read from its bits as it was written.** -/
theorem unpack_pack {mantissa : Nat} {exponent : Int} (normal : IsNormal mantissa exponent)
    (sign : Sign) :
    (Float.Model.pack (.finite sign mantissa exponent normal.pos)).unpack =
      .finite sign mantissa exponent normal.pos := by
  obtain ⟨least, most, lowest, highest⟩ := normal
  have bits := log2_eq ⟨least, most, lowest, highest⟩
  show UnpackedFloat.unpack .binary64 (UnpackedFloat.pack .binary64 _) = _
  have field : (exponent + (Format.binary64.exponentBias : Nat) +
      (Format.binary64.mantissaBitsWithoutImplicit : Nat)).toNat = (exponent + 1075).toNat := by
    show (exponent + (1023 : Nat) + (52 : Nat)).toNat = _
    omega
  have stored : (BitVec.ofNat 11 (exponent + 1075).toNat).toNat = (exponent + 1075).toNat := by
    rw [BitVec.toNat_ofNat, Nat.mod_eq_of_lt (by omega)]
  have notAllOnes : BitVec.ofNat 11 (exponent + 1075).toNat ≠ -1#11 := by
    intro same
    have := congrArg BitVec.toNat same
    rw [stored, show (-1#11).toNat = 2047 from rfl] at this
    omega
  have notZero : BitVec.ofNat 11 (exponent + 1075).toNat ≠ 0#11 := by
    intro same
    have := congrArg BitVec.toNat same
    rw [stored, show (0#11).toNat = 0 from rfl] at this
    omega
  rw [UnpackedFloat.pack]
  simp only [bits, field]
  rw [if_neg (show ¬ 2 ^ 11 ≤ (exponent + 1075).toNat + 1 by omega),
    if_pos (show 52 + 1 = Format.binary64.mantissaBits from rfl), UnpackedFloat.unpack]
  simp only [unpackMantissa_packComponents, unpackExponent_packComponents,
    unpackSign_packComponents]
  rw [if_neg notAllOnes, if_neg notZero]
  congr 1
  · rw [toNat_leadingOne, BitVec.toNat_ofNat]
    omega
  · rw [stored]
    show ((exponent + 1075).toNat : Int) - ((1023 : Nat) + (52 : Nat)) = exponent
    omega

/-- A float that is not zero is normal, or it has a short mantissa and the least exponent. -/
theorem isNormal_of_unpack {number : Float} {sign : Sign} {mantissa : Nat} {exponent : Int}
    {positive : 0 < mantissa}
    (shape : number.toModel.unpack = .finite sign mantissa exponent positive) :
    IsNormal mantissa exponent ∨ mantissa < 2 ^ 52 ∧ exponent = -1074 := by
  have short := (@unpackMantissa .binary64 number.toModel.toBits.toBitVec).isLt
  have limit := (@unpackExponent .binary64 number.toModel.toBits.toBitVec).isLt
  rw [Float.Model.unpack, UnpackedFloat.unpack] at shape
  split at shape
  next => split at shape <;> cases shape
  next notAllOnes =>
    split at shape
    next zero =>
      split at shape
      next => cases shape
      next =>
        injection shape with _ same place
        rw [zero] at place
        exact .inr ⟨same ▸ short, place.symm⟩
    next notZero =>
      have most := mt (BitVec.eq_of_toNat_eq (y := -1#11)) notAllOnes
      have least := mt (BitVec.eq_of_toNat_eq (y := 0#11)) notZero
      injection shape with _ same place
      rw [toNat_leadingOne] at same
      change ((@unpackExponent .binary64 number.toModel.toBits.toBitVec).toNat : Int)
        - 1075 = exponent at place
      change _ ≠ 2047 at most
      change _ ≠ 0 at least
      change _ < 2048 at limit
      change _ < 2 ^ 52 at short
      exact .inl ⟨by omega, by omega, by omega, by omega⟩

/-! ### Floats of natural numbers -/

/-- A normal float is at most fifty-three bits long just where its exponent is not positive. -/
theorem exponent_nonpos_iff {mantissa number : Nat} {exponent : Int}
    (normal : IsNormal mantissa exponent)
    (value : number * 2 ^ (-exponent).toNat = mantissa * 2 ^ exponent.toNat) :
    number < 2 ^ 53 ↔ exponent ≤ 0 := by
  have least := normal.least
  have most := normal.most
  constructor
  · intro small
    by_contra above
    have down : (-exponent).toNat = 0 := by omega
    obtain ⟨places, up⟩ : ∃ places, exponent.toNat = places + 1 := ⟨exponent.toNat - 1, by omega⟩
    rw [down, up, Nat.pow_zero, Nat.mul_one, Nat.pow_succ] at value
    have := Nat.mul_le_mul least (show 2 ≤ 2 ^ places * 2 by have := Nat.two_pow_pos places; omega)
    omega
  · intro below
    have up : exponent.toNat = 0 := by omega
    rw [up, Nat.pow_zero, Nat.mul_one] at value
    exact Nat.lt_of_le_of_lt (value ▸ Nat.le_mul_of_pos_right _ (Nat.two_pow_pos _)) most

/-- A short number is read as a word and multiplied by one. -/
theorem unpack_ofNat_short {mantissa number places : Nat}
    (normal : IsNormal mantissa (-(places : Int))) (short : number < 2 ^ 53)
    (value : number * 2 ^ places = mantissa) :
    (Float.ofNat number).toModel.unpack = .finite .positive mantissa (-places) normal.pos := by
  have word : number.toUInt64.toNat = number := Nat.mod_eq_of_lt (by omega)
  have one : (Float.ofBits 0x3FF0000000000000).toModel.unpack =
      .finite .positive (2 ^ 52) (-52) (by decide) := rfl
  have read : number.toUInt64.toFloat.toModel.unpack =
      .finite .positive mantissa (-places) normal.pos := by
    show (Float.Model.pack (UnpackedFloat.ofNat .binary64 number.toUInt64.toNat)).unpack = _
    rw [word, ofNat_of_eq normal value.symm, unpack_pack normal]
  show (Float.ofScientific number false 0).toModel.unpack = _
  rw [Float.ofScientific, dif_pos ⟨short, by decide⟩]
  show (Float.Model.pack (UnpackedFloat.mul .binary64 number.toUInt64.toFloat.toModel.unpack
    (Float.ofBits 0x3FF0000000000000).toModel.unpack)).unpack = _
  rw [read, one]
  show (Float.Model.pack (roundWithAccuracy .binary64 .positive (mantissa * 2 ^ 52)
    (-places - (52 : Nat)) .exact)).unpack = _
  rw [roundWithAccuracy_scaled normal, unpack_pack normal]

/-- A long number fills the mantissa. -/
theorem unpack_ofNat_long {mantissa number places : Nat} (normal : IsNormal mantissa places)
    (long : ¬ number < 2 ^ 53) (value : number = mantissa * 2 ^ places) :
    (Float.ofNat number).toModel.unpack = .finite .positive mantissa places normal.pos := by
  have least := normal.least
  have positive : number ≠ 0 := by omega
  have inRange : ¬ (0 : Int) < -((2 ^ 11 : Int) + number.log2) := by omega
  have scaled : number <<< 53 * 1 = mantissa * 2 ^ (places + 53) := by
    rw [Nat.mul_one, Nat.shiftLeft_eq, value, Nat.pow_add, Nat.mul_assoc]
  have place : (-53 : Int) + 0 = places - (places + 53 : Nat) := by omega
  show (Float.ofScientific number false 0).toModel.unpack = _
  rw [Float.ofScientific, dif_neg fun both => long both.1]
  show (Float.Model.pack (UnpackedFloat.ofScientific .binary64 number 0)).unpack = _
  rw [UnpackedFloat.ofScientific, dif_neg positive, if_neg (by decide), if_neg inRange,
    if_pos (Int.le_refl 0)]
  show (Float.Model.pack (roundWithAccuracy .binary64 .positive (number <<< 53 * 1) (-53 + 0)
    .exact)).unpack = _
  rw [scaled, place, roundWithAccuracy_scaled normal, unpack_pack normal]

/-- **The float of a natural number that is a mantissa of full length times a power of two.** -/
theorem unpack_ofNat {mantissa number : Nat} {exponent : Int} (normal : IsNormal mantissa exponent)
    (value : number * 2 ^ (-exponent).toNat = mantissa * 2 ^ exponent.toNat) :
    (Float.ofNat number).toModel.unpack = .finite .positive mantissa exponent normal.pos := by
  by_cases short : number < 2 ^ 53
  · obtain ⟨places, rfl⟩ : ∃ places : Nat, exponent = -places :=
      ⟨(-exponent).toNat, by have := (exponent_nonpos_iff normal value).mp short; omega⟩
    have up : (-(places : Int)).toNat = 0 := by omega
    have down : (- -(places : Int)).toNat = places := by omega
    rw [up, down, Nat.pow_zero, Nat.mul_one] at value
    exact unpack_ofNat_short normal short value
  · obtain ⟨places, rfl⟩ : ∃ places : Nat, exponent = places :=
      ⟨exponent.toNat, by have := (exponent_nonpos_iff normal value).mpr; omega⟩
    have down : (-(places : Int)).toNat = 0 := by omega
    rw [down, Int.toNat_natCast, Nat.pow_zero, Nat.mul_one] at value
    exact unpack_ofNat_long normal short value

/-! ### Whole numbers -/

/-- A normal float that is whole is a natural number with its sign. -/
theorem exists_whole {number : Float} (whole : isWhole number = true) :
    (∃ sign, number.toModel.unpack = .zero sign) ∨
      ∃ sign mantissa exponent, ∃ normal : IsNormal mantissa exponent, ∃ value : Nat,
        number.toModel.unpack = .finite sign mantissa exponent normal.pos ∧
          value * 2 ^ (-exponent).toNat = mantissa * 2 ^ exponent.toNat ∧
          toInt number = sign.apply value := by
  unfold isWhole at whole
  split at whole
  next sign shape => exact .inl ⟨sign, shape⟩
  next sign mantissa exponent positive shape =>
    have divides : mantissa % 2 ^ (-exponent).toNat = 0 := of_decide_eq_true whole
    rcases isNormal_of_unpack shape with normal | ⟨short, rfl⟩
    · refine .inr ⟨sign, mantissa, exponent, normal, mantissa * 2 ^ exponent.toNat /
        2 ^ (-exponent).toNat, shape, ?_, ?_⟩
      · exact Nat.div_mul_cancel (Nat.dvd_mul_right_of_dvd (Nat.dvd_of_mod_eq_zero divides) _)
      · unfold toInt
        rw [shape]
        rfl
    · -- A short mantissa is no multiple of so high a power of two.
      have least := Nat.le_of_dvd positive (Nat.dvd_of_mod_eq_zero divides)
      have : 2 ^ 52 ≤ 2 ^ (- -1074 : Int).toNat := Nat.pow_le_pow_right (by decide) (by decide)
      omega
  next => cases whole

theorem le_iff_unpack {first second : Float} :
    first ≤ second ↔ first.toModel.unpack.le second.toModel.unpack = true := decide_eq_true_iff

theorem lt_iff_unpack {first second : Float} :
    first < second ↔ first.toModel.unpack.lt second.toModel.unpack = true := decide_eq_true_iff

/-- A whole number that is not negative comes back as the same float, zero without a sign. -/
theorem ofInt_toInt {number : Float} (whole : isWhole number = true) (nonneg : 0 ≤ number) :
    ∃ value : Nat, toInt number = value ∧
      ((Float.ofInt (toInt number)).toModel.unpack = number.toModel.unpack ∨
        (∃ sign, number.toModel.unpack = .zero sign) ∧
          (Float.ofInt (toInt number)).toModel.unpack = .zero .positive) := by
  rcases exists_whole whole with ⟨sign, shape⟩ | ⟨sign, mantissa, exponent, normal, value, shape,
    same, read⟩
  · have none : toInt number = 0 := by
      unfold toInt
      rw [shape]
    exact ⟨0, none, .inr ⟨⟨sign, shape⟩, by rw [none]; rfl⟩⟩
  · cases sign with
    | negative =>
      rw [le_iff_unpack, shape] at nonneg
      cases nonneg
    | positive =>
      refine ⟨value, read, .inl ?_⟩
      rw [read, shape]
      exact unpack_ofNat normal same

/-- **A whole number that is not negative is not negative as an integer.** -/
theorem toInt_nonneg {number : Float} (whole : isWhole number = true) (nonneg : 0 ≤ number) :
    0 ≤ toInt number := by
  obtain ⟨value, read, _⟩ := ofInt_toInt whole nonneg
  omega

theorem compare_zero_left (sign other : Sign) (number : UnpackedFloat) :
    UnpackedFloat.compare (.zero sign) number = UnpackedFloat.compare (.zero other) number := by
  cases number with
  | infinity sign => cases sign <;> rfl
  | notANumber => rfl
  | zero => rfl
  | finite sign => cases sign <;> rfl

theorem compare_zero_right (sign other : Sign) (number : UnpackedFloat) :
    UnpackedFloat.compare number (.zero sign) = UnpackedFloat.compare number (.zero other) := by
  cases number with
  | infinity sign => cases sign <;> rfl
  | notANumber => rfl
  | zero => rfl
  | finite sign => cases sign <;> rfl

section Comparison

variable {bound : Float} (whole : isWhole bound = true) (nonneg : 0 ≤ bound) (number : Float)
include whole nonneg

/-- **A number is below the integer of a bound just where it is below the bound.** -/
theorem lt_ofInt_toInt : number < Float.ofInt (toInt bound) ↔ number < bound := by
  obtain ⟨_, _, same | ⟨⟨sign, zero⟩, same⟩⟩ := ofInt_toInt whole nonneg
  · rw [lt_iff_unpack, lt_iff_unpack, same]
  · rw [lt_iff_unpack, lt_iff_unpack, same, zero]
    unfold UnpackedFloat.lt
    rw [compare_zero_right .positive sign]

/-- **A number is above the integer of a bound just where it is above the bound.** -/
theorem ofInt_toInt_lt : Float.ofInt (toInt bound) < number ↔ bound < number := by
  obtain ⟨_, _, same | ⟨⟨sign, zero⟩, same⟩⟩ := ofInt_toInt whole nonneg
  · rw [lt_iff_unpack, lt_iff_unpack, same]
  · rw [lt_iff_unpack, lt_iff_unpack, same, zero]
    unfold UnpackedFloat.lt
    rw [compare_zero_left .positive sign]

end Comparison

end PromptMarkup.Number
