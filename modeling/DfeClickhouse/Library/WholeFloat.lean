import DfeClickhouse.Library.Binary64

/-!
# Floats of integers

An integer rounded to `binary64` keeps its sign and its order of magnitude, so a whole
number read back from it is on the same side of every power of two.
-/

namespace DfeClickhouse.Library.Binary64

theorem log2_ratio {value : Nat} (positive : 0 < value) :
    Ratio.log2 ⟨value, 1⟩ = value.log2 := by
  have one : Nat.log2 1 = 0 := by decide
  have reached : ¬ value < 2 ^ value.log2 :=
    Nat.not_lt_of_le (Nat.log2_self_le (Nat.ne_of_gt positive))
  simp [Ratio.log2, one, reached]

/-- A quotient between two bounds of the ratio. -/
theorem div_bounds {numerator denominator low high : Nat} (positive : 0 < denominator)
    (least : low * denominator ≤ numerator) (greatest : numerator < high * denominator) :
    low ≤ numerator / denominator ∧ numerator / denominator < high :=
  ⟨(Nat.le_div_iff_mul_le positive).mpr least, (Nat.div_lt_iff_lt_mul positive).mpr greatest⟩

/-- The bits of a rounded quotient whose leading bit is at a given power. -/
theorem field_bounds {power below : Nat} (top : power < 64)
    (bounds : 2 ^ 52 ≤ below ∧ below < 2 ^ 53) (condition : Prop) [Decidable condition] :
    (power + 1023) * 2 ^ 52 ≤
        min ((power + 1022) * 2 ^ 52 + if condition then below + 1 else below) (2047 * 2 ^ 52) ∧
      min ((power + 1022) * 2 ^ 52 + if condition then below + 1 else below) (2047 * 2 ^ 52) ≤
        (power + 1024) * 2 ^ 52 := by
  obtain ⟨least, greatest⟩ := bounds
  by_cases holds : condition
  · rw [if_pos holds]
    omega
  · rw [if_neg holds]
    omega

theorem field_lt {power low : Nat} (top : power < 64) (greatest : low ≤ (power + 1024) * 2 ^ 52) :
    low < 2 ^ 63 :=
  calc
    low ≤ (power + 1024) * 2 ^ 52 := greatest
    _ ≤ 1087 * 2 ^ 52 := Nat.mul_le_mul_right _ (by omega)
    _ < 2 ^ 63 := by decide

/-- The exponent field of a rounded integer is its logarithm, or one more where the
rounding carries. -/
theorem roundRatio_bounds {value : Nat} (positive : 0 < value) (small : value < 2 ^ 64) :
    (value.log2 + 1023) * 2 ^ 52 ≤ roundRatio 52 (-1074) 2047 ⟨value, 1⟩ ∧
      roundRatio 52 (-1074) 2047 ⟨value, 1⟩ ≤ (value.log2 + 1024) * 2 ^ 52 := by
  have nonzero : value ≠ 0 := Nat.ne_of_gt positive
  have least : 2 ^ value.log2 ≤ value := Nat.log2_self_le nonzero
  have greatest : value < 2 ^ (value.log2 + 1) := Nat.lt_log2_self
  have top : value.log2 < 64 := (Nat.log2_lt nonzero).mpr small
  simp only [roundRatio, if_neg nonzero, log2_ratio positive]
  generalize value.log2 = power at least greatest top
  have exponent : max ((power : Int) - (52 : Nat)) (-1074) = (power : Int) - 52 := by omega
  have field : ((power : Int) - 52 - -1074).toNat = power + 1022 := by omega
  rw [exponent, field]
  by_cases wide : 0 ≤ (power : Int) - 52
  · have shift : ((power : Int) - 52).toNat = power - 52 := by omega
    have split : 2 ^ power = 2 ^ 52 * 2 ^ (power - 52) := by
      rw [← Nat.pow_add]
      congr 1
      omega
    have splitNext : 2 ^ (power + 1) = 2 ^ 53 * 2 ^ (power - 52) := by
      rw [← Nat.pow_add]
      congr 1
      omega
    rw [split] at least
    rw [splitNext] at greatest
    have bounds := div_bounds (Nat.two_pow_pos _) least greatest
    simp only [if_pos wide, shift, Nat.one_mul]
    exact field_bounds top bounds _
  · have shift : (-((power : Int) - 52)).toNat = 52 - power := by omega
    have split : 2 ^ power * 2 ^ (52 - power) = 2 ^ 52 := by
      rw [← Nat.pow_add]
      congr 1
      omega
    have splitNext : 2 ^ (power + 1) * 2 ^ (52 - power) = 2 ^ 53 := by
      rw [← Nat.pow_add]
      congr 1
      omega
    have scaledLeast := Nat.mul_le_mul_right (2 ^ (52 - power)) least
    have scaledGreatest := Nat.mul_lt_mul_of_pos_right greatest (Nat.two_pow_pos (52 - power))
    rw [split] at scaledLeast
    rw [splitNext] at scaledGreatest
    simp only [if_neg wide, shift, Nat.div_one]
    exact field_bounds top ⟨scaledLeast, scaledGreatest⟩ _

/-- A scaled mantissa is at least the power of two its exponent stands for. -/
theorem le_ofScaled {value exponent power : Nat} (mantissa : 2 ^ 52 ≤ value)
    (field : power + 1023 ≤ exponent) :
    2 ^ power ≤ (Ratio.ofScaled value exponent 1075).numerator /
      (Ratio.ofScaled value exponent 1075).denominator := by
  rw [Ratio.ofScaled]
  by_cases wide : 1075 ≤ exponent
  · rw [if_pos wide, Nat.div_one]
    calc
      2 ^ power ≤ 2 ^ (52 + (exponent - 1075)) :=
        Nat.pow_le_pow_right (by decide) (by omega)
      _ = 2 ^ 52 * 2 ^ (exponent - 1075) := Nat.pow_add 2 52 _
      _ ≤ value * 2 ^ (exponent - 1075) := Nat.mul_le_mul_right _ mantissa
  · rw [if_neg wide, Nat.le_div_iff_mul_le (Nat.two_pow_pos _), ← Nat.pow_add]
    exact Nat.le_trans (Nat.pow_le_pow_right (by decide) (by omega)) mantissa

theorem toNat_ofParts {negative : Bool} {low : Nat} (small : low < 2 ^ 63) :
    (ofParts negative low).toNat = (if negative then 2 ^ 63 else 0) + low := by
  rw [ofParts, BitVec.toNat_ofNat, Nat.mod_eq_of_lt]
  cases negative
  · rw [if_neg Bool.false_ne_true]
    omega
  · rw [if_pos rfl]
    omega

theorem isNegative_ofParts {negative : Bool} {low : Nat} (small : low < 2 ^ 63) :
    (ofParts negative low).isNegative = negative := by
  rw [isNegative, toNat_ofParts small]
  cases negative
  · rw [if_neg Bool.false_ne_true, Nat.zero_add, decide_eq_false_iff_not]
    exact Nat.not_le_of_lt small
  · rw [if_pos rfl, decide_eq_true_eq]
    exact Nat.le_add_right _ _

theorem exponentBits_ofParts {negative : Bool} {low : Nat} (small : low < 2 ^ 63) :
    (ofParts negative low).exponentBits = low / 2 ^ 52 := by
  have field : low / 2 ^ 52 < 2 ^ 11 := Nat.div_lt_of_lt_mul small
  rw [exponentBits, toNat_ofParts small]
  cases negative
  · rw [if_neg Bool.false_ne_true, Nat.zero_add, Nat.mod_eq_of_lt field]
  · have sign : (2 ^ 63 : Nat) = 2 ^ 52 * 2 ^ 11 := by decide
    rw [if_pos rfl, sign, Nat.mul_add_div (Nat.two_pow_pos 52), Nat.add_mod_left,
      Nat.mod_eq_of_lt field]

/-- What a rounded integer reads back as has its sign, and is at least the power of two
below it. -/
theorem whole_ofInt {value found : Int} (nonzero : value ≠ 0) (small : value.natAbs < 2 ^ 64)
    (read : (ofInt value).whole = some found) :
    ∃ magnitude : Nat, 2 ^ value.natAbs.log2 ≤ magnitude ∧
      found = if value < 0 then -(magnitude : Int) else magnitude := by
  obtain ⟨least, greatest⟩ := roundRatio_bounds (Int.natAbs_pos.mpr nonzero) small
  have top : value.natAbs.log2 < 64 := (Nat.log2_lt (Int.natAbs_ne_zero.mpr nonzero)).mpr small
  rw [ofInt, ofRatio] at read
  generalize roundRatio 52 (-1074) 2047 ⟨value.natAbs, 1⟩ = low at read least greatest
  generalize value.natAbs.log2 = power at least greatest top ⊢
  have inside : low < 2 ^ 63 := field_lt top greatest
  have exponent : power + 1023 ≤ (ofParts (value < 0) low).exponentBits := by
    rw [exponentBits_ofParts inside]
    exact (Nat.le_div_iff_mul_le (Nat.two_pow_pos 52)).mpr least
  have sign := @isNegative_ofParts (value < 0) low inside
  generalize ofParts (value < 0) low = rounded at read exponent sign
  have mantissa : 2 ^ 52 ≤ rounded.mantissa := by
    rw [Binary64.mantissa, if_neg (by omega)]
    exact Nat.le_add_right _ _
  have scale : rounded.scale = rounded.exponentBits := Nat.max_eq_left (by omega)
  have quotient : 2 ^ power ≤ rounded.magnitude.numerator / rounded.magnitude.denominator := by
    rw [magnitude, scale]
    exact le_ofScaled mantissa exponent
  rw [whole] at read
  split at read
  · refine ⟨_, quotient, ?_⟩
    rw [← Option.some.inj read, sign]
    simp only [decide_eq_true_eq]
  · cases read

end DfeClickhouse.Library.Binary64
