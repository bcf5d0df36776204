import DfeClickhouse.Library.Binary64
import DfeClickhouse.Library.JsonText

/-!
# Decimal texts of floating-point numbers

The default format of a finite value is a JSON number.  The text has no exponent, so
the only danger is a zero that is padded on the right: it would follow a search for
digits that found none.  Seventeen digits are enough for every large value, so the
search never ends that way.
-/

namespace DfeClickhouse.Library.Binary64

section Search

variable (value low high : Ratio) (inclusive : Bool) (exponent : Int)

/-- A candidate lies in the rounding interval. -/
def inside (candidate : Ratio) : Bool :=
  if inclusive then low.le candidate && candidate.le high
  else low.lt candidate && candidate.lt high

/-- The digits of the candidate below a value. -/
def digitsBelow (place : Int) : Nat :=
  let unit := Ratio.ofDecimal 1 place
  value.numerator * unit.denominator / (value.denominator * unit.numerator)

/-- Neither candidate on a decimal place lies in the rounding interval. -/
def Misses (place : Int) : Prop :=
  inside low high inclusive (.ofDecimal (digitsBelow value place) place) = false ∧
    inside low high inclusive (.ofDecimal (digitsBelow value place + 1) place) = false

variable {value low high inclusive exponent}

theorem inside_zero (positive : 0 < low.numerator) (place : Int) :
    inside low high inclusive (.ofDecimal 0 place) = false := by
  have least : 0 < low.numerator * (Ratio.ofDecimal 0 place).denominator := by
    apply Nat.mul_pos positive
    unfold Ratio.ofDecimal
    split
    · exact Nat.one_pos
    · exact Nat.pow_pos (by decide)
  have none : (Ratio.ofDecimal 0 place).numerator * low.denominator = 0 := by
    unfold Ratio.ofDecimal
    split
    all_goals simp
  unfold inside Ratio.le Ratio.lt
  rw [none]
  have notLe : ¬ low.numerator * (Ratio.ofDecimal 0 place).denominator ≤ 0 := by omega
  cases inclusive
  all_goals simp [notLe]

/-- One round of the search. -/
theorem shortestFrom_succ (steps count : Nat) :
    shortestFrom value low high inclusive exponent (steps + 1) count =
      (let place := exponent - count
      let below := digitsBelow value place
      let down := inside low high inclusive (.ofDecimal below place)
      let up := inside low high inclusive (.ofDecimal (below + 1) place)
      if up && (!down || (Ratio.ofDecimal (below * 10 + 5) (place - 1)).le value) then
        if (below + 1) % 10 = 0 then ((below + 1) / 10, place + 1) else (below + 1, place)
      else if down then (below, place)
      else shortestFrom value low high inclusive exponent steps (count + 1)) := rfl

/-- A round finds digits, or it misses and the next one follows. -/
theorem shortestFrom_round (positive : 0 < low.numerator) (steps count : Nat) :
    (shortestFrom value low high inclusive exponent (steps + 1) count).1 ≠ 0 ∨
      Misses value low high inclusive (exponent - count) ∧
        shortestFrom value low high inclusive exponent (steps + 1) count =
          shortestFrom value low high inclusive exponent steps (count + 1) := by
  rw [shortestFrom_succ]
  dsimp only
  split
  · left
    split
    · dsimp only
      omega
    · exact Nat.succ_ne_zero _
  · rename_i notUp
    split
    · rename_i down
      left
      intro zero
      dsimp only at zero
      rw [zero, inside_zero positive] at down
      cases down
    · rename_i notDown
      right
      simp only [Bool.not_eq_true] at notDown
      simp only [notDown, Bool.not_false, Bool.true_or, Bool.and_true, Bool.not_eq_true] at notUp
      exact ⟨⟨notDown, notUp⟩, rfl⟩

/-- The search finds digits, or it misses on every place it tries. -/
theorem shortestFrom_digits (positive : 0 < low.numerator) (steps count : Nat) :
    (shortestFrom value low high inclusive exponent steps count).1 ≠ 0 ∨
      (shortestFrom value low high inclusive exponent steps count).2 =
          exponent - (count + steps : Nat) ∧
        ∀ tried, count ≤ tried → tried < count + steps →
          Misses value low high inclusive (exponent - tried) := by
  induction steps generalizing count with
  | zero =>
      right
      refine ⟨rfl, ?_⟩
      intro tried least greatest
      omega
  | succ steps ih =>
      rcases shortestFrom_round positive steps count with found | ⟨missed, next⟩
      · exact .inl found
      · rw [next]
        rcases ih (count + 1) with found | ⟨place, later⟩
        · exact .inl found
        · right
          constructor
          · rw [place]
            congr 2
            omega
          · intro tried least greatest
            by_cases first : tried = count
            · rw [first]
              exact missed
            · exact later tried (by omega) (by omega)

/-- The search for the exponent stops at its start, or above a power of ten that the
value reaches. -/
theorem decimalExponent_reached (value : Ratio) (steps : Nat) (start : Int) :
    decimalExponent value steps start = start ∨
      value.lt (.ofDecimal 1 (decimalExponent value steps start - 1)) = false := by
  induction steps generalizing start with
  | zero => exact .inl rfl
  | succ steps ih =>
      rw [decimalExponent]
      split
      · exact .inl rfl
      · rename_i reached
        rcases ih (start + 1) with same | later
        · right
          rw [same, Int.add_sub_cancel]
          simpa using reached
        · exact .inr later

end Search

theorem mantissa_pos {value : Binary64} (nonzero : value.isZero = false) : 0 < value.mantissa := by
  unfold mantissa
  split
  · rename_i subnormal
    simp [isZero, subnormal] at nonzero
    omega
  · omega

theorem mantissa_lt (value : Binary64) : value.mantissa < 2 ^ 53 := by
  have small : value.fractionBits < 2 ^ 52 := Nat.mod_lt _ (by decide)
  unfold mantissa
  split
  all_goals omega

theorem ofDecimal_of_nonneg (digits place : Nat) :
    Ratio.ofDecimal digits (place : Int) = ⟨digits * 10 ^ place, 1⟩ := by
  rw [Ratio.ofDecimal, if_pos (Int.natCast_nonneg place), Int.toNat_natCast]

theorem inside_whole {low high candidate : Nat} {inclusive : Bool}
    (missed : inside ⟨low, 1⟩ ⟨high, 1⟩ inclusive ⟨candidate, 1⟩ = false) :
    candidate ≤ low ∨ high ≤ candidate := by
  cases inclusive
  all_goals
    simp [inside, Ratio.lt, Ratio.le] at missed
    omega

/-- Seventeen digits separate a large value from its neighbours. -/
theorem not_misses_seventeen {mantissa power place : Nat} {inclusive : Bool}
    (positive : 0 < mantissa) (small : mantissa < 2 ^ 53)
    (reached : 10 ^ (place + 16) ≤ mantissa * 2 ^ (power + 2)) :
    ¬ Misses ⟨mantissa * 2 ^ (power + 2), 1⟩
      (if mantissa = 2 ^ 52 then ⟨(4 * mantissa - 1) * 2 ^ power, 1⟩
        else ⟨(2 * mantissa - 1) * 2 ^ (power + 1), 1⟩)
      ⟨(2 * mantissa + 1) * 2 ^ (power + 1), 1⟩ inclusive (place : Int) := by
  rintro ⟨down, up⟩
  have unit : 0 < 10 ^ place := Nat.pow_pos (by decide)
  have quarter : 0 < 2 ^ power := Nat.two_pow_pos power
  have least : 2 ^ power ≤ mantissa * 2 ^ power := Nat.le_mul_of_pos_left _ positive
  have greatest : mantissa * 2 ^ power ≤ (2 ^ 53 - 1) * 2 ^ power :=
    Nat.mul_le_mul_right _ (by omega)
  have whole : mantissa * 2 ^ (power + 2) = 4 * (mantissa * 2 ^ power) := by ring
  have highest : (2 * mantissa + 1) * 2 ^ (power + 1) =
      4 * (mantissa * 2 ^ power) + 2 * 2 ^ power := by ring
  have lowest : (2 * mantissa - 1) * 2 ^ (power + 1) =
      4 * (mantissa * 2 ^ power) - 2 * 2 ^ power := by
    rw [Nat.sub_mul]
    congr 1
    all_goals ring
  have lowestPower : (4 * mantissa - 1) * 2 ^ power =
      4 * (mantissa * 2 ^ power) - 2 ^ power := by
    rw [Nat.sub_mul]
    congr 1
    all_goals ring
  have digits : digitsBelow ⟨mantissa * 2 ^ (power + 2), 1⟩ (place : Int) =
      4 * (mantissa * 2 ^ power) / 10 ^ place := by
    simp only [digitsBelow, ofDecimal_of_nonneg, whole, Nat.mul_one, Nat.one_mul]
  rw [digits, ofDecimal_of_nonneg, highest] at down up
  have below := Nat.div_mul_le_self (4 * (mantissa * 2 ^ power)) (10 ^ place)
  have above : 4 * (mantissa * 2 ^ power) <
      4 * (mantissa * 2 ^ power) / 10 ^ place * 10 ^ place + 10 ^ place := Nat.lt_div_mul_add unit
  rw [Nat.add_mul, Nat.one_mul] at up
  rw [Nat.pow_add, whole] at reached
  generalize 4 * (mantissa * 2 ^ power) / 10 ^ place * 10 ^ place = candidate at *
  by_cases isPower : mantissa = 2 ^ 52
  · rw [if_pos isPower, lowestPower] at down up
    have middle : mantissa * 2 ^ power = 2 ^ 52 * 2 ^ power := by rw [isPower]
    rcases inside_whole down with _ | _
    all_goals
      rcases inside_whole up with _ | _
      all_goals omega
  · rw [if_neg isPower, lowest] at down up
    rcases inside_whole down with _ | _
    all_goals
      rcases inside_whole up with _ | _
      all_goals omega

theorem ofScaled_of_eq {value power offset extra : Nat} (whole : power = offset + extra) :
    Ratio.ofScaled value power offset = ⟨value * 2 ^ extra, 1⟩ := by
  rw [Ratio.ofScaled, if_pos (by omega), whole, Nat.add_sub_cancel_left]

/-- A value that reaches a large power of ten is a multiple of four. -/
theorem scale_of_reached {value : Binary64} {power : Nat} (large : 18 ≤ power)
    (reached : (Ratio.ofScaled value.mantissa value.scale 1075).lt (.ofDecimal 1 (power : Int)) =
      false) :
    ∃ quarters, value.scale = 1077 + quarters ∧
      10 ^ power ≤ value.mantissa * 2 ^ (quarters + 2) := by
  have small := mantissa_lt value
  have huge : 10 ^ 18 ≤ 10 ^ power := Nat.pow_le_pow_right (by decide) large
  rw [ofDecimal_of_nonneg, Nat.one_mul] at reached
  by_cases whole : 1075 ≤ value.scale
  · rw [Ratio.ofScaled, if_pos whole] at reached
    simp only [Ratio.lt, Nat.mul_one, decide_eq_false_iff_not, Nat.not_lt] at reached
    by_cases quarters : 1077 ≤ value.scale
    · refine ⟨value.scale - 1077, by omega, ?_⟩
      rw [show value.scale - 1077 + 2 = value.scale - 1075 by omega]
      exact reached
    · have halves : 2 ^ (value.scale - 1075) ≤ 2 ^ 1 := Nat.pow_le_pow_right (by decide) (by omega)
      have bounded := Nat.mul_le_mul_left value.mantissa halves
      omega
  · rw [Ratio.ofScaled, if_neg whole] at reached
    simp only [Ratio.lt, Nat.mul_one, decide_eq_false_iff_not, Nat.not_lt] at reached
    have denominator : 10 ^ power ≤ 10 ^ power * 2 ^ (1075 - value.scale) :=
      Nat.le_mul_of_pos_right _ (Nat.two_pow_pos _)
    omega

/-- Digits that are all zero are not padded. -/
theorem shortest_place {value : Binary64} (nonzero : value.isZero = false)
    (zero : value.shortest.1 = 0) : value.shortest.2 ≤ 0 := by
  have positive := mantissa_pos nonzero
  by_contra padded
  unfold shortest at zero padded
  dsimp only at zero padded
  have lowPositive : 0 < (if value.mantissa = 2 ^ 52 then
      Ratio.ofScaled (4 * value.mantissa - 1) value.scale 1077
      else Ratio.ofScaled (2 * value.mantissa - 1) value.scale 1076).numerator := by
    have scaled (digits offset : Nat) (some : 0 < digits) :
        0 < (Ratio.ofScaled digits value.scale offset).numerator := by
      unfold Ratio.ofScaled
      split
      · exact Nat.mul_pos some (Nat.two_pow_pos _)
      · exact some
    split
    all_goals exact scaled _ _ (by omega)
  rcases shortestFrom_digits lowPositive 17 1 with found | ⟨place, missed⟩
  · exact found zero
  · rw [place] at padded
    rcases decimalExponent_reached (Ratio.ofScaled value.mantissa value.scale 1075) 700 (-330) with
      least | reached
    · rw [least] at padded
      exact absurd (by decide) padded
    · specialize missed 17 (by decide) (by decide)
      generalize decimalExponent (Ratio.ofScaled value.mantissa value.scale 1075) 700 (-330) =
        exponent at *
      obtain ⟨start, rfl⟩ : ∃ start : Nat, exponent = start + 17 :=
        ⟨(exponent - 17).toNat, by omega⟩
      have power : (start : Int) + 17 - 1 = ((start + 16 : Nat) : Int) := by omega
      rw [power] at reached
      obtain ⟨quarters, scaled, bound⟩ := scale_of_reached (by omega) reached
      rw [Nat.cast_ofNat, Int.add_sub_cancel, ofScaled_of_eq (by omega : _ = 1075 + (quarters + 2)),
        ofScaled_of_eq (by omega : _ = 1077 + quarters),
        ofScaled_of_eq (by omega : _ = 1076 + (quarters + 1)),
        ofScaled_of_eq (by omega : _ = 1076 + (quarters + 1))] at missed
      exact not_misses_seventeen positive (mantissa_lt value) bound missed

theorem isDigit_replicate_zero {count : Nat} {char : Char}
    (member : char ∈ List.replicate count '0') : char.isDigit = true := by
  rw [List.eq_of_mem_replicate member]
  rfl

/-- The text of digits on a decimal place is a number. -/
theorem decimalText_number {digits : Nat} {place : Int} (unpadded : digits = 0 → place ≤ 0) :
    ∃ whole fraction, (decimalText digits place).toList = whole ++ fraction ∧
      Json.IsWhole whole ∧ Json.IsFraction fraction := by
  have shown : ∀ char ∈ Nat.toDigits 10 digits, char.isDigit = true := fun char member =>
    Nat.isDigit_of_mem_toDigits (by decide) (by decide) member
  unfold decimalText
  dsimp only
  split
  · rename_i integral
    refine ⟨Nat.toDigits 10 digits ++ List.replicate place.toNat '0', [], by simp, ?_, .inl rfl⟩
    by_cases positive : 0 < digits
    · obtain ⟨first, rest, split, nonzero⟩ := Json.exists_toDigits_cons positive
      refine .inr ⟨first, rest ++ List.replicate place.toNat '0', by rw [split, List.cons_append],
        nonzero, ?_⟩
      intro char member
      rcases List.mem_append.mp member with member | member
      · exact shown char member
      · exact isDigit_replicate_zero member
    · obtain rfl : digits = 0 := by omega
      obtain rfl : place = 0 := by omega
      exact .inl rfl
  · split
    · rename_i fractional inside
      by_cases positive : 0 < digits
      · obtain ⟨first, rest, split, nonzero⟩ := Json.exists_toDigits_cons positive
        generalize Nat.toDigits 10 digits = text at *
        generalize taken : ((text.length : Int) + place).toNat = point
        refine ⟨text.take point, '.' :: text.drop point, by simp, .inr ?_, .inr ?_⟩
        · obtain ⟨before, rfl⟩ : ∃ before, point = before + 1 := ⟨point - 1, by omega⟩
          refine ⟨first, rest.take before, by rw [split, List.take_succ_cons], nonzero, ?_⟩
          intro char member
          exact shown char (List.mem_of_mem_take member)
        · refine ⟨text.drop point, rfl, ?_, ?_⟩
          · intro empty
            have short := List.drop_eq_nil_iff.mp empty
            omega
          · intro char member
            exact shown char (List.mem_of_mem_drop member)
      · obtain rfl : digits = 0 := by omega
        rw [Nat.toDigits_zero, List.length_singleton] at inside
        omega
    · refine ⟨['0'], '.' :: (List.replicate (-(((Nat.toDigits 10 digits).length : Int) +
        place)).toNat '0' ++ Nat.toDigits 10 digits), by simp, .inl rfl, .inr ⟨_, rfl, ?_, ?_⟩⟩
      · intro empty
        exact Nat.toDigits_ne_nil (List.append_eq_nil_iff.mp empty).2
      · intro char member
        rcases List.mem_append.mp member with member | member
        · exact isDigit_replicate_zero member
        · exact shown char member

/-- The default format of a finite value is a number. -/
theorem display_number {value : Binary64} (notNan : value.isNan = false)
    (finite : value.isInfinite = false) :
    ∃ sign whole fraction, value.display.toList = sign ++ (whole ++ fraction) ∧
      (sign = [] ∨ sign = ['-']) ∧ Json.IsWhole whole ∧ Json.IsFraction fraction := by
  have signed : (if value.isNegative then "-" else "").toList = [] ∨
      (if value.isNegative then "-" else "").toList = ['-'] := by
    split
    · exact .inr rfl
    · exact .inl rfl
  unfold display
  simp only [notNan, finite, Bool.false_eq_true, if_false]
  by_cases zero : value.isZero = true
  · refine ⟨_, ['0'], [], ?_, signed, .inl rfl, .inl rfl⟩
    rw [if_pos zero, String.toList_append]
    rfl
  · have nonzero : value.isZero = false := by simpa using zero
    obtain ⟨whole, fraction, split, isWhole, isFraction⟩ :=
      decimalText_number (shortest_place nonzero)
    refine ⟨_, whole, fraction, ?_, signed, isWhole, isFraction⟩
    rw [if_neg zero, String.toList_append, split]

end DfeClickhouse.Library.Binary64
