import DfeClickhouse.Dynamic.Coercion
import DfeClickhouse.Library.Numeral

/-!
# The day of a numeric epoch

An epoch number is taken to seconds by a division that truncates, and the seconds to
days by one that floors.  The two compose to a single floor except just below midnight
before 1970, where the truncation has already reached the next day.
-/

namespace DfeClickhouse.Dynamic

open Library

/-- A count of units holds whole days exactly when less than a unit is left over. -/
theorem dvd_div_iff {unit : Nat} (positive : 0 < unit) (day magnitude : Nat) :
    day ∣ magnitude / unit ↔ magnitude % (day * unit) < unit := by
  have split : magnitude % (day * unit) = magnitude % unit + unit * (magnitude / unit % day) := by
    rw [Nat.mul_comm day unit, Nat.mod_mul]
  have short : magnitude % unit < unit := Nat.mod_lt magnitude positive
  rw [Nat.dvd_iff_mod_eq_zero, split]
  constructor
  · intro whole
    rw [whole, Nat.mul_zero, Nat.add_zero]
    exact short
  · intro below
    by_contra partly
    have least : unit * 1 ≤ unit * (magnitude / unit % day) :=
      Nat.mul_le_mul_left unit (Nat.pos_of_ne_zero partly)
    omega

/-- A negative number truncated to units and then floored to days is its floor in days
exactly when the part of a day it holds is empty or reaches a unit. -/
theorem tdiv_ediv_neg_iff {unit day : Nat} (unitPositive : 0 < unit) (dayPositive : 0 < day)
    (magnitude : Nat) :
    (-(magnitude : Int)).tdiv unit / day = -(magnitude : Int) / (day * unit : Nat) ↔
      magnitude % (day * unit) = 0 ∨ unit ≤ magnitude % (day * unit) := by
  have daySign : (day : Int).sign = 1 := Int.sign_eq_one_of_pos (by exact_mod_cast dayPositive)
  have wholeSign : ((day * unit : Nat) : Int).sign = 1 :=
    Int.sign_eq_one_of_pos (by exact_mod_cast Nat.mul_pos dayPositive unitPositive)
  have truncated : (-(magnitude : Int)).tdiv unit = -((magnitude / unit : Nat) : Int) := by
    rw [Int.neg_tdiv, Int.ofNat_tdiv]
  have composed : ((magnitude / unit : Nat) : Int) / (day : Int) =
      (magnitude : Int) / (day * unit : Nat) := by
    exact_mod_cast (Nat.div_div_eq_div_mul magnitude unit day).trans (by rw [Nat.mul_comm])
  rw [truncated, Int.neg_ediv, Int.neg_ediv, daySign, wholeSign, composed]
  simp only [Int.natCast_dvd_natCast]
  have left := dvd_div_iff unitPositive day magnitude
  have right := Nat.dvd_iff_mod_eq_zero (m := magnitude) (n := day * unit)
  split <;> split <;> omega

/-- The units in a second of an epoch number, told by its magnitude. -/
def epochUnit (ts : Int) : Nat :=
  if ts.natAbs > 10 ^ 18 then 10 ^ 9
  else if ts.natAbs > 10 ^ 15 then 10 ^ 6
  else if ts.natAbs > 10 ^ 12 then 10 ^ 3
  else 1

theorem epochUnit_pos (ts : Int) : 0 < epochUnit ts := by
  unfold epochUnit
  split_ifs <;> decide

theorem epochToSeconds_eq_tdiv (ts : Int) : epochToSeconds ts = ts.tdiv (epochUnit ts) := by
  unfold epochToSeconds epochUnit
  norm_num only
  split_ifs <;> simp

/-- The epoch a value denotes: a JSON integer, or a string that reads as one. -/
def epochOf : Value → Option Int
  | .number number => number.asI64
  | .string text => parseSignedText 64 text
  | _ => none

/-- The day an epoch falls on. -/
def epochDay (ts : Int) : Int :=
  ts / (86400 * epochUnit ts : Nat)

theorem asI64_fits {number : Number} {value : Int} (taken : number.asI64 = some value) :
    -2 ^ 63 ≤ value ∧ value < 2 ^ 63 := by
  cases number with
  | posInt word =>
      simp only [Number.asI64, fitsSigned] at taken
      split at taken
      · next fits =>
          cases taken
          exact fits
      · cases taken
  | negInt word =>
      cases taken
      exact ⟨BitVec.le_toInt word, BitVec.toInt_lt⟩
  | float _ => cases taken

theorem epochOf_fits {value : Value} {ts : Int} (denotes : epochOf value = some ts) :
    -2 ^ 63 ≤ ts ∧ ts < 2 ^ 63 := by
  cases value with
  | number number => exact asI64_fits denotes
  | string text => exact parseSigned_fits denotes
  | null | bool _ | array _ | object _ => cases denotes

/-- The text of an integer is no bare date. -/
theorem isBareDate_of_parseSigned {bits : Nat} {text : Text} {value : Int}
    (parsed : parseSigned bits text = some value) : isBareDate text = false := by
  cases bare : isBareDate text with
  | false => rfl
  | true =>
      have hyphen : text[4]? = some '-' := by
        simp only [isBareDate, Bool.and_eq_true, beq_iff_eq] at bare
        exact bare.2
      cases isDigit_of_parseSigned parsed (by decide) hyphen

/-- An epoch reaches its day through its seconds. -/
theorem toEpochDays_of_epochOf {value : Value} {ts : Int} (denotes : epochOf value = some ts)
    (col : String) : toEpochDays value col = narrowDays (epochToSeconds ts / 86400) col := by
  cases value with
  | number number =>
      have taken : number.asI64 = some ts := denotes
      simp only [toEpochDays, epochDays, toEpochSeconds, epochNumber, taken, Option.orElse_some]
      rfl
  | string text =>
      have parsed : parseSigned 64 (trim text.toList) = some ts := denotes
      have parsedText : parseSignedText 64 text = some ts := denotes
      simp only [toEpochDays, isBareDate_of_parseSigned parsed, epochDays, toEpochSeconds,
        parsedText]
      rfl
  | null | bool _ | array _ | object _ => cases denotes

/-- An epoch has at most a trillion seconds: its unit grows with it. -/
theorem natAbs_epochToSeconds_le {ts : Int} (least : -2 ^ 63 ≤ ts) (greatest : ts < 2 ^ 63) :
    (epochToSeconds ts).natAbs ≤ 10 ^ 12 := by
  have magnitude : ts.natAbs ≤ epochUnit ts * 10 ^ 12 := by
    unfold epochUnit
    split_ifs <;> omega
  have quotient : (epochToSeconds ts).natAbs = ts.natAbs / epochUnit ts := by
    rw [epochToSeconds_eq_tdiv, Int.natAbs_tdiv, Int.natAbs_natCast]
    rfl
  rw [quotient]
  exact Nat.div_le_of_le_mul magnitude

theorem narrowDays_epoch {ts : Int} (least : -2 ^ 63 ≤ ts) (greatest : ts < 2 ^ 63)
    (col : String) :
    narrowDays (epochToSeconds ts / 86400) col = .ok (epochToSeconds ts / 86400) := by
  have small := natAbs_epochToSeconds_le least greatest
  have fits : -2 ^ (32 - 1) ≤ epochToSeconds ts / 86400 ∧
      epochToSeconds ts / 86400 < 2 ^ (32 - 1) := by omega
  rw [narrowDays, fitsSigned, if_pos fits]
  rfl

/-- The day of an epoch is the day its seconds fall on, unless it is before 1970 and
less than a unit below midnight. -/
theorem epochToSeconds_day_iff (ts : Int) :
    epochToSeconds ts / 86400 = epochDay ts ↔
      0 ≤ ts ∨ ts.natAbs % (86400 * epochUnit ts) = 0 ∨
        epochUnit ts ≤ ts.natAbs % (86400 * epochUnit ts) := by
  rw [epochToSeconds_eq_tdiv, epochDay]
  rcases le_or_gt 0 ts with nonneg | negative
  · refine iff_of_true ?_ (.inl nonneg)
    rw [Int.tdiv_eq_ediv_of_nonneg nonneg, Int.ediv_ediv_of_nonneg (Int.natCast_nonneg _),
      Nat.cast_mul, Int.mul_comm]
    rfl
  · have same : ts = -(ts.natAbs : Int) := by omega
    have step := tdiv_ediv_neg_iff (epochUnit_pos ts) (by decide : 0 < 86400) ts.natAbs
    rw [← same] at step
    rw [or_iff_right (by omega)]
    exact step

/-- Every epoch falls on a day that fits. -/
theorem fitsSigned_epochDay {ts : Int} (least : -2 ^ 63 ≤ ts) (greatest : ts < 2 ^ 63) :
    fitsSigned 32 (epochDay ts) = some (epochDay ts) := by
  have fits : -2 ^ (32 - 1) ≤ epochDay ts ∧ epochDay ts < 2 ^ (32 - 1) := by
    unfold epochDay epochUnit
    split_ifs <;> omega
  rw [fitsSigned, if_pos fits]

/-- An epoch is encoded as the day it falls on exactly when it is not before 1970, or a
whole number of days before it, or at least a unit away from the midnight above it. -/
theorem toEpochDays_epoch_iff {value : Value} {ts : Int} (denotes : epochOf value = some ts)
    (col : String) :
    (fitsSigned 32 (epochDay ts) = some (epochDay ts) →
        toEpochDays value col = .ok (epochDay ts)) ↔
      0 ≤ ts ∨ ts.natAbs % (86400 * epochUnit ts) = 0 ∨
        epochUnit ts ≤ ts.natAbs % (86400 * epochUnit ts) := by
  have ⟨least, greatest⟩ := epochOf_fits denotes
  rw [forall_prop_of_true (fitsSigned_epochDay least greatest), toEpochDays_of_epochOf denotes,
    narrowDays_epoch least greatest, Except.ok.injEq]
  exact epochToSeconds_day_iff ts

/-- The first millisecond of 1938 is on its day. -/
theorem toEpochDays_new_year :
    toEpochDays (.string "-1009843200000") "day" = .ok (-11688) :=
  have denotes : epochOf (.string "-1009843200000") = some (-1009843200000) := rfl
  (toEpochDays_epoch_iff denotes "day").mpr (.inr (.inl (by decide))) (by decide)

/-- The last millisecond of 1937 is on the first day of 1938. -/
theorem toEpochDays_new_year_eve :
    ¬ ∀ (value : Value) (ts : Int) (col : String), epochOf value = some ts →
      fitsSigned 32 (epochDay ts) = some (epochDay ts) →
        toEpochDays value col = .ok (epochDay ts) := by
  intro claimed
  have stored : toEpochDays (.number (.negInt (-1009843200001))) "day" = .ok (-11688) := rfl
  have expected := claimed (.number (.negInt (-1009843200001))) (-1009843200001) "day" rfl
    (by decide)
  rw [stored] at expected
  cases expected

end DfeClickhouse.Dynamic
