import DfeClickhouse.Dynamic.Encode
import DfeClickhouse.Library.DecimalLiteral

/-!
# Scaling decimal texts

The source scales a plain decimal literal digit by digit in checked 128-bit
arithmetic.  The digits only ever grow the number, so that it overflows exactly when
the exact result does.
-/

namespace DfeClickhouse.Dynamic

open Library

theorem fractionDigit_eq {fraction : Text} (digits : IsDigits fraction) (place : Nat) :
    fractionDigit fraction place = digitAt fraction place := by
  unfold fractionDigit digitAt
  cases found : fraction[place]? with
  | none => rfl
  | some digit =>
      have bounds := Char.isDigit_iff_toNat.mp (digits digit (List.mem_of_getElem? found))
      exact (Int.ofNat_sub bounds.1).symm

/-- Digits shifted into a number, without a bound. -/
def shifted (fraction : Text) : Nat → Nat → Nat → Nat
  | 0, _, acc => acc
  | count + 1, place, acc => shifted fraction count (place + 1) (acc * 10 + digitAt fraction place)

theorem le_shifted (fraction : Text) (count place acc : Nat) :
    acc ≤ shifted fraction count place acc := by
  induction count generalizing place acc with
  | zero => exact le_rfl
  | succ count ih =>
      have grown := ih (place + 1) (acc * 10 + digitAt fraction place)
      rw [shifted]
      omega

theorem fitsSigned_128 (value : Nat) :
    fitsSigned 128 value = if value < 2 ^ 127 then some (value : Int) else none := by
  unfold fitsSigned
  congr 1
  simp only [eq_iff_iff]
  omega

/-- The checked loop overflows where its result does. -/
theorem shiftDigits_eq {fraction : Text} (digits : IsDigits fraction) (count place acc : Nat)
    (fits : acc < 2 ^ 127) :
    shiftDigits fraction count place acc =
      if shifted fraction count place acc < 2 ^ 127 then
        some (shifted fraction count place acc : Int)
      else none := by
  induction count generalizing place acc with
  | zero => rw [shifted, if_pos fits, shiftDigits]
  | succ count ih =>
      have grown := le_shifted fraction count (place + 1) (acc * 10 + digitAt fraction place)
      have scaled : (acc : Int) * 10 = (acc * 10 : Nat) := by push_cast; rfl
      have added : ((acc * 10 : Nat) : Int) + fractionDigit fraction place =
          (acc * 10 + digitAt fraction place : Nat) := by
        rw [fractionDigit_eq digits]
        push_cast
        rfl
      rw [shiftDigits, scaled, fitsSigned_128, shifted]
      by_cases room : acc * 10 + digitAt fraction place < 2 ^ 127
      · rw [if_pos (by omega), Option.bind_eq_bind, Option.bind_some, added, fitsSigned_128,
          if_pos room]
        exact ih (place + 1) _ room
      · rw [if_neg (show ¬ shifted fraction count (place + 1) _ < 2 ^ 127 by omega)]
        split
        · rw [Option.bind_eq_bind, Option.bind_some, added, fitsSigned_128, if_neg room]
          rfl
        · rfl

/-- The loop continues a scaled fraction. -/
theorem shifted_eq {fraction : Text} (digits : IsDigits fraction) (whole count place : Nat) :
    shifted fraction count place (whole * 10 ^ place + scaledFraction fraction place) =
      whole * 10 ^ (place + count) + scaledFraction fraction (place + count) := by
  induction count generalizing place with
  | zero => rfl
  | succ count ih =>
      have next : (whole * 10 ^ place + scaledFraction fraction place) * 10 +
          digitAt fraction place =
            whole * 10 ^ (place + 1) + scaledFraction fraction (place + 1) := by
        rw [scaledFraction_succ digits, pow_succ]
        ring
      rw [shifted, next, ih, Nat.add_right_comm, Nat.add_assoc]

/-- The scaled, rounded number a literal denotes. -/
def backing (literal : DecimalLiteral) (scale : Nat) : Int :=
  literal.sign.apply (literal.rounded scale)

/-- The parts the source takes a literal apart into. -/
theorem splitOnce_literal (literal : DecimalLiteral) :
    (splitOnce literal.unsignedText ['.']).getD (literal.unsignedText, []) =
      (literal.whole, literal.places) := by
  have absent : '.' ∉ literal.whole := fun member => nomatch literal.isWhole '.' member
  unfold DecimalLiteral.unsignedText DecimalLiteral.places
  cases literal.fraction with
  | none =>
      rw [Option.elim_none, List.append_nil, splitOnce_absent absent]
      rfl
  | some digits =>
      rw [Option.elim_some, splitOnce_char absent]
      rfl

/-- The digits a literal keeps at a scale. -/
def kept (literal : DecimalLiteral) (scale : Nat) : Nat :=
  numeral literal.whole * 10 ^ scale + scaledFraction literal.places scale

theorem le_kept (literal : DecimalLiteral) (scale : Nat) :
    numeral literal.whole ≤ kept literal scale :=
  Nat.le_add_right_of_le (Nat.le_mul_of_pos_right _ (Nat.pow_pos (by decide)))

theorem rounded_eq_kept (literal : DecimalLiteral) (scale : Nat) :
    literal.rounded scale =
      (kept literal scale + (if 5 ≤ digitAt literal.places scale then 1 else 0) : Nat) :=
  literal.rounded_eq scale

theorem shiftDigits_literal (literal : DecimalLiteral) (scale : Nat)
    (fits : numeral literal.whole < 2 ^ 127) :
    shiftDigits literal.places scale 0 (numeral literal.whole) =
      if kept literal scale < 2 ^ 127 then some (kept literal scale : Int) else none := by
  have run := shifted_eq literal.isDigits_places (numeral literal.whole) scale 0
  rw [pow_zero, Nat.mul_one, scaledFraction_zero literal.isDigits_places, Nat.add_zero,
    Nat.zero_add] at run
  rw [shiftDigits_eq literal.isDigits_places _ _ _ fits, run]
  rfl

/-- The whole part, where it fits. -/
theorem start_literal (literal : DecimalLiteral) :
    (if literal.whole = [] then some 0 else parseSigned 128 literal.whole) =
      if numeral literal.whole < 2 ^ 127 then some (numeral literal.whole : Int) else none := by
  split
  · next empty =>
      rw [empty, numeral_nil]
      rfl
  · next nonempty =>
      rw [parseSigned_of_isDigits nonempty literal.isWhole]
      norm_cast

/-- What becomes of a literal's parts before its sign is put back. -/
theorem scale_parts (literal : DecimalLiteral) (scale : Nat) (finish : Int → Option Int) :
    ((if literal.whole = [] then some 0 else parseSigned 128 literal.whole).bind fun start =>
      (shiftDigits literal.places scale 0 start).bind fun acc =>
        (if 5 ≤ fractionDigit literal.places scale then fitsSigned 128 (acc + 1)
          else some acc).bind finish) =
      if literal.rounded scale < 2 ^ 127 then finish (literal.rounded scale) else none := by
  have least := le_kept literal scale
  have up : 5 ≤ fractionDigit literal.places scale ↔ 5 ≤ digitAt literal.places scale := by
    rw [fractionDigit_eq literal.isDigits_places]
    norm_cast
  rw [start_literal, rounded_eq_kept]
  simp only [up]
  by_cases room : kept literal scale < 2 ^ 127
  · rw [if_pos (show numeral literal.whole < 2 ^ 127 by omega), Option.bind_some,
      shiftDigits_literal literal scale (by omega), if_pos room, Option.bind_some]
    split
    · have added : (kept literal scale : Int) + 1 = (kept literal scale + 1 : Nat) := rfl
      rw [added, fitsSigned_128]
      split
      · rw [if_pos (by omega), Option.bind_some]
      · rw [if_neg (by omega), Option.bind_none]
    · rw [if_pos (by omega), Option.bind_some, Nat.add_zero]
  · rw [if_neg (show ¬ ((kept literal scale + _ : Nat) : Int) < 2 ^ 127 by omega)]
    split
    · rw [Option.bind_some, shiftDigits_literal literal scale (by omega), if_neg room]
      rfl
    · rfl

theorem ite_bind {α β : Type} {condition : Prop} [Decidable condition] (first second : Option α)
    (next : α → Option β) :
    (if condition then first else second).bind next =
      if condition then first.bind next else second.bind next := by
  split <;> rfl

theorem not_isSign_of_unsignedText {literal : DecimalLiteral} {char : Char} {rest : Text}
    (opens : literal.unsignedText = char :: rest) : isSign char = false := by
  rcases literal.mem_unsignedText (opens ▸ List.mem_cons_self) with digit | rfl
  · exact not_isSign_of_isDigit digit
  · rfl

/-- A plain literal is scaled exactly, or not at all. -/
theorem decimalFromText_text (literal : DecimalLiteral) (scale : Nat) :
    decimalFromText literal.text scale =
      if literal.rounded scale < 2 ^ 127 then some (backing literal scale) else none := by
  have parts := splitOnce_literal literal
  have present : ¬ (literal.whole = [] ∧ literal.places = []) := by
    rintro ⟨whole, places⟩
    have empty : literal.whole ++ literal.fraction.getD [] = [] := by
      rw [whole]
      exact places
    exact literal.nonempty empty
  have digits : (!literal.whole.all Char.isDigit || !literal.places.all Char.isDigit) = false := by
    rw [isDigits_iff_all.mp literal.isWhole, isDigits_iff_all.mp literal.isDigits_places]
    rfl
  have scaled (finish : Int → Option Int) := scale_parts literal scale finish
  simp only [ite_bind, Option.bind_some] at scaled
  have nonneg : 0 ≤ literal.rounded scale := by
    rw [literal.rounded_eq]
    exact Int.natCast_nonneg _
  unfold backing
  cases sign : literal.sign with
  | minus =>
      rw [DecimalLiteral.text, sign, Sign.text, List.cons_append, decimalFromText]
      simp only [List.nil_append, parts, Option.bind_eq_bind, Option.bind_some, if_neg present,
        digits, Bool.false_eq_true, if_false, if_true, scaled]
      split
      · next fits =>
          rw [fitsSigned, if_pos (by omega)]
          rfl
      · rfl
  | plus =>
      rw [DecimalLiteral.text, sign, Sign.text, List.cons_append, decimalFromText]
      simp only [List.nil_append, parts, Option.bind_eq_bind, Option.bind_some, if_neg present,
        digits, Bool.false_eq_true, if_false, scaled]
      rfl
  | unwritten =>
      rw [DecimalLiteral.text, sign, Sign.text, List.nil_append, decimalFromText]
      · simp only [parts, Option.bind_eq_bind, Option.bind_some, if_neg present, digits,
          Bool.false_eq_true, if_false, scaled]
        rfl
      · intro empty
        obtain ⟨char, member, -⟩ := literal.exists_digit
        rw [empty] at member
        cases member
      · intro rest opens
        cases not_isSign_of_unsignedText opens
      · intro rest opens
        cases not_isSign_of_unsignedText opens

/-- The value is a literal: a number whose text it is, or a string of it. -/
def IsLiteral (json : JsonText) (literal : DecimalLiteral) : Value → Prop
  | .number number => (number.text json).toList = literal.text
  | .string text => trim text.toList = literal.text
  | _ => False

theorem dropWhile_text (literal : DecimalLiteral) :
    literal.text.dropWhile (fun char => char == '+' || char == '-') = literal.unsignedText := by
  have unsigned : literal.unsignedText.dropWhile (fun char => char == '+' || char == '-') =
      literal.unsignedText := by
    cases opens : literal.unsignedText with
    | nil => rfl
    | cons char rest =>
        have noSign : (char == '+' || char == '-') = false := not_isSign_of_unsignedText opens
        rw [List.dropWhile_cons, noSign]
        rfl
  unfold DecimalLiteral.text
  cases literal.sign <;> exact unsigned

/-- A literal is scaled exactly or refused; it is never rounded through a float. -/
theorem decimalBackingI128_literal {json : JsonText} {literal : DecimalLiteral} {value : Value}
    (isLiteral : IsLiteral json literal value) (scale : Nat) (col : String) :
    decimalBackingI128 json value scale col =
      if literal.rounded scale < 2 ^ 127 then .ok (backing literal scale)
      else encErr col "decimal out of range" := by
  have digit : literal.unsignedText.any Char.isDigit = true :=
    List.any_eq_true.mpr literal.exists_digit
  have plain : literal.unsignedText.all (fun char => char.isDigit || char == '.') = true := by
    apply List.all_eq_true.mpr
    intro char member
    rcases literal.mem_unsignedText member with digit | rfl
    · rw [digit]
      rfl
    · rfl
  unfold decimalBackingI128
  cases value with
  | number number =>
      have same : (number.text json).toList = literal.text := isLiteral
      simp only [bind, Except.bind, same, decimalFromText_text, dropWhile_text, digit, plain,
        Bool.and_self, if_true]
      split_ifs <;> rfl
  | string text =>
      have same : trim text.toList = literal.text := isLiteral
      simp only [bind, Except.bind, same, decimalFromText_text, dropWhile_text, digit, plain,
        Bool.and_self, if_true]
      split_ifs <;> rfl
  | null | bool _ | array _ | object _ => exact isLiteral.elim

theorem backing_eq_or_neg (literal : DecimalLiteral) (scale : Nat) :
    backing literal scale = literal.rounded scale ∨
      backing literal scale = -literal.rounded scale := by
  unfold backing
  cases literal.sign
  · exact .inl rfl
  · exact .inl rfl
  · exact .inr rfl

/-- A column of a given width accepts the scaled numbers that fit it. -/
theorem checked_backing_ok_iff {json : JsonText} {literal : DecimalLiteral} {value : Value}
    (isLiteral : IsLiteral json literal value) {width : Nat} (narrow : 8 * width < 128)
    (scale : Nat) (col message : String) (bytes : Bytes) :
    checked width (decimalBackingI128 json value scale col) fitsSigned col message = .ok bytes ↔
      (-2 ^ (8 * width - 1) ≤ backing literal scale ∧
        backing literal scale < 2 ^ (8 * width - 1)) ∧
      bytes = intLe width (backing literal scale) := by
  have inside : (2 : Int) ^ (8 * width - 1) < 2 ^ 127 :=
    pow_lt_pow_right₀ (by decide) (by omega)
  rw [decimalBackingI128_literal isLiteral]
  split
  · exact checked_ok_iff
  · next large =>
      refine iff_of_false (fun same => nomatch same) ?_
      rintro ⟨⟨least, greatest⟩, -⟩
      rcases backing_eq_or_neg literal scale with same | same <;> omega

/-- A plain literal is scaled exactly where its scaled magnitude stays below `2 ^ 127`; a
value of it is refused otherwise, and a decimal column stores the numbers of its width. -/
theorem decimal_literal (literal : DecimalLiteral) (scale : Nat) :
    decimalFromText literal.text scale =
        (if literal.rounded scale < 2 ^ 127 then some (backing literal scale) else none) ∧
      ∀ (json : JsonText) (value : Value) (col : String), IsLiteral json literal value →
        decimalBackingI128 json value scale col =
            (if literal.rounded scale < 2 ^ 127 then .ok (backing literal scale)
            else encErr col "decimal out of range") ∧
          ∀ (info : TypeInfo) (bytes : Bytes), info.scale.getD 0 = scale →
            (encodingTag info = .decimal32 →
              (scalarCell json info value col = .ok bytes ↔
                (-2 ^ 31 ≤ backing literal scale ∧ backing literal scale < 2 ^ 31) ∧
                  bytes = intLe 4 (backing literal scale))) ∧
            (encodingTag info = .decimal64 →
              (scalarCell json info value col = .ok bytes ↔
                (-2 ^ 63 ≤ backing literal scale ∧ backing literal scale < 2 ^ 63) ∧
                  bytes = intLe 8 (backing literal scale))) := by
  refine ⟨decimalFromText_text literal scale, fun json value col isLiteral => ?_⟩
  refine ⟨decimalBackingI128_literal isLiteral scale col, fun info bytes scaled => ⟨?_, ?_⟩⟩
  · intro tag
    simp only [scalarCell, tag, scaled]
    exact checked_backing_ok_iff isLiteral (by decide) scale col "Decimal32 overflow" bytes
  · intro tag
    simp only [scalarCell, tag, scaled]
    exact checked_backing_ok_iff isLiteral (by decide) scale col "Decimal64 overflow" bytes

example : decimalFromText "-1.005".toList 2 = some (-101) := by decide

end DfeClickhouse.Dynamic
