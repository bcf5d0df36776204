import DfeClickhouse.Library.Numeral

/-!
# Decimal literals

A plain decimal literal, the rational it denotes, and the integer it becomes when it is
scaled by a power of ten and rounded half up.  The integer is reached digit by digit.
-/

namespace DfeClickhouse.Library

/-- The sign a literal may be written with. -/
inductive Sign
  | unwritten
  | plus
  | minus

def Sign.text : Sign → Text
  | unwritten => []
  | plus => ['+']
  | minus => ['-']

def Sign.apply (sign : Sign) {α : Type} [Neg α] (value : α) : α :=
  match sign with
  | minus => -value
  | _ => value

/-- Digits around an optional point, at least one of them. -/
structure DecimalLiteral where
  sign : Sign
  whole : Text
  /-- The digits after the point, if there is one. -/
  fraction : Option Text
  isWhole : IsDigits whole
  isFraction : IsDigits (fraction.getD [])
  nonempty : whole ++ fraction.getD [] ≠ []

namespace DecimalLiteral

variable (literal : DecimalLiteral)

/-- The digits after the point. -/
def places : Text :=
  literal.fraction.getD []

theorem isDigits_places : IsDigits literal.places :=
  literal.isFraction

/-- A literal in writing, without its sign. -/
def unsignedText : Text :=
  literal.whole ++ literal.fraction.elim [] fun digits => '.' :: digits

/-- A literal in writing. -/
def text : Text :=
  literal.sign.text ++ literal.unsignedText

theorem mem_unsignedText {char : Char} (member : char ∈ literal.unsignedText) :
    char.isDigit = true ∨ char = '.' := by
  have isPlace := literal.isFraction
  unfold unsignedText at member
  cases written : literal.fraction with
  | none =>
      rw [written, Option.elim_none, List.append_nil] at member
      exact .inl (literal.isWhole char member)
  | some digits =>
      rw [written] at isPlace member
      rcases List.mem_append.mp member with member | member
      · exact .inl (literal.isWhole char member)
      · rcases List.mem_cons.mp member with rfl | member
        · exact .inr rfl
        · exact .inl (isPlace char member)

theorem exists_digit : ∃ char ∈ literal.unsignedText, char.isDigit = true := by
  obtain ⟨char, member⟩ := List.exists_mem_of_ne_nil _ literal.nonempty
  rcases List.mem_append.mp member with inWhole | inFraction
  · exact ⟨char, List.mem_append_left _ inWhole, literal.isWhole char inWhole⟩
  · refine ⟨char, List.mem_append_right _ ?_, literal.isFraction char inFraction⟩
    cases written : literal.fraction with
    | none =>
        rw [written] at inFraction
        cases inFraction
    | some digits =>
        rw [written] at inFraction
        exact List.mem_cons_of_mem _ inFraction

/-- What a literal denotes without its sign. -/
def magnitude : ℚ :=
  numeral literal.whole + (numeral literal.places : ℚ) / 10 ^ literal.places.length

/-- What a literal denotes. -/
def value : ℚ :=
  literal.sign.apply literal.magnitude

theorem magnitude_nonneg : 0 ≤ literal.magnitude := by
  unfold magnitude
  positivity

@[simp] theorem abs_value : |literal.value| = literal.magnitude := by
  have nonneg := literal.magnitude_nonneg
  unfold value Sign.apply
  split
  · rw [abs_neg, abs_of_nonneg nonneg]
  · rw [abs_of_nonneg nonneg]

/-- The scaled magnitude, rounded half up. -/
def rounded (scale : Nat) : Int :=
  ⌊|literal.value| * 10 ^ scale + 1 / 2⌋

end DecimalLiteral

/-- The digit at a place of a fraction, zero past its end. -/
def digitAt (fraction : Text) (place : Nat) : Nat :=
  (fraction[place]?.map digitValue).getD 0

/-- A fraction scaled by a power of ten, its further digits dropped. -/
def scaledFraction (fraction : Text) (scale : Nat) : Nat :=
  numeral fraction * 10 ^ scale / 10 ^ fraction.length

theorem scaledFraction_zero {fraction : Text} (digits : IsDigits fraction) :
    scaledFraction fraction 0 = 0 := by
  rw [scaledFraction, pow_zero, Nat.mul_one, Nat.div_eq_of_lt (numeral_lt digits)]

@[simp] theorem scaledFraction_nil (scale : Nat) : scaledFraction [] scale = 0 := by
  rw [scaledFraction, numeral_nil, Nat.zero_mul, Nat.zero_div]

@[simp] theorem scaledFraction_cons (char : Char) (fraction : Text) (scale : Nat) :
    scaledFraction (char :: fraction) (scale + 1) =
      digitValue char * 10 ^ scale + scaledFraction fraction scale := by
  have positive : 0 < 10 ^ fraction.length := Nat.pow_pos (by decide)
  rw [scaledFraction, scaledFraction, numeral_cons, List.length_cons, pow_succ, pow_succ,
    ← Nat.mul_assoc, Nat.mul_div_mul_right _ _ (by decide : 0 < 10), Nat.add_mul,
    Nat.mul_right_comm, Nat.mul_comm _ (10 ^ fraction.length), Nat.mul_add_div positive]

/-- One more digit. -/
theorem scaledFraction_succ {fraction : Text} (digits : IsDigits fraction) (scale : Nat) :
    scaledFraction fraction (scale + 1) =
      scaledFraction fraction scale * 10 + digitAt fraction scale := by
  induction fraction generalizing scale with
  | nil => simp [scaledFraction_nil, digitAt]
  | cons char fraction ih =>
      have ⟨_, rest⟩ := isDigits_cons.mp digits
      cases scale with
      | zero =>
          rw [scaledFraction_cons, scaledFraction_zero rest, scaledFraction_zero digits]
          simp [digitAt]
      | succ scale =>
          have same : digitAt (char :: fraction) (scale + 1) = digitAt fraction scale := rfl
          rw [scaledFraction_cons, scaledFraction_cons, ih rest, same]
          ring

/-- The next digit decides which way a quotient is rounded. -/
theorem half_up_div {numerator denominator digit : Nat} (positive : 0 < denominator)
    (next : numerator * 10 / denominator = numerator / denominator * 10 + digit) :
    (2 * numerator + denominator) / (2 * denominator) =
      numerator / denominator + if 5 ≤ digit then 1 else 0 := by
  have split := Nat.div_add_mod numerator denominator
  have below := Nat.mod_lt numerator positive
  generalize numerator / denominator = quotient at split next ⊢
  generalize numerator % denominator = remainder at split below
  subst split
  have isDigit : digit = remainder * 10 / denominator := by
    have whole : (denominator * quotient + remainder) * 10 =
        denominator * (quotient * 10) + remainder * 10 := by ring
    rw [whole, Nat.mul_add_div positive] at next
    omega
  have halves : 2 * (denominator * quotient + remainder) + denominator =
      2 * denominator * quotient + (2 * remainder + denominator) := by ring
  have reaches : 5 ≤ digit ↔ 5 * denominator ≤ remainder * 10 := by
    rw [isDigit, Nat.le_div_iff_mul_le positive]
  rw [halves, Nat.mul_add_div (by omega)]
  congr 1
  split_ifs with up
  · exact Nat.div_eq_of_lt_le (by omega) (by omega)
  · exact Nat.div_eq_of_lt (by omega)

namespace DecimalLiteral

/-- Rounding half up is dropping the further digits and adding one after a digit of at
least five. -/
theorem rounded_eq (literal : DecimalLiteral) (scale : Nat) :
    literal.rounded scale =
      ((numeral literal.whole * 10 ^ scale + scaledFraction literal.places scale +
        (if 5 ≤ digitAt literal.places scale then 1 else 0) : Nat) : Int) := by
  have positive : 0 < 10 ^ literal.places.length := Nat.pow_pos (by decide)
  have next : numeral literal.places * 10 ^ scale * 10 / 10 ^ literal.places.length =
      scaledFraction literal.places scale * 10 + digitAt literal.places scale := by
    rw [← scaledFraction_succ literal.isDigits_places, scaledFraction, pow_succ, ← Nat.mul_assoc]
  have up := half_up_div positive next
  have quotient : |literal.value| * 10 ^ scale + 1 / 2 =
      ((numeral literal.whole * 10 ^ scale : Nat) : ℚ) +
        ((2 * (numeral literal.places * 10 ^ scale) + 10 ^ literal.places.length : Nat) : ℚ) /
          (2 * 10 ^ literal.places.length : Nat) := by
    rw [literal.abs_value, magnitude]
    push_cast
    field_simp
    ring
  rw [rounded, quotient, Int.floor_natCast_add, Rat.floor_natCast_div_natCast, ← Int.natCast_ediv,
    up, ← Nat.cast_add, Nat.add_assoc]
  rfl

end DecimalLiteral

end DfeClickhouse.Library
