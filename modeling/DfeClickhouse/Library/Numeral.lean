import DfeClickhouse.Library.Text

/-!
# Numerals

Runs of decimal digits, the numbers they denote and what integer parsing makes of
them, with and without a sign.
-/

namespace DfeClickhouse.Library

/-- A text of nothing but decimal digits. -/
def IsDigits (text : Text) : Prop :=
  ∀ char ∈ text, char.isDigit = true

instance (text : Text) : Decidable (IsDigits text) :=
  inferInstanceAs (Decidable (∀ char ∈ text, char.isDigit = true))

/-- The number a run of digits denotes. -/
def numeral (text : Text) : Nat :=
  Nat.ofDigitChars 10 text 0

/-- The number a digit denotes. -/
def digitValue (char : Char) : Nat :=
  char.toNat - '0'.toNat

theorem isDigits_nil : IsDigits [] :=
  fun _ member => nomatch member

@[simp, grind =] theorem isDigits_cons {char : Char} {text : Text} :
    IsDigits (char :: text) ↔ char.isDigit = true ∧ IsDigits text :=
  List.forall_mem_cons

@[simp, grind =] theorem isDigits_append {front back : Text} :
    IsDigits (front ++ back) ↔ IsDigits front ∧ IsDigits back :=
  List.forall_mem_append

theorem isDigits_iff_all {text : Text} : IsDigits text ↔ text.all Char.isDigit = true :=
  List.all_eq_true.symm

theorem digitValue_lt_ten {char : Char} (digit : char.isDigit = true) : digitValue char < 10 := by
  have bounds := Char.isDigit_iff_toNat.mp digit
  simp only [Char.reduceToNat] at bounds
  simp only [digitValue, Char.reduceToNat]
  omega

@[simp] theorem numeral_nil : numeral [] = 0 := rfl

theorem numeral_append (front back : Text) :
    numeral (front ++ back) = numeral front * 10 ^ back.length + numeral back := by
  rw [numeral, Nat.ofDigitChars_append, Nat.ofDigitChars_eq_ofDigitChars_zero, Nat.mul_comm]
  rfl

@[simp] theorem numeral_singleton (char : Char) : numeral [char] = digitValue char := by
  rw [numeral, Nat.ofDigitChars_cons, Nat.ofDigitChars_nil, Nat.mul_zero, Nat.zero_add]
  rfl

theorem numeral_cons (char : Char) (text : Text) :
    numeral (char :: text) = digitValue char * 10 ^ text.length + numeral text := by
  rw [← numeral_singleton, ← numeral_append]
  rfl

theorem numeral_lt {text : Text} (digits : IsDigits text) : numeral text < 10 ^ text.length := by
  induction text with
  | nil => decide
  | cons char text ih =>
      have ⟨digit, digits⟩ := isDigits_cons.mp digits
      have small := digitValue_lt_ten digit
      have rest := ih digits
      rw [numeral_cons, List.length_cons, pow_succ]
      calc digitValue char * 10 ^ text.length + numeral text
          < digitValue char * 10 ^ text.length + 10 ^ text.length := by omega
        _ = (digitValue char + 1) * 10 ^ text.length := by ring
        _ ≤ 10 * 10 ^ text.length := Nat.mul_le_mul_right _ small
        _ = 10 ^ text.length * 10 := by ring

/-- The last `width` digits of a number. -/
def padded : Nat → Nat → Text
  | 0, _ => []
  | width + 1, value => padded width (value / 10) ++ [Nat.digitChar (value % 10)]

@[simp] theorem length_padded (width value : Nat) : (padded width value).length = width := by
  induction width generalizing value with
  | zero => rfl
  | succ width ih => rw [padded, List.length_append, ih, List.length_singleton]

theorem isDigits_padded (width value : Nat) : IsDigits (padded width value) := by
  induction width generalizing value with
  | zero => exact isDigits_nil
  | succ width ih =>
      refine isDigits_append.mpr ⟨ih _, isDigits_cons.mpr ⟨?_, isDigits_nil⟩⟩
      rw [Nat.isDigit_digitChar]
      exact decide_eq_true (Nat.mod_lt _ (by decide))

@[simp]
theorem numeral_padded (width value : Nat) : numeral (padded width value) = value % 10 ^ width := by
  induction width generalizing value with
  | zero => simp [padded, Nat.mod_one]
  | succ width ih =>
      have last : numeral [Nat.digitChar (value % 10)] = value % 10 := by
        rw [numeral, Nat.ofDigitChars_cons_digitChar_of_lt_ten (Nat.mod_lt _ (by decide)),
          Nat.ofDigitChars_nil, Nat.mul_zero, Nat.zero_add]
      rw [padded, numeral_append, ih, last, List.length_singleton, pow_one, pow_succ,
        Nat.mul_comm (10 ^ width) 10, Nat.mod_mul]
      ring

theorem numeral_padded_of_lt {width value : Nat} (fits : value < 10 ^ width) :
    numeral (padded width value) = value := by
  rw [numeral_padded, Nat.mod_eq_of_lt fits]

theorem digitChar_digitValue {char : Char} (digit : char.isDigit = true) :
    Nat.digitChar (digitValue char) = char := by
  have bounds := Char.isDigit_iff_toNat.mp digit
  apply Char.toNat_inj.mp
  rw [Nat.toNat_digitChar_of_lt_ten (digitValue_lt_ten digit), digitValue]
  simp only [Char.reduceToNat] at bounds ⊢
  omega

/-- A run of digits is its number, padded to its length. -/
theorem padded_numeral {text : Text} (digits : IsDigits text) :
    padded text.length (numeral text) = text := by
  induction text using List.reverseRecOn with
  | nil => rfl
  | append_singleton text last ih =>
      have ⟨front, digit⟩ := isDigits_append.mp digits
      have isDigit : last.isDigit = true := digit last (by simp)
      have small := digitValue_lt_ten isDigit
      rw [numeral_append, numeral_singleton, List.length_append, List.length_singleton, padded,
        pow_one, Nat.mul_comm, Nat.mul_add_div (by decide), Nat.div_eq_of_lt small,
        Nat.mul_add_mod, Nat.mod_eq_of_lt small, Nat.add_zero, ih front,
        digitChar_digitValue isDigit]

theorem parseDigits_eq_some_iff {text : Text} {value : Nat} :
    parseDigits text = some value ↔ text ≠ [] ∧ IsDigits text ∧ numeral text = value := by
  rw [parseDigits, isDigits_iff_all]
  split
  · next shape =>
      constructor
      · intro same
        cases same
        exact ⟨shape.1, shape.2, rfl⟩
      · rintro ⟨-, -, rfl⟩
        rfl
  · next shape =>
      constructor
      · intro same
        cases same
      · intro holds
        exact absurd ⟨holds.1, holds.2.1⟩ shape

/-- A character that begins a signed integer. -/
def isSign (char : Char) : Bool :=
  char == '+' || char == '-'

/-- A text without the sign it may begin with. -/
def unsignedPart : Text → Text
  | '-' :: rest => rest
  | '+' :: rest => rest
  | text => text

theorem not_isSign_of_isDigit {char : Char} (digit : char.isDigit = true) :
    isSign char = false := by
  rw [isSign, Bool.or_eq_false_iff, beq_eq_false_iff_ne, beq_eq_false_iff_ne]
  constructor
  · rintro rfl
    cases digit
  · rintro rfl
    cases digit

theorem unsignedPart_of_isDigits {text : Text} (digits : IsDigits text) :
    unsignedPart text = text := by
  unfold unsignedPart
  split
  · cases digits '-' (by simp)
  · cases digits '+' (by simp)
  · rfl

/-- A leading zero changes nothing, unless it is all there is. -/
theorem parseDigits_zero {rest : Text} (nonempty : rest ≠ []) :
    parseDigits ('0' :: rest) = parseDigits rest := by
  have zero : ('0' :: rest).all Char.isDigit = rest.all Char.isDigit := by
    rw [List.all_cons]
    rfl
  simp only [parseDigits, zero, ne_eq, nonempty, not_false_eq_true, true_and, reduceCtorEq]
  rfl

/-- Integer parsing reads the digits after a sign. -/
theorem parseSigned_eq (bits : Nat) (text : Text) :
    parseSigned bits text =
      ((parseDigits (unsignedPart text)).map fun (value : Nat) =>
        if text.head? = some '-' then -(value : Int) else (value : Int)).filter
          fun value => -2 ^ (bits - 1) ≤ value && value < 2 ^ (bits - 1) := by
  cases text with
  | nil => rfl
  | cons char rest =>
      by_cases minus : char = '-'
      · subst minus
        rfl
      · by_cases plus : char = '+'
        · subst plus
          rfl
        · simp [parseSigned, unsignedPart, minus, plus]

theorem parseSigned_of_isDigits {bits : Nat} {text : Text} (nonempty : text ≠ [])
    (digits : IsDigits text) :
    parseSigned bits text =
      if (numeral text : Int) < 2 ^ (bits - 1) then some (numeral text : Int) else none := by
  have read := parseDigits_eq_some_iff.mpr ⟨nonempty, digits, rfl⟩
  have least : -2 ^ (bits - 1) ≤ (numeral text : Int) :=
    (Int.neg_nonpos_of_nonneg (Int.pow_nonneg (by decide))).trans (Int.natCast_nonneg _)
  have unsigned : text.head? ≠ some '-' := by
    intro minus
    cases digits '-' (List.mem_of_head? minus)
  rw [parseSigned_eq, unsignedPart_of_isDigits digits, read]
  simp only [Option.map_some, Option.filter_some, if_neg unsigned, least, decide_true,
    Bool.true_and, decide_eq_true_eq]

theorem parseUnsigned_of_isDigits {bits : Nat} {text : Text} (nonempty : text ≠ [])
    (digits : IsDigits text) :
    parseUnsigned bits text = if numeral text < 2 ^ bits then some (numeral text) else none := by
  have read := parseDigits_eq_some_iff.mpr ⟨nonempty, digits, rfl⟩
  unfold parseUnsigned
  split
  · cases digits '+' (by simp)
  · simp only [read, Option.filter_some, decide_eq_true_eq]

/-- A text that reads as an integer is a run of digits after a sign, if it has one. -/
theorem isDigits_of_parseSigned {bits : Nat} {text : Text} {value : Int}
    (parsed : parseSigned bits text = some value) :
    unsignedPart text ≠ [] ∧ IsDigits (unsignedPart text) := by
  rw [parseSigned_eq] at parsed
  have kept := (Option.filter_eq_some_iff.mp parsed).1
  obtain ⟨number, read, -⟩ := Option.map_eq_some_iff.mp kept
  have ⟨nonempty, digits, _⟩ := parseDigits_eq_some_iff.mp read
  exact ⟨nonempty, digits⟩

theorem parseSigned_fits {bits : Nat} {text : Text} {value : Int}
    (parsed : parseSigned bits text = some value) :
    -2 ^ (bits - 1) ≤ value ∧ value < 2 ^ (bits - 1) := by
  have kept := (Option.filter_eq_some_iff.mp parsed).2
  simpa using kept

theorem length_unsignedPart_le (text : Text) : (unsignedPart text).length ≤ text.length := by
  unfold unsignedPart
  split
  · exact Nat.le_succ _
  · exact Nat.le_succ _
  · exact Nat.le_refl _

/-- A number read has no more digits than its text has characters. -/
theorem natAbs_lt_of_parseSigned {bits : Nat} {text : Text} {value : Int}
    (parsed : parseSigned bits text = some value) : value.natAbs < 10 ^ text.length := by
  rw [parseSigned_eq] at parsed
  have kept := (Option.filter_eq_some_iff.mp parsed).1
  obtain ⟨number, read, same⟩ := Option.map_eq_some_iff.mp kept
  have ⟨_, digits, valued⟩ := parseDigits_eq_some_iff.mp read
  have below := numeral_lt digits
  have wider := Nat.pow_le_pow_right (show 0 < 10 by decide) (length_unsignedPart_le text)
  have size : value.natAbs = number := by
    rw [← same]
    split
    · rw [Int.natAbs_neg, Int.natAbs_natCast]
    · rw [Int.natAbs_natCast]
  omega

theorem lt_of_parseUnsigned {bits : Nat} {text : Text} {value : Nat}
    (parsed : parseUnsigned bits text = some value) : value < 10 ^ text.length := by
  have read (digits : Text) (parsed : (parseDigits digits).filter (fun value => value < 2 ^ bits) =
      some value) : value < 10 ^ digits.length := by
    have ⟨_, isNumber, valued⟩ := parseDigits_eq_some_iff.mp (Option.filter_eq_some_iff.mp parsed).1
    rw [← valued]
    exact numeral_lt isNumber
  unfold parseUnsigned at parsed
  split at parsed
  · rename_i rest
    exact Nat.lt_of_lt_of_le (read rest parsed)
      (Nat.pow_le_pow_right (by decide) (Nat.le_succ rest.length))
  · exact read text parsed

/-- The text of an integer has signs and digits only. -/
theorem mem_of_parseSigned {bits : Nat} {text : Text} {value : Int}
    (parsed : parseSigned bits text = some value) {char : Char} (member : char ∈ text) :
    isSign char = true ∨ char.isDigit = true := by
  have ⟨_, digits⟩ := isDigits_of_parseSigned parsed
  unfold unsignedPart at digits
  split at digits
  · rcases List.mem_cons.mp member with rfl | later
    · exact .inl rfl
    · exact .inr (digits char later)
  · rcases List.mem_cons.mp member with rfl | later
    · exact .inl rfl
    · exact .inr (digits char later)
  · exact .inr (digits char member)

/-- The text of an integer has digits after its first character. -/
theorem isDigit_of_parseSigned {bits : Nat} {text : Text} {value : Int}
    (parsed : parseSigned bits text = some value) {index : Nat} {char : Char}
    (later : 0 < index) (found : text[index]? = some char) : char.isDigit = true := by
  have ⟨_, digits⟩ := isDigits_of_parseSigned parsed
  cases text with
  | nil => cases found
  | cons first rest =>
      obtain ⟨index, rfl⟩ := Nat.exists_eq_add_of_lt later
      have inRest : char ∈ rest := List.mem_of_getElem? (i := index) (by simpa using found)
      have inDigits : char ∈ unsignedPart (first :: rest) := by
        unfold unsignedPart
        split
        · next same => cases same; exact inRest
        · next same => cases same; exact inRest
        · exact List.mem_cons_of_mem first inRest
      exact digits char inDigits

end DfeClickhouse.Library
