import Mathlib

/-!
# Text

The standard library's string operations over lists of characters: trimming,
prefix and suffix stripping, searching and integer parsing.
-/

namespace DfeClickhouse.Library

/-- A text, character by character. -/
abbrev Text := List Char

/-- The Unicode `White_Space` property. -/
def isWhitespace (char : Char) : Bool :=
  let code := char.toNat
  (9 ≤ code && code ≤ 13) || code == 0x20 || code == 0x85 || code == 0xA0 ||
    code == 0x1680 || (0x2000 ≤ code && code ≤ 0x200A) || code == 0x2028 ||
    code == 0x2029 || code == 0x202F || code == 0x205F || code == 0x3000

theorem isWhitespace_of_isDigit {char : Char} (digit : char.isDigit = true) :
    isWhitespace char = false := by
  simp only [Char.isDigit, Bool.and_eq_true, decide_eq_true_eq, ge_iff_le, UInt32.le_iff_toNat_le]
    at digit
  have bounds : 48 ≤ char.toNat ∧ char.toNat ≤ 57 := digit
  simp only [isWhitespace, Bool.or_eq_false_iff, Bool.and_eq_false_iff, decide_eq_false_iff_not,
    beq_eq_false_iff_ne]
  omega

/-- A text without the characters of a kind at its end. -/
def trimEndMatches (kind : Char → Bool) (text : Text) : Text :=
  text.rdropWhile kind

/-- A text without the characters of a kind at either end. -/
def trimMatches (kind : Char → Bool) (text : Text) : Text :=
  trimEndMatches kind (text.dropWhile kind)

/-- A text without white space at either end. -/
def trim (text : Text) : Text :=
  trimMatches isWhitespace text

theorem trimEndMatches_isPrefix (kind : Char → Bool) (text : Text) :
    trimEndMatches kind text <+: text :=
  List.rdropWhile_prefix kind text

theorem trimMatches_isInfix (kind : Char → Bool) (text : Text) :
    trimMatches kind text <:+: text :=
  (trimEndMatches_isPrefix kind _).isInfix.trans (List.dropWhile_suffix kind).isInfix

theorem length_trim_le (text : Text) : (trim text).length ≤ text.length :=
  (trimMatches_isInfix isWhitespace text).length_le

/-- A text is its trimmed part between two runs of white space. -/
theorem exists_trim_eq (text : Text) :
    ∃ front back : Text, text = front ++ trim text ++ back ∧
      (∀ char ∈ front, isWhitespace char = true) ∧
      (∀ char ∈ back, isWhitespace char = true) := by
  refine ⟨text.takeWhile isWhitespace,
    ((text.dropWhile isWhitespace).reverse.takeWhile isWhitespace).reverse, ?_, ?_, ?_⟩
  · have inner : trim text ++
        ((text.dropWhile isWhitespace).reverse.takeWhile isWhitespace).reverse =
          text.dropWhile isWhitespace := by
      unfold trim trimMatches trimEndMatches List.rdropWhile
      rw [← List.reverse_append, List.takeWhile_append_dropWhile, List.reverse_reverse]
    rw [List.append_assoc, inner, List.takeWhile_append_dropWhile]
  · intro char member
    exact List.mem_takeWhile_imp member
  · intro char member
    exact List.mem_takeWhile_imp (List.mem_reverse.mp member)

/-- A text that does not begin with white space keeps its first character. -/
theorem exists_trim_cons {first : Char} (visible : isWhitespace first = false) (rest : Text) :
    ∃ tail, trim (first :: rest) = first :: tail := by
  have opened : (first :: rest).dropWhile isWhitespace = first :: rest := by
    rw [List.dropWhile_cons, visible]
    rfl
  obtain ⟨cut, split⟩ := trimEndMatches_isPrefix isWhitespace (first :: rest)
  rw [trim, trimMatches, opened]
  cases kept : trimEndMatches isWhitespace (first :: rest) with
  | nil =>
      have blank := List.rdropWhile_eq_nil_iff.mp kept first (by simp)
      rw [visible] at blank
      cases blank
  | cons head tail =>
      rw [kept, List.cons_append] at split
      cases split
      exact ⟨tail, rfl⟩

theorem trim_eq_self {text : Text} (visible : ∀ char ∈ text, isWhitespace char = false) :
    trim text = text := by
  have opened : text.dropWhile isWhitespace = text := by
    cases text with
    | nil => rfl
    | cons first rest =>
        rw [List.dropWhile_cons, visible first (by simp)]
        rfl
  rw [trim, trimMatches, opened, trimEndMatches, List.rdropWhile_eq_self_iff]
  intro nonempty
  rw [visible _ (List.getLast_mem nonempty)]
  decide

/-- White space inside a text is kept. -/
theorem trim_eq_self_of_ends {first : Char} {middle back : Text}
    (visible : isWhitespace first = false) (nonempty : back ≠ [])
    (visibleBack : ∀ char ∈ back, isWhitespace char = false) :
    trim (first :: middle ++ back) = first :: middle ++ back := by
  have opened : (first :: middle ++ back).dropWhile isWhitespace = first :: middle ++ back := by
    rw [List.cons_append, List.dropWhile_cons, visible]
    rfl
  rw [trim, trimMatches, opened, trimEndMatches, List.rdropWhile_eq_self_iff]
  intro _
  rw [List.getLast_append_of_right_ne_nil _ _ nonempty, visibleBack _ (List.getLast_mem nonempty)]
  decide

/-- Trimming keeps every visible character. -/
theorem mem_trim_of_mem {char : Char} {text : Text} (member : char ∈ text)
    (visible : isWhitespace char = false) : char ∈ trim text := by
  obtain ⟨front, back, split, blankFront, blankBack⟩ := exists_trim_eq text
  rw [split] at member
  rcases List.mem_append.mp member with opened | closed
  · rcases List.mem_append.mp opened with blank | kept
    · exact absurd (blankFront char blank) (Bool.eq_false_iff.mp visible)
    · exact kept
  · exact absurd (blankBack char closed) (Bool.eq_false_iff.mp visible)

/-- A trimmed text begins with a visible character. -/
@[simp] theorem dropWhile_trim (text : Text) : (trim text).dropWhile isWhitespace = trim text := by
  cases kept : trim text with
  | nil => rfl
  | cons first rest =>
      obtain ⟨cut, split⟩ := trimEndMatches_isPrefix isWhitespace (text.dropWhile isWhitespace)
      have visible := List.head?_dropWhile_not isWhitespace text
      rw [trim, trimMatches] at kept
      rw [← split, kept, List.cons_append, List.head?_cons] at visible
      rw [List.dropWhile_cons, visible]
      rfl

@[simp, grind =] theorem trim_trim (text : Text) : trim (trim text) = trim text := by
  rw [show trim (trim text) = trimEndMatches isWhitespace ((trim text).dropWhile isWhitespace)
    from rfl, dropWhile_trim]
  exact List.rdropWhile_idempotent isWhitespace _

theorem trimEndMatches_append {kind : Char → Bool} {text : Text} (nonempty : text ≠ [])
    (ends : ¬ kind (text.getLast nonempty) = true) (rest : Text) :
    trimEndMatches kind (text ++ rest) = text ++ trimEndMatches kind rest := by
  unfold trimEndMatches
  induction rest using List.reverseRecOn with
  | nil => simpa using List.rdropWhile_eq_self_iff.mpr fun _ => ends
  | append_singleton rest last ih =>
      rw [← List.append_assoc]
      by_cases cut : kind last = true
      · rw [List.rdropWhile_concat_pos _ _ _ cut, ih, List.rdropWhile_concat_pos _ _ _ cut]
      · rw [List.rdropWhile_concat_neg _ _ _ cut, List.rdropWhile_concat_neg _ _ _ cut,
          List.append_assoc]

/-- Trimming a text that goes on after another keeps the other one, trimmed. -/
theorem exists_trim_append {text : Text} (nonempty : trim text ≠ []) (rest : Text) :
    ∃ kept, trim (text ++ rest) = trim text ++ kept ∧
      ∀ char ∈ kept, isWhitespace char = true ∨ char ∈ rest := by
  obtain ⟨front, back, split, blankFront, blankBack⟩ := exists_trim_eq text
  have opened : (text ++ rest).dropWhile isWhitespace = trim text ++ (back ++ rest) := by
    nth_rewrite 1 [split]
    rw [List.append_assoc, List.append_assoc, List.dropWhile_append_of_pos blankFront,
      List.dropWhile_append, dropWhile_trim, if_neg (by simpa using nonempty)]
  have ends : ¬ isWhitespace ((trim text).getLast nonempty) = true :=
    List.rdropWhile_last_not isWhitespace _ nonempty
  refine ⟨trimEndMatches isWhitespace (back ++ rest), ?_, ?_⟩
  · rw [trim, trimMatches, opened, trimEndMatches_append nonempty ends]
  · intro char member
    rcases List.mem_append.mp ((trimEndMatches_isPrefix _ _).subset member) with member | member
    · exact .inl (blankBack char member)
    · exact .inr member

/-- Whether a text occurs in another. -/
def containsText (text wanted : Text) : Bool :=
  (text.dropInfix? wanted).isSome

/-- The texts before and after the first occurrence of a separator. -/
def splitOnce (text separator : Text) : Option (Text × Text) :=
  text.dropInfix? separator

/-- The text before the last occurrence of a marker, and the text from it on. -/
def splitLast (text marker : Text) : Option (Text × Text) :=
  (text.reverse.dropInfix? marker.reverse).map fun (after, before) =>
    (before.reverse, marker ++ after.reverse)

/-- The first occurrence of a character ends the text before it. -/
theorem splitOnce_char {char : Char} {before : Text} (absent : char ∉ before) (after : Text) :
    splitOnce (before ++ char :: after) [char] = some (before, after) := by
  apply List.dropInfix?_eq_some_iff.mpr
  refine ⟨⟨[char], by simp, by simp⟩, ?_⟩
  intro front marker back split same
  obtain rfl := eq_of_beq same
  by_contra shorter
  have found : (before ++ char :: after)[front.length]? = some char := by
    rw [split]
    simp
  rw [List.getElem?_append_left (by omega)] at found
  exact absent (List.mem_of_getElem? found)

theorem splitOnce_absent {char : Char} {text : Text} (absent : char ∉ text) :
    splitOnce text [char] = none := by
  cases found : splitOnce text [char] with
  | none => rfl
  | some parts =>
      obtain ⟨⟨marker, rfl, same⟩, -⟩ := List.dropInfix?_eq_some_iff.mp found
      obtain rfl := eq_of_beq same
      exact absurd (by simp) absent

theorem dropWhile_ne_absent {char : Char} {front : Text} (absent : char ∉ front) (rest : Text) :
    (front ++ rest).dropWhile (· ≠ char) = rest.dropWhile (· ≠ char) := by
  apply List.dropWhile_append_of_pos
  intro other member
  simpa using fun same : other = char => absent (same ▸ member)

theorem takeWhile_ne_append {char : Char} {front : Text} (absent : char ∉ front) (rest : Text) :
    (front ++ char :: rest).takeWhile (· ≠ char) = front := by
  rw [List.takeWhile_append_of_pos]
  · simp
  · intro other member
    simpa using fun same : other = char => absent (same ▸ member)

theorem dropWhile_ne_append {char : Char} {front : Text} (absent : char ∉ front) (rest : Text) :
    (front ++ char :: rest).dropWhile (· ≠ char) = char :: rest := by
  rw [dropWhile_ne_absent absent]
  simp

theorem dropWhile_ne_eq_nil {char : Char} {text : Text} (absent : char ∉ text) :
    text.dropWhile (· ≠ char) = [] := by
  rw [← text.append_nil, dropWhile_ne_absent absent, List.dropWhile_nil]

theorem takeWhile_append_of_mem {char : Char} {text : Text} (member : char ∈ text) (rest : Text) :
    (text ++ rest).takeWhile (· ≠ char) = text.takeWhile (· ≠ char) := by
  induction text with
  | nil => cases member
  | cons first text ih =>
      by_cases same : first = char
      · simp [same]
      · have later : char ∈ text := (List.mem_cons.mp member).resolve_left (Ne.symm same)
        simpa [same] using ih later

theorem dropWhile_append_of_mem {char : Char} {text : Text} (member : char ∈ text) (rest : Text) :
    ∃ tail, text.dropWhile (· ≠ char) = char :: tail ∧
      (text ++ rest).dropWhile (· ≠ char) = char :: (tail ++ rest) := by
  induction text with
  | nil => cases member
  | cons first text ih =>
      by_cases same : first = char
      · exact ⟨text, by simp [same], by simp [same]⟩
      · have later : char ∈ text := (List.mem_cons.mp member).resolve_left (Ne.symm same)
        obtain ⟨tail, split, splitRest⟩ := ih later
        exact ⟨tail, by simpa [same] using split, by simpa [same] using splitRest⟩

/-- A text is split at the first occurrence of a character in it. -/
theorem splitOnce_of_mem {char : Char} {text : Text} (member : char ∈ text) :
    splitOnce text [char] =
      some (text.takeWhile (· ≠ char), (text.dropWhile (· ≠ char)).tail) := by
  obtain ⟨tail, split, -⟩ := dropWhile_append_of_mem member []
  have before : char ∉ text.takeWhile (· ≠ char) := by
    intro inside
    have other := List.mem_takeWhile_imp inside
    simp at other
  have found := splitOnce_char before tail
  rwa [← split, List.takeWhile_append_dropWhile, show tail = (text.dropWhile (· ≠ char)).tail by
    rw [split]; rfl] at found

/-- A text that opens with one name does not open with another, when neither name
opens the other. -/
theorem dropPrefix?_apart {opening name : Text} (apart : ¬ name <+: opening ∧ ¬ opening <+: name)
    (rest : Text) : (opening ++ rest).dropPrefix? name = none := by
  cases found : (opening ++ rest).dropPrefix? name with
  | none => rfl
  | some after =>
      obtain ⟨front, split, same⟩ := List.dropPrefix?_eq_some_iff.mp found
      obtain rfl := eq_of_beq same
      have isPrefix : front <+: opening ++ rest := ⟨after, split.symm⟩
      rcases List.prefix_or_prefix_of_prefix isPrefix (List.prefix_append opening rest) with
        short | long
      · exact absurd short apart.1
      · exact absurd long apart.2

/-- The number a non-empty run of decimal digits denotes. -/
def parseDigits (text : Text) : Option Nat :=
  if text ≠ [] ∧ text.all Char.isDigit = true then
    some (Nat.ofDigitChars 10 text 0)
  else
    none

/-- Parse an unsigned integer below `2 ^ bits`; a leading `+` is accepted. -/
def parseUnsigned (bits : Nat) (text : Text) : Option Nat :=
  let digits := match text with
    | '+' :: rest => rest
    | _ => text
  (parseDigits digits).filter fun value => value < 2 ^ bits

/-- Parse a signed integer of `bits` bits. -/
def parseSigned (bits : Nat) (text : Text) : Option Int :=
  let value := match text with
    | '-' :: rest => (parseDigits rest).map fun (value : Nat) => -(value : Int)
    | '+' :: rest => (parseDigits rest).map fun (value : Nat) => (value : Int)
    | _ => (parseDigits text).map fun (value : Nat) => (value : Int)
  value.filter fun value => -2 ^ (bits - 1) ≤ value && value < 2 ^ (bits - 1)

theorem isDigit_of_mem_toDigits {value : Nat} {char : Char}
    (member : char ∈ Nat.toDigits 10 value) : char.isDigit = true :=
  Nat.isDigit_of_mem_toDigits (by decide) (by decide) member

@[simp] theorem parseDigits_toDigits (value : Nat) :
    parseDigits (Nat.toDigits 10 value) = some value := by
  have digits : (Nat.toDigits 10 value).all Char.isDigit = true :=
    List.all_eq_true.mpr fun char member => isDigit_of_mem_toDigits member
  have nonempty : Nat.toDigits 10 value ≠ [] := Nat.toDigits_ne_nil
  rw [parseDigits, if_pos ⟨nonempty, digits⟩, Nat.ofDigitChars_toDigits (by decide) (by decide)]

theorem toList_toString_int (value : Int) :
    (toString value).toList =
      (if value < 0 then ['-'] else []) ++ Nat.toDigits 10 value.natAbs := by
  cases value with
  | ofNat value =>
      have display : toString (Int.ofNat value) = value.repr := rfl
      rw [display, Nat.toList_repr]
      simp
  | negSucc value =>
      have display : toString (Int.negSucc value) = "-" ++ (value + 1).repr := rfl
      rw [display, String.toList_append, Nat.toList_repr, if_pos (Int.negSucc_lt_zero value)]
      rfl

/-- The characters an integer is displayed with. -/
theorem mem_toString_int {value : Int} {char : Char} (member : char ∈ (toString value).toList) :
    char = '-' ∨ char.isDigit = true := by
  rw [toList_toString_int] at member
  rcases List.mem_append.mp member with sign | digit
  · split at sign
    · exact .inl (List.mem_singleton.mp sign)
    · cases sign
  · exact .inr (isDigit_of_mem_toDigits digit)

/-- An integer of `bits` bits is parsed from its display. -/
theorem parseSigned_toString {bits : Nat} {value : Int} (least : -2 ^ (bits - 1) ≤ value)
    (greatest : value < 2 ^ (bits - 1)) :
    parseSigned bits (toString value).toList = some value := by
  have inside : (-2 ^ (bits - 1) ≤ value && value < 2 ^ (bits - 1)) = true := by
    simp [least, greatest]
  have digits := parseDigits_toDigits value.natAbs
  rw [toList_toString_int]
  by_cases negative : value < 0
  · have same : -(value.natAbs : Int) = value := by omega
    rw [if_pos negative]
    simp only [parseSigned, List.cons_append, List.nil_append, digits, Option.map_some, same,
      Option.filter_some, inside, if_true]
  · have same : (value.natAbs : Int) = value := by omega
    rw [if_neg negative, List.nil_append]
    have unsigned : parseSigned bits (Nat.toDigits 10 value.natAbs) =
        ((parseDigits (Nat.toDigits 10 value.natAbs)).map fun (value : Nat) => (value : Int)).filter
          fun value => -2 ^ (bits - 1) ≤ value && value < 2 ^ (bits - 1) := by
      have isDigit (char : Char) (member : char ∈ Nat.toDigits 10 value.natAbs) :
          char.isDigit = true := isDigit_of_mem_toDigits member
      unfold parseSigned
      split
      · rename_i rest same
        rw [same] at isDigit
        cases isDigit '-' (by simp)
      · rename_i rest same
        rw [same] at isDigit
        cases isDigit '+' (by simp)
      · rfl
    rw [unsigned, digits]
    simp only [Option.map_some, same, Option.filter_some, inside, if_true]

end DfeClickhouse.Library
