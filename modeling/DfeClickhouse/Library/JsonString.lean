import DfeClickhouse.Library.Utf8

/-!
# Strings of JSON

A string is a run of parts between two quotation marks: characters that stand for
themselves, short escapes, and escapes of a UTF-16 code unit.  `unquote` is the reference
reader: it collects the code units and pairs the surrogates.
-/

namespace DfeClickhouse.Library.JsonString

/-- A character that stands for itself. -/
def isUnescaped (char : Char) : Bool :=
  0x20 ≤ char.toNat && char != '"' && char != '\\'

/-- The characters that may follow a backslash, with what they stand for. -/
def shortEscape (char : Char) : Option Nat :=
  if char = '"' then some 0x22
  else if char = '\\' then some 0x5C
  else if char = '/' then some 0x2F
  else if char = 'b' then some 0x08
  else if char = 'f' then some 0x0C
  else if char = 'n' then some 0x0A
  else if char = 'r' then some 0x0D
  else if char = 't' then some 0x09
  else none

/-- The value of a hexadecimal digit, of either case. -/
def hexValue (char : Char) : Option Nat :=
  if '0' ≤ char ∧ char ≤ '9' then some (char.toNat - 0x30)
  else if 'a' ≤ char ∧ char ≤ 'f' then some (char.toNat - 0x57)
  else if 'A' ≤ char ∧ char ≤ 'F' then some (char.toNat - 0x37)
  else none

/-- The code unit of four hexadecimal digits. -/
def codeUnit (a b c d : Char) : Option Nat := do
  return 4096 * (← hexValue a) + 256 * (← hexValue b) + 16 * (← hexValue c) + (← hexValue d)

/-- A part of a string, with the code point or code unit it stands for. -/
inductive Part : List Char → Nat → Prop
  | unescaped {char : Char} (plain : isUnescaped char = true) : Part [char] char.toNat
  | short {char : Char} {unit : Nat} (known : shortEscape char = some unit) :
      Part ['\\', char] unit
  | code {a b c d : Char} {unit : Nat} (digits : codeUnit a b c d = some unit) :
      Part ['\\', 'u', a, b, c, d] unit

/-- The text is a string: parts between two quotation marks. -/
def IsString (text : List Char) : Prop :=
  ∃ parts units, List.Forall₂ Part parts units ∧ text = '"' :: (parts.flatten ++ ['"'])

/-- What a part stands for, when it is one. -/
def unitOf : List Char → Option Nat
  | [char] => if isUnescaped char then some char.toNat else none
  | ['\\', char] => shortEscape char
  | ['\\', 'u', a, b, c, d] => codeUnit a b c d
  | _ => none

theorem part_of_unitOf {text : List Char} {unit : Nat} (known : unitOf text = some unit) :
    Part text unit := by
  unfold unitOf at known
  split at known
  · rename_i char
    split at known
    · rename_i plain
      cases known
      exact .unescaped plain
    · cases known
  · exact .short known
  · exact .code known
  · cases known

/-- The code units up to the closing quotation mark, which ends the text. -/
def readUnits : List Char → Option (List Nat)
  | [] => none
  | '"' :: rest => if rest = [] then some [] else none
  | '\\' :: 'u' :: a :: b :: c :: d :: rest =>
      match codeUnit a b c d with
      | some unit => (readUnits rest).map (unit :: ·)
      | none => none
  | '\\' :: char :: rest =>
      match shortEscape char with
      | some unit => (readUnits rest).map (unit :: ·)
      | none => none
  | char :: rest =>
      if isUnescaped char then (readUnits rest).map (char.toNat :: ·) else none

/-- The first half of a surrogate pair. -/
def isHigh (unit : Nat) : Bool := 0xD800 ≤ unit && unit < 0xDC00

/-- The second half of a surrogate pair. -/
def isLow (unit : Nat) : Bool := 0xDC00 ≤ unit && unit < 0xE000

/-- The characters of code units; a surrogate without its other half has none. -/
def joinUnits : List Nat → Option (List Char)
  | [] => some []
  | high :: low :: rest =>
      if isHigh high && isLow low then
        (joinUnits rest).map
          (Char.ofNat (0x10000 + 0x400 * (high - 0xD800) + (low - 0xDC00)) :: ·)
      else if isHigh high || isLow high then none
      else (joinUnits (low :: rest)).map (Char.ofNat high :: ·)
  | [unit] => if isHigh unit || isLow unit then none else some [Char.ofNat unit]

/-- The characters that a string stands for. -/
def unquote : List Char → Option (List Char)
  | '"' :: rest => (readUnits rest).bind joinUnits
  | _ => none

/-- `unquote` on UTF-8 bytes. -/
def unquoteBytes (bytes : Bytes) : Option Bytes :=
  (fromUtf8 bytes).bind fun text => (unquote text.toList).map encode

theorem readUnits_part {part : List Char} {unit : Nat} (isPart : Part part unit)
    (rest : List Char) : readUnits (part ++ rest) = (readUnits rest).map (unit :: ·) := by
  cases isPart with
  | @unescaped char plain =>
      have notQuote : char ≠ '"' := by
        rintro rfl
        cases plain
      have notBackslash : char ≠ '\\' := by
        rintro rfl
        cases plain
      rw [List.singleton_append, readUnits, if_pos plain]
      · exact notQuote
      · intro _ _ _ _ _ same _
        exact notBackslash same
      · intro _ _ same _
        exact notBackslash same
  | @short char unit known =>
      have notCode : char ≠ 'u' := by
        rintro rfl
        cases known
      rw [List.cons_append, List.singleton_append, readUnits, known]
      intro _ _ _ _ _ same _
      exact notCode same
  | code digits =>
      simp only [List.cons_append, List.nil_append]
      rw [readUnits, digits]

theorem readUnits_parts {parts : List (List Char)} {units : List Nat}
    (spelled : List.Forall₂ Part parts units) :
    readUnits (parts.flatten ++ ['"']) = some units := by
  induction spelled with
  | nil => rfl
  | cons isPart _ ih =>
      rw [List.flatten_cons, List.append_assoc, readUnits_part isPart, ih, Option.map_some]

theorem not_surrogate (char : Char) : isHigh char.toNat = false ∧ isLow char.toNat = false := by
  have valid := char.valid
  have value : char.toNat = char.val.toNat := rfl
  simp only [UInt32.isValidChar, Nat.isValidChar] at valid
  simp only [isHigh, isLow, Bool.and_eq_false_iff, decide_eq_false_iff_not]
  omega

@[simp]
theorem joinUnits_toNat (text : List Char) : joinUnits (text.map Char.toNat) = some text := by
  induction text with
  | nil => rfl
  | cons char rest ih =>
      have whole := not_surrogate char
      cases rest with
      | nil => simp [joinUnits, whole]
      | cons next rest =>
          rw [List.map_cons] at ih
          simp [joinUnits, whole, ih]

/-- Characters spelled part by part are read back. -/
theorem unquote_spelled {spell : Char → List Char} (text : List Char)
    (spells : ∀ char ∈ text, Part (spell char) char.toNat) :
    IsString ('"' :: (text.flatMap spell ++ ['"'])) ∧
      unquote ('"' :: (text.flatMap spell ++ ['"'])) = some text := by
  have spelled : List.Forall₂ Part (text.map spell) (text.map Char.toNat) := by
    rw [List.forall₂_map_left_iff, List.forall₂_map_right_iff, List.forall₂_same]
    exact spells
  have flat : text.flatMap spell = (text.map spell).flatten := List.flatMap_def
  rw [flat]
  constructor
  · exact ⟨_, _, spelled, rfl⟩
  · rw [unquote, readUnits_parts spelled]
    exact joinUnits_toNat text

end DfeClickhouse.Library.JsonString
