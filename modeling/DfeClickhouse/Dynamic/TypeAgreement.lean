import DfeClickhouse.Dynamic.Encode
import DfeClickhouse.Native.TypeNesting

/-!
# Two parsers of one type string

The encoder and the block writer read the same type string with parsers of their
own.  Where both accept it they agree on what a cell of the type is, except for a
decimal whose argument list ends in a comma.
-/

namespace DfeClickhouse.Dynamic

open Library Native

/-! ## The native parser at an opening -/

theorem stripOuter_eq_some_iff {text inner : Text} {name : String} :
    stripOuter text name = some inner ↔ text = name.toList ++ '(' :: (inner ++ [')']) :=
  ParsedType.extractWrapper_eq_some_iff

theorem stripOuter_apart {opening : Text} {name : String}
    (apart : ¬ name.toList <+: opening ∧ ¬ opening <+: name.toList) (rest : Text) :
    stripOuter (opening ++ rest) name = none := by
  unfold stripOuter
  rw [dropPrefix?_apart apart]
  rfl

theorem startsWith_apart {opening : Text} {name : String}
    (apart : ¬ name.toList <+: opening ∧ ¬ opening <+: name.toList) (rest : Text) :
    Native.startsWith (opening ++ rest) name = false := by
  unfold Native.startsWith
  rw [dropPrefix?_apart apart]
  rfl

/-- A text that opens with a name is that name and a rest. -/
theorem startsWith_eq_true_iff {text : Text} {name : String} :
    Native.startsWith text name = true ↔ ∃ rest, text = name.toList ++ rest := by
  rw [Native.startsWith, Option.isSome_iff_exists]
  constructor
  · rintro ⟨rest, found⟩
    obtain ⟨front, rfl, same⟩ := List.dropPrefix?_eq_some_iff.mp found
    exact ⟨rest, by rw [eq_of_beq same]⟩
  · rintro ⟨rest, rfl⟩
    exact ⟨rest, List.dropPrefix?_eq_some_iff.mpr ⟨_, rfl, beq_self_eq_true _⟩⟩

@[simp] theorem startsWith_append (name : String) (rest : Text) :
    Native.startsWith (name.toList ++ rest) name = true :=
  startsWith_eq_true_iff.mpr ⟨rest, rfl⟩

/-- Both parsers look for openings alike. -/
@[simp] theorem startsWith_eq : ParsedType.startsWith = Native.startsWith := rfl

/-- The native parser yields a type for a trimmed text. -/
def Denotes (text : Text) (columnType : ColumnType) : Prop :=
  (typeForm text).parseWith parseText = some columnType

theorem denotes_trim_iff {text : Text} {columnType : ColumnType} :
    Denotes (trim text) columnType ↔ parseText text = some columnType := by
  rw [Denotes, parseText_eq text]

namespace Denotes

variable {text inner rest : Text} {columnType : ColumnType}

/-- A text that denotes a type is not refused by the depth guard. -/
theorem shallow (denotes : Denotes text columnType) :
    ¬ maxParenDepth text > maxTypeParseDepth := by
  intro deep
  rw [Denotes, typeForm, if_pos deep] at denotes
  cases denotes

theorem nullable (denotes : Denotes text columnType)
    (found : stripOuter text "Nullable" = some inner) :
    ∃ innerType, parseText inner = some innerType ∧ columnType = .nullable innerType := by
  have shallow := denotes.shallow
  rw [Denotes, typeForm, if_neg shallow] at denotes
  simp only [found, TypeForm.parseWith, Option.map_eq_some_iff] at denotes
  obtain ⟨innerType, parsed, rfl⟩ := denotes
  exact ⟨innerType, parsed, rfl⟩

theorem lowCardinality (denotes : Denotes text columnType)
    (found : stripOuter text "LowCardinality" = some inner) :
    ∃ innerType, parseText inner = some innerType ∧ columnType = .lowCardinality innerType := by
  have shallow := denotes.shallow
  obtain rfl := stripOuter_eq_some_iff.mp found
  rw [Denotes, typeForm, if_neg shallow] at denotes
  simp (disch := decide) only [stripOuter_apart, found, TypeForm.parseWith,
    Option.map_eq_some_iff] at denotes
  obtain ⟨innerType, parsed, rfl⟩ := denotes
  exact ⟨innerType, parsed, rfl⟩

theorem array (denotes : Denotes text columnType)
    (found : stripOuter text "Array" = some inner) :
    ∃ innerType, parseText inner = some innerType ∧ columnType = .array innerType := by
  have shallow := denotes.shallow
  obtain rfl := stripOuter_eq_some_iff.mp found
  rw [Denotes, typeForm, if_neg shallow] at denotes
  simp (disch := decide) only [stripOuter_apart, startsWith_apart, found, TypeForm.parseWith,
    Bool.false_eq_true, if_false, Option.map_eq_some_iff] at denotes
  obtain ⟨innerType, parsed, rfl⟩ := denotes
  exact ⟨innerType, parsed, rfl⟩

theorem map {arguments : Text} (denotes : Denotes text columnType)
    (found : stripOuter text "Map" = some arguments) :
    ∃ key value keyType valueType, Native.splitTypeArgs arguments = [key, value] ∧
      parseText key = some keyType ∧ parseText value = some valueType ∧
      columnType = .map keyType valueType := by
  have shallow := denotes.shallow
  obtain rfl := stripOuter_eq_some_iff.mp found
  rw [Denotes, typeForm, if_neg shallow] at denotes
  simp (disch := decide) only [stripOuter_apart, startsWith_apart, found, Bool.false_eq_true,
    if_false] at denotes
  split at denotes
  · rename_i key value split
    obtain ⟨keyType, keyParsed, denotes⟩ := Option.bind_eq_some_iff.mp denotes
    obtain ⟨valueType, valueParsed, denotes⟩ := Option.bind_eq_some_iff.mp denotes
    cases denotes
    exact ⟨key, value, keyType, valueType, split, keyParsed, valueParsed, rfl⟩
  · cases denotes

theorem fixedString {size : Text} (denotes : Denotes text columnType)
    (found : stripOuter text "FixedString" = some size) :
    ∃ width, parseUnsigned 64 size = some width ∧ columnType = .fixedString width := by
  have shallow := denotes.shallow
  obtain rfl := stripOuter_eq_some_iff.mp found
  rw [Denotes, typeForm, if_neg shallow] at denotes
  simp (disch := decide) only [stripOuter_apart, found, TypeForm.parseWith,
    Option.map_eq_some_iff] at denotes
  obtain ⟨width, parsed, rfl⟩ := denotes
  exact ⟨width, parsed, rfl⟩

theorem dateTime64 (denotes : Denotes ("DateTime64".toList ++ rest) columnType) :
    columnType.fixedSize = some 8 := by
  have shallow := denotes.shallow
  have scalar : scalarType ("DateTime64".toList ++ rest) = none := rfl
  rw [Denotes, typeForm, if_neg shallow] at denotes
  simp (disch := decide) only [stripOuter_apart, startsWith_apart, scalar, Bool.false_eq_true,
    if_false] at denotes
  split at denotes <;> cases denotes
  rfl

theorem dateTime {zone : Text} (denotes : Denotes text columnType)
    (found : stripOuter text "DateTime" = some zone) :
    columnType.fixedSize = some 4 := by
  have shallow := denotes.shallow
  obtain rfl := stripOuter_eq_some_iff.mp found
  have opening : "DateTime".toList ++ '(' :: (zone ++ [')']) =
      "DateTime(".toList ++ (zone ++ [')']) :=
    rfl
  rw [opening] at shallow denotes
  rw [Denotes, typeForm, if_neg shallow] at denotes
  simp (disch := decide) only [stripOuter_apart, startsWith_append, if_true] at denotes
  cases denotes
  rfl

theorem enum8 (denotes : Denotes ("Enum8".toList ++ rest) columnType) :
    columnType.fixedSize = some 1 := by
  have shallow := denotes.shallow
  have scalar : scalarType ("Enum8".toList ++ rest) = none := rfl
  rw [Denotes, typeForm, if_neg shallow] at denotes
  simp (disch := decide) only [stripOuter_apart, startsWith_apart, scalar, Bool.false_eq_true,
    if_false] at denotes
  split at denotes <;> cases denotes
  rfl

theorem enum16 (denotes : Denotes ("Enum16".toList ++ rest) columnType) :
    columnType.fixedSize = some 2 := by
  have shallow := denotes.shallow
  have scalar : scalarType ("Enum16".toList ++ rest) = none := rfl
  rw [Denotes, typeForm, if_neg shallow] at denotes
  simp (disch := decide) only [stripOuter_apart, startsWith_apart, scalar, Bool.false_eq_true,
    if_false] at denotes
  split at denotes <;> cases denotes
  rfl

/-- The decimals of a given width, with their widths. -/
def sizedDecimals : List (String × Nat) :=
  [("Decimal32", 4), ("Decimal64", 8), ("Decimal128", 16), ("Decimal256", 32)]

theorem decimal (denotes : Denotes ("Decimal".toList ++ rest) columnType) :
    (∃ entry ∈ sizedDecimals,
      (∃ scale, stripOuter ("Decimal".toList ++ rest) entry.1 = some scale) ∧
      columnType.fixedSize = some entry.2) ∨
    ∃ arguments, stripOuter ("Decimal".toList ++ rest) "Decimal" = some arguments ∧
      decimalType arguments = some columnType := by
  have shallow := denotes.shallow
  have scalar : scalarType ("Decimal".toList ++ rest) = none := rfl
  rw [Denotes, typeForm, if_neg shallow] at denotes
  simp (disch := decide) only [stripOuter_apart, startsWith_apart, scalar, Bool.false_eq_true,
    if_false] at denotes
  repeat' split at denotes
  · cases denotes
    exact .inl ⟨("Decimal32", 4), by decide, ⟨_, ‹_›⟩, rfl⟩
  · cases denotes
    exact .inl ⟨("Decimal64", 8), by decide, ⟨_, ‹_›⟩, rfl⟩
  · cases denotes
    exact .inl ⟨("Decimal128", 16), by decide, ⟨_, ‹_›⟩, rfl⟩
  · cases denotes
    exact .inl ⟨("Decimal256", 32), by decide, ⟨_, ‹_›⟩, rfl⟩
  · exact .inr ⟨_, ‹_›, denotes⟩
  · cases denotes

theorem ne_nil (denotes : Denotes text columnType) : text ≠ [] := by
  rintro rfl
  cases denotes

end Denotes

/-! ## Splitting arguments -/

/-- Characters before the next comma are collected, and only move the depth. -/
theorem splitTypeArgsFrom_append {before : Text} (plain : ',' ∉ before) (depth : Nat)
    (current rest : Text) :
    Native.splitTypeArgsFrom depth current (before ++ rest) =
      Native.splitTypeArgsFrom (before.foldl parenDepthAfter depth) (before.reverse ++ current)
        rest := by
  induction before generalizing depth current with
  | nil => rfl
  | cons char before ih =>
      have notComma : char ≠ ',' := by
        rintro rfl
        exact plain (by simp)
      have isOther : ¬ (char = ',' ∧ depth = 0) := fun both => notComma both.1
      rw [List.cons_append, Native.splitTypeArgsFrom, if_neg isOther,
        ih (fun member => plain (by simp [member]))]
      simp

/-- At depth zero a comma ends an argument. -/
@[simp] theorem splitTypeArgsFrom_comma (current rest : Text) :
    Native.splitTypeArgsFrom 0 current (',' :: rest) =
      trim current.reverse :: Native.splitTypeArgsFrom 0 [] rest := by
  rw [Native.splitTypeArgsFrom, if_pos ⟨rfl, rfl⟩]

/-- The first argument has all visible characters collected so far. -/
theorem mem_of_splitTypeArgsFrom {depth : Nat} {current text first : Text} {others : List Text}
    (split : Native.splitTypeArgsFrom depth current text = first :: others) {char : Char}
    (member : char ∈ current) (visible : isWhitespace char = false) : char ∈ first := by
  induction text generalizing depth current with
  | nil =>
      simp only [Native.splitTypeArgsFrom] at split
      split at split
      · cases split
      · cases split
        exact mem_trim_of_mem (by simp [member]) visible
  | cons next text ih =>
      rw [Native.splitTypeArgsFrom] at split
      split at split
      · cases split
        exact mem_trim_of_mem (by simp [member]) visible
      · exact ih split (by simp [member])

/-- Nothing is split from blanks only. -/
theorem blank_of_splitTypeArgsFrom_nil {depth : Nat} {current text : Text}
    (split : Native.splitTypeArgsFrom depth current text = []) {char : Char}
    (member : char ∈ current ∨ char ∈ text) : isWhitespace char = true := by
  induction text generalizing depth current with
  | nil =>
      simp only [Native.splitTypeArgsFrom] at split
      split at split
      · rename_i empty
        by_contra visible
        have kept : char ∈ trim current.reverse :=
          mem_trim_of_mem (by simpa using member) (by simpa using visible)
        rw [List.isEmpty_iff.mp empty] at kept
        cases kept
      · cases split
  | cons next text ih =>
      rw [Native.splitTypeArgsFrom] at split
      split at split
      · cases split
      · apply ih split
        simpa [or_assoc, or_left_comm] using member

/-- Where parentheses are left open they are part of the text. -/
theorem mem_of_foldl_parenDepthAfter {text : Text} {depth : Nat}
    (moved : text.foldl parenDepthAfter depth ≠ depth) : '(' ∈ text ∨ ')' ∈ text := by
  induction text generalizing depth with
  | nil => exact absurd rfl moved
  | cons char text ih =>
      by_cases opening : char = '('
      · exact .inl (by simp [opening])
      · by_cases closing : char = ')'
        · exact .inr (by simp [closing])
        · have same : parenDepthAfter depth char = depth := by
            rw [parenDepthAfter, if_neg opening, if_neg closing]
          rw [List.foldl_cons, same] at moved
          rcases ih moved with member | member
          · exact .inl (by simp [member])
          · exact .inr (by simp [member])

/-- What a number consists of. -/
theorem mem_of_parseUnsigned {bits value : Nat} {text : Text}
    (parsed : parseUnsigned bits text = some value) {char : Char} (member : char ∈ text) :
    char = '+' ∨ char.isDigit = true := by
  have digits (text : Text) (parsed : parseDigits text ≠ none) (member : char ∈ text) :
      char.isDigit = true := by
    rw [parseDigits] at parsed
    split at parsed
    · rename_i isDigits
      exact List.all_eq_true.mp isDigits.2 char member
    · exact absurd rfl parsed
  obtain ⟨parsed, _⟩ := Option.filter_eq_some_iff.mp parsed
  split at parsed
  · rcases List.mem_cons.mp member with rfl | member
    · exact .inl rfl
    · exact .inr (digits _ (by simp [parsed]) member)
  · exact .inr (digits text (by simp [parsed]) member)

/-- A number has no blanks around it. -/
theorem trim_of_parseUnsigned {bits value : Nat} {text : Text}
    (parsed : parseUnsigned bits text = some value) : trim text = text := by
  apply trim_eq_self
  intro char member
  rcases mem_of_parseUnsigned parsed member with rfl | digit
  · decide
  · exact isWhitespace_of_isDigit digit

/-- An argument without parentheses ends at the first comma. -/
theorem splitTypeArgs_cons {text first : Text} {others : List Text}
    (split : Native.splitTypeArgs text = first :: others) (opened : '(' ∉ first)
    (closed : ')' ∉ first) :
    (',' ∉ text ∧ first = trim text ∧ others = []) ∨
      ∃ before after, text = before ++ ',' :: after ∧ ',' ∉ before ∧ first = trim before ∧
        Native.splitTypeArgs after = others := by
  unfold Native.splitTypeArgs at split
  by_cases comma : ',' ∈ text
  · obtain ⟨before, after, rfl, plain⟩ := List.eq_append_cons_of_mem comma
    rw [splitTypeArgsFrom_append plain] at split
    have level : before.foldl parenDepthAfter 0 = 0 := by
      by_contra moved
      rcases mem_of_foldl_parenDepthAfter moved with member | member
      · exact opened (mem_of_splitTypeArgsFrom split (by simp [member]) (by decide))
      · exact closed (mem_of_splitTypeArgsFrom split (by simp [member]) (by decide))
    rw [level, splitTypeArgsFrom_comma] at split
    cases split
    exact .inr ⟨before, after, rfl, plain, by simp, rfl⟩
  · have ended := splitTypeArgsFrom_append comma 0 [] []
    rw [List.append_nil] at ended
    rw [ended, Native.splitTypeArgsFrom] at split
    simp only [List.append_nil, List.reverse_reverse] at split
    split at split
    · cases split
    · cases split
      exact .inl ⟨comma, rfl, rfl⟩

/-- The two arguments of a decimal, between commas; a third part is blank. -/
theorem splitOn_of_splitTypeArgs {text first second : Text}
    (split : Native.splitTypeArgs text = [first, second])
    (plain : ∀ char ∈ first ++ second, char ≠ '(' ∧ char ≠ ')') :
    ∃ before after rest, text.splitOn ',' = before :: after :: rest ∧ trim before = first ∧
      trim after = second ∧ (rest = [] ∨ ∃ blank, rest = [blank]) := by
  have firstOpened : '(' ∉ first := fun member => (plain _ (by simp [member])).1 rfl
  have firstClosed : ')' ∉ first := fun member => (plain _ (by simp [member])).2 rfl
  have secondOpened : '(' ∉ second := fun member => (plain _ (by simp [member])).1 rfl
  have secondClosed : ')' ∉ second := fun member => (plain _ (by simp [member])).2 rfl
  have cut {before after : Text} (absent : ',' ∉ before) :
      (before ++ ',' :: after).splitOn ',' = before :: after.splitOn ',' := by
    refine List.splitOnP_append_cons_of_forall_mem ?_ ',' (by simp) after
    intro char member
    simpa using fun same : char = ',' => absent (same ▸ member)
  have whole {text : Text} (absent : ',' ∉ text) : text.splitOn ',' = [text] := by
    apply List.splitOnP_eq_singleton
    intro char member
    simpa using fun same : char = ',' => absent (same ▸ member)
  rcases splitTypeArgs_cons split firstOpened firstClosed with
    ⟨_, _, impossible⟩ | ⟨before, after, rfl, absent, rfl, rest⟩
  · cases impossible
  rw [cut absent]
  rcases splitTypeArgs_cons rest secondOpened secondClosed with
    ⟨absent, rfl, _⟩ | ⟨middle, last, rfl, absent, rfl, lastSplit⟩
  · exact ⟨before, after, [], by rw [whole absent], rfl, rfl, .inl rfl⟩
  · have none : ',' ∉ last := fun member => by
      have blank := blank_of_splitTypeArgsFrom_nil lastSplit (.inr member)
      revert blank
      decide
    exact ⟨before, middle, [last], by rw [cut absent, whole none], rfl, rfl, .inr ⟨last, rfl⟩⟩

/-- Whether a character is a blank or a comma. -/
def IsFiller (char : Char) : Prop :=
  isWhitespace char = true ∨ char = ','

/-- The last argument of a list is followed by fillers only. -/
theorem filler_of_splitTypeArgsFrom {depth : Nat} {current text last : Text}
    (split : Native.splitTypeArgsFrom depth current text = [last]) :
    ∃ held filler, current.reverse ++ text = held ++ filler ∧ trim held = last ∧
      ∀ char ∈ filler, IsFiller char := by
  induction text generalizing depth current with
  | nil =>
      simp only [Native.splitTypeArgsFrom] at split
      split at split
      · cases split
      · cases split
        exact ⟨current.reverse, [], rfl, rfl, by simp⟩
  | cons next text ih =>
      rw [Native.splitTypeArgsFrom] at split
      split at split
      · rename_i ends
        obtain ⟨rfl, blank⟩ := List.cons.inj split
        refine ⟨current.reverse, next :: text, rfl, rfl, ?_⟩
        intro char member
        rcases List.mem_cons.mp member with rfl | member
        · exact .inr ends.1
        · exact .inl (blank_of_splitTypeArgsFrom_nil blank (.inr member))
      · obtain ⟨held, filler, whole, trimmed, isFiller⟩ := ih split
        exact ⟨held, filler, by simpa using whole, trimmed, isFiller⟩

/-! ## The same text in both parsers -/

/-- The encoder's text is the native parser's text between blanks, which may be
followed by fillers. -/
def Follows (core text : Text) : Prop :=
  ∃ lead filler, core = lead ++ text ++ filler ∧ (∀ char ∈ lead, isWhitespace char = true) ∧
    ∀ char ∈ filler, IsFiller char

/-- Neither a blank nor a comma. -/
def IsNameChar (char : Char) : Bool :=
  !isWhitespace char && char != ','

theorem not_isFiller {char : Char} (named : IsNameChar char = true) : ¬ IsFiller char := by
  rintro (blank | rfl)
  · simp [IsNameChar, blank] at named
  · revert named
    decide

namespace Follows

variable {core text : Text}

theorem refl (text : Text) : Follows text text :=
  ⟨[], [], by simp, by simp, by simp⟩

/-- A text inside a wrapper follows its trimmed form. -/
theorem trim_self (text : Text) : Follows text (trim text) := by
  obtain ⟨front, back, split, blankFront, blankBack⟩ := exists_trim_eq text
  exact ⟨front, back, split, blankFront, fun char member => .inl (blankBack char member)⟩

/-- A text that opens with a name is not preceded by blanks. -/
theorem exists_filler {name : Text} {char : Char} {rest : Text} (follows : Follows core text)
    (opening : core = name ++ rest) (first : name.head? = some char)
    (named : IsNameChar char = true) :
    ∃ filler, core = text ++ filler ∧ ∀ char ∈ filler, IsFiller char := by
  obtain ⟨lead, filler, split, blank, isFiller⟩ := follows
  cases lead with
  | nil => exact ⟨filler, by simpa using split, isFiller⟩
  | cons head lead =>
      cases name with
      | nil => cases first
      | cons letter name =>
          cases first
          rw [opening] at split
          have same : char = head := (List.cons.inj split).1
          exact absurd (.inl (blank char (by simp [same]))) (not_isFiller named)

/-- The native text opens with the same name. -/
theorem exists_rest {name rest : Text} (follows : Follows core text)
    (opening : core = name ++ rest) (named : name.all IsNameChar = true)
    (nonempty : name ≠ []) : ∃ rest, text = name ++ rest := by
  obtain ⟨char, first⟩ := Option.isSome_iff_exists.mp (List.isSome_head?.mpr nonempty)
  have isName := List.all_eq_true.mp named
  have member : char ∈ name := List.mem_of_mem_head? first
  obtain ⟨filler, split, isFiller⟩ := follows.exists_filler opening first (isName char member)
  have isPrefix : text <+: name ++ rest := ⟨filler, by rw [← split, opening]⟩
  rcases List.prefix_or_prefix_of_prefix isPrefix (List.prefix_append name rest) with short | long
  · -- Otherwise a filler would be a letter of the name.
    obtain ⟨missing, rfl⟩ := short
    cases missing with
    | nil => exact ⟨[], by simp⟩
    | cons letter missing =>
        rw [opening, List.append_assoc, List.append_right_inj] at split
        have letterIn : letter ∈ filler := by rw [← split]; simp
        exact absurd (isFiller letter letterIn) (not_isFiller (isName letter (by simp)))
  · obtain ⟨rest, rfl⟩ := long
    exact ⟨rest, rfl⟩

/-- A text that ends like a name is the native text itself. -/
theorem eq_of_ends {name rest : Text} {char last : Char} (follows : Follows core text)
    (opening : core = name ++ rest) (first : name.head? = some char)
    (named : IsNameChar char = true) (closing : core.getLast? = some last)
    (lastNamed : IsNameChar last = true) : text = core := by
  obtain ⟨filler, split, isFiller⟩ := follows.exists_filler opening first named
  cases filler with
  | nil => simpa using split.symm
  | cons letter filler =>
      rw [split, List.getLast?_append_of_ne_nil _ (by simp)] at closing
      exact absurd (isFiller last (List.mem_of_getLast? closing)) (not_isFiller lastNamed)

theorem eq_of_extractWrapper {inner : Text} {wrapper : String} {char : Char}
    (follows : Follows core text)
    (found : ParsedType.extractWrapper core wrapper = some inner)
    (first : wrapper.toList.head? = some char) (named : IsNameChar char = true) :
    text = core := by
  have shape := ParsedType.extractWrapper_eq_some_iff.mp found
  apply follows.eq_of_ends shape first named _ (show IsNameChar ')' = true by decide)
  rw [shape]
  simp [List.getLast?_append, List.getLast?_cons]

theorem eq_of_name (follows : Follows core text) (named : core.all IsNameChar = true)
    (nonempty : core ≠ []) : text = core := by
  have isName := List.all_eq_true.mp named
  obtain ⟨char, first⟩ := Option.isSome_iff_exists.mp (List.isSome_head?.mpr nonempty)
  exact follows.eq_of_ends (List.append_nil core).symm first
    (isName char (List.mem_of_mem_head? first)) (List.getLast?_eq_some_getLast nonempty)
    (isName _ (List.getLast_mem nonempty))

end Follows

/-! ## Wrappers -/

/-- Whether a type is nullable, directly or inside of dictionaries. -/
def mayBeNull : ColumnType → Bool
  | .nullable _ => true
  | .lowCardinality inner => mayBeNull inner
  | _ => false

/-- Whether no `Nullable` is applied to a nullable type, in the types an encoder can
reach. -/
def nullableOnce : ColumnType → Bool
  | .nullable inner => !mayBeNull inner && nullableOnce inner
  | .lowCardinality inner | .array inner => nullableOnce inner
  | .map key value => nullableOnce key && nullableOnce value
  | _ => true

/-- A type is a base type inside of dictionaries and of one `Nullable` if the flag
says so. -/
inductive Wraps : ColumnType → Bool → ColumnType → Prop
  | base (columnType : ColumnType) : Wraps columnType false columnType
  | lowCardinality {inner base : ColumnType} {nullable : Bool} :
      Wraps inner nullable base → Wraps (.lowCardinality inner) nullable base
  | nullable {inner base : ColumnType} :
      Wraps inner false base → Wraps (.nullable inner) true base

/-- Taking wrappers off the encoder's text takes them off the native type. -/
theorem unwrapWithin_wraps {rounds : Nat} {nullable lowCardinality : Bool} {core text : Text}
    {columnType : ColumnType} (follows : Follows core text) (denotes : Denotes text columnType)
    (once : nullableOnce columnType = true)
    (single : nullable = true → mayBeNull columnType = false) :
    ∃ baseText base flag,
      Follows (ParsedType.unwrapWithin rounds nullable lowCardinality core).core baseText ∧
      Denotes baseText base ∧ nullableOnce base = true ∧ Wraps columnType flag base ∧
      (ParsedType.unwrapWithin rounds nullable lowCardinality core).nullable =
        (nullable || flag) ∧ (nullable = true → flag = false) := by
  induction rounds generalizing nullable lowCardinality core text columnType with
  | zero =>
      exact ⟨text, columnType, false, follows, denotes, once, .base _,
        by simp [ParsedType.unwrapWithin], fun _ => rfl⟩
  | succ rounds ih =>
      rw [ParsedType.unwrapWithin]
      cases outer : ParsedType.extractWrapper core "Nullable" with
      | some inner =>
          obtain rfl := follows.eq_of_extractWrapper outer rfl (by decide)
          obtain ⟨innerType, parsed, rfl⟩ := denotes.nullable outer
          simp only [nullableOnce, Bool.and_eq_true, Bool.not_eq_true'] at once
          have notYet : nullable = false := by
            cases nullable with
            | false => rfl
            | true => cases single rfl
          subst notYet
          obtain ⟨baseText, base, flag, follows, denotes, once, wraps, same, direct⟩ :=
            @ih true lowCardinality inner _ innerType (Follows.trim_self inner)
              (denotes_trim_iff.mpr parsed) once.2 fun _ => once.1
          obtain rfl := direct rfl
          exact ⟨baseText, base, true, follows, denotes, once, .nullable wraps, same, by simp⟩
      | none =>
          cases outer : ParsedType.extractWrapper core "LowCardinality" with
          | some inner =>
              obtain rfl := follows.eq_of_extractWrapper outer rfl (by decide)
              obtain ⟨innerType, parsed, rfl⟩ := denotes.lowCardinality outer
              obtain ⟨baseText, base, flag, follows, denotes, once, wraps, same, direct⟩ :=
                @ih nullable true inner _ innerType (Follows.trim_self inner)
                  (denotes_trim_iff.mpr parsed) once single
              exact ⟨baseText, base, flag, follows, denotes, once, .lowCardinality wraps, same,
                direct⟩
          | none =>
              exact ⟨text, columnType, false, follows, denotes, once, .base _, by simp,
                fun _ => rfl⟩

/-! ## Types without a type below -/

/-- The width of a cell, for the tags that fix one. -/
def tagWidth : TypeTag → Option Nat
  | .uInt8 | .int8 | .bool | .enum8 => some 1
  | .uInt16 | .int16 | .enum16 | .date => some 2
  | .uInt32 | .int32 | .float32 | .date32 | .dateTime | .decimal32 | .iPv4 => some 4
  | .uInt64 | .int64 | .float64 | .dateTime64 | .decimal64 => some 8
  | .uInt128 | .int128 | .decimal128 | .uuid | .iPv6 => some 16
  | .uInt256 | .int256 | .decimal256 => some 32
  | _ => none

/-- The width of a cell of a type, where it has a fixed one. -/
def cellWidth (info : TypeInfo) : Option Nat :=
  match encodingTag info with
  | .fixedString => info.fixedSize
  | tag => tagWidth tag

/-- Whether cells are length-prefixed texts. -/
def isTextTag (tag : TypeTag) : Bool :=
  tag == .string || tag == .json

/-- Whether the encoder has no cells for a tag. -/
def isRefusedTag (tag : TypeTag) : Bool :=
  tag == .point || tag == .variant || tag == .dynamic || tag == .unknown

/-- Whether the cells of a native type are length-prefixed texts. -/
def isTextType : ColumnType → Bool
  | .string | .newJson => true
  | _ => false

/-- The precision of a decimal whose argument list has three parts. -/
def loosePrecision (core : Text) : Option Nat :=
  match (ParsedType.extractParens core).map (List.splitOn ',') with
  | some [precision, _, _] => ParsedType.parseU8 precision
  | _ => none

/-- Whether a type is a decimal whose argument list ends in a comma, and whose
precision does not select the width that is taken without one. -/
def isLooseDecimal (info : TypeInfo) : Bool :=
  info.base == "Decimal".toList &&
    (loosePrecision (ParsedType.unwrap info.raw).core).any fun precision =>
      precision < 19 || 38 < precision

theorem not_isLooseDecimal {info : TypeInfo} (notDecimal : info.base ≠ "Decimal".toList) :
    isLooseDecimal info = false := by
  rw [isLooseDecimal, Bool.and_eq_false_iff]
  exact .inl (beq_eq_false_iff_ne.mpr notDecimal)

/-- What the encoder and the native parser make of a type without a type below. -/
inductive PlainAgrees (info : TypeInfo) (columnType : ColumnType) : Prop
  | fixed {width : Nat} (tight : isLooseDecimal info = false)
      (native : columnType.fixedSize = some width) (encoder : cellWidth info = some width)
  | text (native : isTextType columnType = true)
      (encoder : isTextTag (encodingTag info) = true)
  | refused (encoder : isRefusedTag (encodingTag info) = true)
  | loose {width : Nat} (loose : isLooseDecimal info = true)
      (native : columnType.fixedSize = some width) (different : width ≠ 16)
      (encoder : encodingTag info = .decimal128)

/-- A text without parentheses goes past every branch for a type with arguments. -/
theorem typeForm_of_shallow {text : Text} (plain : '(' ∉ text)
    (shallow : ¬ maxParenDepth text > maxTypeParseDepth) :
    typeForm text = .done (scalarType text) := by
  have noWrapper (name : String) : stripOuter text name = none := by
    cases found : stripOuter text name with
    | none => rfl
    | some inner =>
        rw [stripOuter_eq_some_iff.mp found] at plain
        simp at plain
  have noOpening {name : String} (opens : '(' ∈ name.toList) :
      Native.startsWith text name = false := by
    cases found : Native.startsWith text name with
    | false => rfl
    | true =>
        obtain ⟨rest, rfl⟩ := startsWith_eq_true_iff.mp found
        exact absurd (List.mem_append_left rest opens) plain
  rw [typeForm, if_neg shallow]
  simp (disch := decide) only [noWrapper, noOpening, Bool.false_eq_true, if_false]

/-- A text without parentheses can only be the name of a type without arguments. -/
theorem typeForm_of_plain {text : Text} (plain : '(' ∉ text) :
    typeForm text = .done (scalarType text) ∨ typeForm text = .done none := by
  by_cases deep : maxParenDepth text > maxTypeParseDepth
  · exact .inr (by rw [typeForm, if_pos deep])
  · exact .inl (typeForm_of_shallow plain deep)

/-- What the two tables say of a name. -/
def tablesAgree (entry : String × TypeTag) : Bool :=
  entry.1.toList.all IsNameChar && !entry.1.toList.contains '(' && !entry.1.toList.isEmpty &&
    match scalarType entry.1.toList with
    | none => true
    | some columnType =>
        isRefusedTag entry.2 ||
          (entry.2 != .fixedString &&
            if isTextTag entry.2 then isTextType columnType
            else (tagWidth entry.2).isSome && columnType.fixedSize == tagWidth entry.2)

theorem tablesAgree_of_mem {entry : String × TypeTag} (member : entry ∈ baseTags) :
    tablesAgree entry = true := by
  have all : baseTags.all tablesAgree = true := by decide +kernel
  exact List.all_eq_true.mp all entry member

/-- A type that is told by its name alone. -/
theorem named_agrees {info : TypeInfo} {core text : Text} {columnType : ColumnType}
    (follows : Follows core text) (denotes : Denotes text columnType)
    (notDecimal : core ≠ "Decimal".toList) :
    PlainAgrees { info with base := core, tag := .fromBase core } columnType := by
  have tagged : encodingTag { info with base := core, tag := .fromBase core } =
      .fromBase core := if_neg notDecimal
  cases found : baseTags.find? fun entry => entry.1.toList == core with
  | none =>
      apply PlainAgrees.refused
      rw [tagged, TypeTag.fromBase, found]
      rfl
  | some entry =>
      have tag : TypeTag.fromBase core = entry.2 := by rw [TypeTag.fromBase, found]; rfl
      have matched := List.find?_some found
      have same : entry.1.toList = core := eq_of_beq matched
      have agree := tablesAgree_of_mem (List.mem_of_find?_eq_some found)
      simp only [tablesAgree, same, Bool.and_eq_true, Bool.not_eq_true'] at agree
      obtain ⟨⟨⟨named, plain⟩, nonempty⟩, agree⟩ := agree
      have isText : text = core := follows.eq_of_name named (by simpa using nonempty)
      subst isText
      have noParen : '(' ∉ text := by simpa using plain
      rcases typeForm_of_plain noParen with form | form <;>
        rw [Denotes, form, TypeForm.parseWith] at denotes
      · rw [denotes] at agree
        simp only [Bool.or_eq_true, Bool.and_eq_true] at agree
        rcases agree with refused | ⟨sized, agree⟩
        · exact .refused (by rw [tagged, tag]; exact refused)
        · split at agree
          · rename_i isText
            exact .text agree (by rw [tagged, tag]; exact isText)
          · obtain ⟨fixed, same⟩ := Bool.and_eq_true_iff.mp agree
            obtain ⟨width, widthOf⟩ := Option.isSome_iff_exists.mp fixed
            have native : columnType.fixedSize = some width := by rw [eq_of_beq same, widthOf]
            apply PlainAgrees.fixed (not_isLooseDecimal notDecimal) native
            · rw [cellWidth, tagged, tag]
              split
              · rename_i isFixedString
                rw [isFixedString] at sized
                cases sized
              · exact widthOf
      · cases denotes

/-! ### Decimals -/

@[simp] theorem decimalInfo_base (info : TypeInfo) (core : Text) :
    (ParsedType.decimalInfo info core).base = ParsedType.parseDecimalBase core := by
  unfold ParsedType.decimalInfo
  dsimp only
  split <;> rfl

@[simp] theorem decimalInfo_tag (info : TypeInfo) (core : Text) :
    (ParsedType.decimalInfo info core).tag = .fromBase (ParsedType.parseDecimalBase core) := by
  unfold ParsedType.decimalInfo
  dsimp only
  split <;> rfl

@[simp] theorem decimalInfo_raw (info : TypeInfo) (core : Text) :
    (ParsedType.decimalInfo info core).raw = info.raw := by
  unfold ParsedType.decimalInfo
  dsimp only
  split <;> rfl

theorem decimalDefaultWidth_eq (precision : Nat) :
    decimalDefaultWidth precision =
      if precision ≤ 9 then 4 else if precision ≤ 18 then 8
        else if precision ≤ 38 then 16 else 32 := by
  unfold decimalDefaultWidth decimalTagForPrecision
  by_cases narrow : precision ≤ 9
  · rw [if_pos narrow, if_pos narrow]
  · by_cases middle : precision ≤ 18
    · rw [if_neg narrow, if_pos middle, if_neg narrow, if_pos middle]
    · by_cases wide : precision ≤ 38
      · rw [if_neg narrow, if_neg middle, if_pos wide, if_neg narrow, if_neg middle, if_pos wide]
      · rw [if_neg narrow, if_neg middle, if_neg wide, if_neg narrow, if_neg middle, if_neg wide]

theorem decimalDefaultWidth_eq_sixteen_iff {precision : Nat} :
    decimalDefaultWidth precision = 16 ↔ 19 ≤ precision ∧ precision ≤ 38 := by
  rw [decimalDefaultWidth_eq]
  split
  · omega
  · split
    · omega
    · split <;> omega

/-- The width of a native decimal is that of its precision. -/
theorem fixedSize_of_decimalType {arguments : Text} {columnType : ColumnType}
    (typed : decimalType arguments = some columnType) :
    ∃ first second precision scale, Native.splitTypeArgs arguments = [first, second] ∧
      Native.parseU8 first = some precision ∧ Native.parseU8 second = some scale ∧
      columnType.fixedSize = some (decimalDefaultWidth precision) := by
  unfold decimalType at typed
  split at typed
  · rename_i first second split
    obtain ⟨precision, precisionParsed, typed⟩ := Option.bind_eq_some_iff.mp typed
    obtain ⟨scale, scaleParsed, typed⟩ := Option.bind_eq_some_iff.mp typed
    refine ⟨first, second, precision, scale, split, precisionParsed, scaleParsed, ?_⟩
    rw [decimalDefaultWidth_eq]
    split at typed
    · cases typed
      rw [if_pos ‹_›]
      rfl
    · rw [if_neg ‹_›]
      split at typed
      · cases typed
        rw [if_pos ‹_›]
        rfl
      · rw [if_neg ‹_›]
        split at typed
        · cases typed
          rw [if_pos ‹_›]
          rfl
        · cases typed
          rw [if_neg ‹_›]
          rfl
  · cases typed

@[simp] theorem tagWidth_decimalTagForPrecision (precision : Nat) :
    tagWidth (decimalTagForPrecision precision) = some (decimalDefaultWidth precision) := by
  unfold decimalDefaultWidth decimalTagForPrecision
  split
  · rfl
  · split
    · rfl
    · split <;> rfl

theorem cellWidth_of_decimal {info : TypeInfo} (decimal : info.base = "Decimal".toList) :
    cellWidth info = some (decimalDefaultWidth (info.precision.getD 38)) := by
  have tagged : encodingTag info = decimalTagForPrecision (info.precision.getD 38) :=
    if_pos decimal
  rw [cellWidth, tagged, ← tagWidth_decimalTagForPrecision]
  split
  · rename_i impossible
    unfold decimalTagForPrecision at impossible
    repeat' split at impossible
    all_goals cases impossible
  · rfl

/-- A decimal of a given width. -/
theorem sizedDecimal_agrees {info : TypeInfo} {rest : Text} {columnType : ColumnType}
    {entry : String × Nat} (member : entry ∈ Denotes.sizedDecimals)
    (native : columnType.fixedSize = some entry.2) :
    PlainAgrees (ParsedType.decimalInfo info (entry.1.toList ++ rest)) columnType := by
  have base : ParsedType.parseDecimalBase (entry.1.toList ++ rest) = entry.1.toList := by
    simp only [Denotes.sizedDecimals, List.mem_cons, List.not_mem_nil, or_false] at member
    rcases member with rfl | rfl | rfl | rfl <;>
      simp (disch := decide) only [ParsedType.parseDecimalBase, startsWith_eq, startsWith_apart,
        startsWith_append, Bool.false_eq_true, if_false, if_true]
  have table : Denotes.sizedDecimals.all (fun entry =>
      entry.1.toList != "Decimal".toList && tagWidth (.fromBase entry.1.toList) == some entry.2 &&
        TypeTag.fromBase entry.1.toList != .fixedString) = true := by
    decide +kernel
  have known := List.all_eq_true.mp table entry member
  simp only [Bool.and_eq_true, bne_iff_ne, ne_eq, beq_iff_eq] at known
  obtain ⟨⟨sized, width⟩, notText⟩ := known
  have tagged : encodingTag (ParsedType.decimalInfo info (entry.1.toList ++ rest)) =
      .fromBase entry.1.toList := by
    rw [encodingTag, decimalInfo_base, decimalInfo_tag, base, if_neg sized]
  apply PlainAgrees.fixed _ native
  · rw [cellWidth, tagged]
    split
    · exact absurd ‹_› notText
    · exact width
  · apply not_isLooseDecimal
    rw [decimalInfo_base, base]
    exact sized

/-- A number has no brackets. -/
theorem not_mem_of_parseU8 {char : Char} {text : Text} {value : Nat}
    (parsed : Native.parseU8 text = some value) (visible : isWhitespace char = false)
    (other : char ≠ '+' ∧ char.isDigit = false) : char ∉ text := by
  intro member
  rcases mem_of_parseUnsigned parsed (mem_trim_of_mem member visible) with same | digit
  · exact other.1 same
  · rw [other.2] at digit
    cases digit

theorem plain_of_parseU8 {first second : Text} {precision scale : Nat}
    (precisionParsed : Native.parseU8 first = some precision)
    (scaleParsed : Native.parseU8 second = some scale) :
    ∀ char ∈ first ++ second, char ≠ '(' ∧ char ≠ ')' := by
  have absent {char : Char} (visible : isWhitespace char = false)
      (other : char ≠ '+' ∧ char.isDigit = false) : char ∉ first ++ second := by
    intro member
    rcases List.mem_append.mp member with member | member
    · exact not_mem_of_parseU8 precisionParsed visible other member
    · exact not_mem_of_parseU8 scaleParsed visible other member
  intro char member
  constructor
  · rintro rfl
    exact absent (by decide) (by decide) member
  · rintro rfl
    exact absent (by decide) (by decide) member

/-- A decimal whose width its precision selects. -/
theorem decimal_agrees {info : TypeInfo} {core arguments filler : Text} {columnType : ColumnType}
    (shape : core = "Decimal(".toList ++ (arguments ++ ')' :: filler))
    (isFiller : ∀ char ∈ filler, IsFiller char)
    (typed : decimalType arguments = some columnType)
    (fresh : info.precision = none) (raw : (ParsedType.unwrap info.raw).core = core) :
    PlainAgrees (ParsedType.decimalInfo info core) columnType := by
  obtain ⟨first, second, precision, scale, split, precisionParsed, scaleParsed, native⟩ :=
    fixedSize_of_decimalType typed
  have base : (ParsedType.decimalInfo info core).base = "Decimal".toList := by
    rw [decimalInfo_base, shape]
    rfl
  have closed : ')' ∉ filler := fun member => by
    rcases isFiller _ member with blank | same
    · revert blank
      decide
    · cases same
  have parens : ParsedType.extractParens core = some arguments := by
    rw [shape]
    exact @ParsedType.extractParens_eq "Decimal".toList arguments filler (by decide) closed
  obtain ⟨before, after, rest, parts, rfl, rfl, few⟩ :=
    splitOn_of_splitTypeArgs split (plain_of_parseU8 precisionParsed scaleParsed)
  have parsed : ParsedType.parseU8 before = some precision := by
    rw [← precisionParsed, ParsedType.parseU8, Native.parseU8, trim_trim]
  have isLoose : isLooseDecimal (ParsedType.decimalInfo info core) =
      (loosePrecision core).any fun precision => precision < 19 || 38 < precision := by
    rw [isLooseDecimal, base, decimalInfo_raw, raw, beq_self_eq_true, Bool.true_and]
  rcases few with rfl | ⟨blank, rfl⟩
  · have known : (ParsedType.decimalInfo info core).precision = some precision := by
      simp only [ParsedType.decimalInfo, parens, Option.map_some, parts, parsed]
    have two : loosePrecision core = none := by
      simp only [loosePrecision, parens, Option.map_some, parts]
    apply PlainAgrees.fixed _ native
    · rw [cellWidth_of_decimal base, known]
      rfl
    · rw [isLoose, two]
      rfl
  · -- Three parts leave the precision unknown, and the encoder takes 38 for it.
    have unknown : (ParsedType.decimalInfo info core).precision = none := by
      simp only [ParsedType.decimalInfo, parens, Option.map_some, parts, fresh]
    have three : loosePrecision core = some precision := by
      simp only [loosePrecision, parens, Option.map_some, parts, parsed]
    by_cases usual : 19 ≤ precision ∧ precision ≤ 38
    · apply PlainAgrees.fixed _ native
      · rw [cellWidth_of_decimal base, unknown, decimalDefaultWidth_eq_sixteen_iff.mpr usual]
        rfl
      · rw [isLoose, three]
        simp only [Option.any_some, Bool.or_eq_false_iff, decide_eq_false_iff_not]
        omega
    · have loose : isLooseDecimal (ParsedType.decimalInfo info core) = true := by
        rw [isLoose, three]
        simp only [Option.any_some, Bool.or_eq_true, decide_eq_true_eq]
        omega
      have different : decimalDefaultWidth precision ≠ 16 := fun same =>
        usual (decimalDefaultWidth_eq_sixteen_iff.mp same)
      apply PlainAgrees.loose loose native different
      rw [encodingTag, if_pos base, unknown]
      rfl

@[simp] theorem dateTime64Info_tag (info : TypeInfo) (core : Text) :
    encodingTag (ParsedType.dateTime64Info info core) = .dateTime64 := by
  unfold ParsedType.dateTime64Info
  dsimp only
  split
  · split <;> rfl
  · rfl

@[simp] theorem dateTime64Info_base (info : TypeInfo) (core : Text) :
    (ParsedType.dateTime64Info info core).base = "DateTime64".toList := by
  unfold ParsedType.dateTime64Info
  dsimp only
  split
  · split <;> rfl
  · rfl

/-- The branches without a type below agree with the native parser. -/
theorem plainInfo_agrees {info : TypeInfo} {core text : Text} {columnType : ColumnType}
    (follows : Follows core text) (denotes : Denotes text columnType)
    (fresh : info.precision = none) (raw : (ParsedType.unwrap info.raw).core = core) :
    PlainAgrees (ParsedType.plainInfo info core) columnType := by
  have opening {name : String} (starts : ParsedType.startsWith core name = true)
      (named : name.toList.all IsNameChar = true) (nonempty : name.toList ≠ []) :
      ∃ rest, text = name.toList ++ rest := by
    obtain ⟨rest, shape⟩ := startsWith_eq_true_iff.mp starts
    exact follows.exists_rest shape named nonempty
  unfold ParsedType.plainInfo
  split
  · rename_i starts
    obtain ⟨rest, rfl⟩ := opening starts (by decide) (by decide)
    apply PlainAgrees.fixed _ denotes.dateTime64
    · rw [cellWidth, dateTime64Info_tag]
      rfl
    · apply not_isLooseDecimal
      rw [dateTime64Info_base]
      decide
  split
  · rename_i zone found
    obtain rfl := follows.eq_of_extractWrapper found rfl (by decide)
    exact .fixed rfl (denotes.dateTime found) rfl
  split
  · rename_i size found
    obtain rfl := follows.eq_of_extractWrapper found rfl (by decide)
    obtain ⟨width, parsed, rfl⟩ := denotes.fixedString found
    apply PlainAgrees.fixed rfl rfl
    change parseUnsigned 64 (trim size) = some width
    rw [trim_of_parseUnsigned parsed, parsed]
  split
  · rename_i starts
    obtain ⟨rest, rfl⟩ := opening starts (by decide) (by decide)
    obtain ⟨after, shape⟩ := startsWith_eq_true_iff.mp starts
    obtain ⟨filler, split, isFiller⟩ := follows.exists_filler shape rfl (by decide)
    rcases denotes.decimal with ⟨entry, member, ⟨scale, found⟩, native⟩ | ⟨arguments, found, typed⟩
    · rw [split, stripOuter_eq_some_iff.mp found, List.append_assoc]
      exact sizedDecimal_agrees member native
    · rw [stripOuter_eq_some_iff.mp found] at split
      exact decimal_agrees (by simpa using split) isFiller typed fresh raw
  split
  · rename_i starts
    obtain ⟨rest, rfl⟩ := opening starts (by decide) (by decide)
    exact .fixed rfl denotes.enum8 rfl
  split
  · rename_i starts
    obtain ⟨rest, rfl⟩ := opening starts (by decide) (by decide)
    exact .fixed rfl denotes.enum16 rfl
  split
  · exact .refused rfl
  split
  · exact .refused rfl
  · rename_i notDecimal _ _ _ _
    apply named_agrees follows denotes
    rintro rfl
    exact notDecimal (startsWith_append "Decimal" [])

/-! ## Map keys -/

/-- A text without commas whose parentheses are closed in it. -/
structure Level (text : Text) : Prop where
  plain : ',' ∉ text
  closed : ∀ depth, text.foldl parenDepthAfter depth = depth

namespace Level

theorem append {first second : Text} (left : Level first) (right : Level second) :
    Level (first ++ second) where
  plain := by
    intro member
    rcases List.mem_append.mp member with member | member
    · exact left.plain member
    · exact right.plain member
  closed depth := by rw [List.foldl_append, left.closed, right.closed]

/-- Names and blanks are level. -/
theorem of_all {text : Text} (all : ∀ char ∈ text, char ≠ ',' ∧ char ≠ '(' ∧ char ≠ ')') :
    Level text where
  plain member := (all _ member).1 rfl
  closed depth := by
    by_contra moved
    rcases mem_of_foldl_parenDepthAfter moved with member | member
    · exact (all _ member).2.1 rfl
    · exact (all _ member).2.2 rfl

theorem enclosed {text : Text} (level : Level text) : Level ('(' :: (text ++ [')'])) where
  plain := by
    intro member
    simp only [List.mem_cons, List.mem_append, List.not_mem_nil, or_false] at member
    rcases member with impossible | member | impossible
    · cases impossible
    · exact level.plain member
    · cases impossible
  closed depth := by
    rw [List.foldl_cons, List.foldl_append, level.closed]
    rfl

theorem wrapped {name : String} {text inner : Text}
    (found : ParsedType.extractWrapper text name = some inner)
    (named : ∀ char ∈ name.toList, char ≠ ',' ∧ char ≠ '(' ∧ char ≠ ')')
    (level : Level inner) : Level text := by
  rw [ParsedType.extractWrapper_eq_some_iff.mp found]
  exact (of_all named).append level.enclosed

theorem of_unwrapWithin {rounds : Nat} {nullable lowCardinality : Bool} {text : Text}
    (level : Level (ParsedType.unwrapWithin rounds nullable lowCardinality text).core) :
    Level text := by
  induction rounds generalizing nullable lowCardinality text with
  | zero => exact level
  | succ rounds ih =>
      rw [ParsedType.unwrapWithin] at level
      split at level
      · exact wrapped ‹_› (by simp) (ih level)
      · split at level
        · exact wrapped ‹_› (by simp) (ih level)
        · exact level

/-- A level text stays level between blanks. -/
theorem of_trim {text : Text} (level : Level (trim text)) : Level text := by
  obtain ⟨front, back, split, blankFront, blankBack⟩ := exists_trim_eq text
  have blank {part : Text} (isBlank : ∀ char ∈ part, isWhitespace char = true) : Level part := by
    apply of_all
    intro char member
    refine ⟨?_, ?_, ?_⟩ <;> rintro rfl <;> cases isBlank _ member
  rw [split]
  exact ((blank blankFront).append level).append (blank blankBack)

end Level

/-- What every branch without a type below keeps and fills in. -/
structure PlainFields (info plain : TypeInfo) (core : Text) : Prop where
  raw : plain.raw = info.raw
  nullable : plain.nullable = info.nullable
  tag : plain.tag = .fromBase plain.base
  string : plain.base = "String".toList → core = "String".toList

theorem dateTime64Info_fields (info : TypeInfo) (core : Text) :
    PlainFields info (ParsedType.dateTime64Info info core) core := by
  unfold ParsedType.dateTime64Info
  dsimp only
  split
  · split <;> exact ⟨rfl, rfl, rfl, fun impossible => by cases impossible⟩
  · exact ⟨rfl, rfl, rfl, fun impossible => by cases impossible⟩

theorem decimalInfo_fields (info : TypeInfo) (core : Text) :
    PlainFields info (ParsedType.decimalInfo info core) core where
  raw := decimalInfo_raw info core
  nullable := by
    unfold ParsedType.decimalInfo
    dsimp only
    split <;> rfl
  tag := by rw [decimalInfo_tag, decimalInfo_base]
  string := by
    rw [decimalInfo_base]
    unfold ParsedType.parseDecimalBase
    intro same
    repeat' split at same
    all_goals cases same

theorem plainInfo_fields (info : TypeInfo) (core : Text) :
    PlainFields info (ParsedType.plainInfo info core) core := by
  unfold ParsedType.plainInfo
  split
  · exact dateTime64Info_fields info core
  split
  · exact ⟨rfl, rfl, rfl, fun impossible => by cases impossible⟩
  split
  · exact ⟨rfl, rfl, rfl, fun impossible => by cases impossible⟩
  split
  · exact decimalInfo_fields info core
  repeat' split
  all_goals first
    | exact ⟨rfl, rfl, rfl, id⟩
    | exact ⟨rfl, rfl, rfl, fun impossible => by cases impossible⟩

theorem eq_of_fromBase_string {base : Text} (tagged : TypeTag.fromBase base = .string) :
    base = "String".toList := by
  unfold TypeTag.fromBase at tagged
  cases found : baseTags.find? fun entry => entry.1.toList == base with
  | none =>
      rw [found] at tagged
      cases tagged
  | some entry =>
      rw [found] at tagged
      have matched := List.find?_some found
      have table : ∀ entry ∈ baseTags, entry.2 = .string → entry.1.toList = "String".toList := by
        decide +kernel
      rw [← eq_of_beq matched, table entry (List.mem_of_find?_eq_some found) tagged]

/-- The wrappers of a type, and the text of a string type. -/
theorem parseText_info (text : Text) :
    (ParsedType.parseText text).info.nullable = (ParsedType.unwrap (trim text)).nullable ∧
      ((ParsedType.parseText text).info.tag = .string →
        (ParsedType.unwrap (trim text)).core = "String".toList) := by
  rw [ParsedType.parseText_eq, ParsedType.parseCore]
  split
  · exact ⟨rfl, fun impossible => by cases impossible⟩
  · split
    · exact ⟨rfl, fun impossible => by cases impossible⟩
    · obtain ⟨_, nullable, tag, string⟩ := plainInfo_fields
        { raw := trim text
          nullable := (ParsedType.unwrap (trim text)).nullable
          lowCardinality := (ParsedType.unwrap (trim text)).lowCardinality }
        (ParsedType.unwrap (trim text)).core
      exact ⟨nullable, fun tagged => string (eq_of_fromBase_string (tag ▸ tagged))⟩

/-- The first argument of a map is the same for both parsers when it is level. -/
theorem splitTypeArgs_of_level {before after : Text} (level : Level before) :
    Native.splitTypeArgs (before ++ ',' :: after) =
      trim before :: Native.splitTypeArgs after := by
  rw [Native.splitTypeArgs, splitTypeArgsFrom_append level.plain, level.closed,
    splitTypeArgsFrom_comma, List.append_nil, List.reverse_reverse]
  rfl

/-! ## All types -/

/-- What the encoder and the native parser make of a type.  Below an array or a map
the encoder's type may be one it refuses. -/
inductive Agrees : ParsedType → ColumnType → Prop
  | plain {info : TypeInfo} {columnType base : ColumnType} :
      info.tag = .fromBase info.base → Wraps columnType info.nullable base →
      PlainAgrees info base → Agrees (.plain info) columnType
  | array {info : TypeInfo} {element : ParsedType} {columnType inner : ColumnType} :
      info.base = "Array".toList → info.tag = .array →
      Wraps columnType info.nullable (.array inner) → Agrees element inner →
      Agrees (.array info element) columnType
  | map {info : TypeInfo} {key value : ParsedType} {columnType keyType valueType : ColumnType} :
      info.base = "Map".toList → info.tag = .map →
      Wraps columnType info.nullable (.map keyType valueType) →
      (key.info.tag = .string → key.info.nullable = false → Wraps keyType false .string) →
      (key.info.tag = .string → key.info.nullable = false → Agrees value valueType) →
      Agrees (.map info key value) columnType

/-- A string key is cut off at the same comma by both parsers. -/
theorem splitTypeArgs_of_string {before after key value : Text}
    (string : (ParsedType.parseText (trim before)).info.tag = .string)
    (split : Native.splitTypeArgs (before ++ ',' :: after) = [key, value]) :
    key = trim before ∧ Native.splitTypeArgs after = [value] := by
  have core := (parseText_info (trim before)).2 string
  rw [ParsedType.unwrap] at core
  have inner : Level (trim (trim before)) := by
    apply Level.of_unwrapWithin
    rw [core]
    exact Level.of_all (by simp)
  rw [splitTypeArgs_of_level inner.of_trim.of_trim] at split
  obtain ⟨same, rest⟩ := List.cons.inj split
  exact ⟨same.symm, rest⟩

/-- The native type of a string key. -/
theorem stringKey_wraps {text : Text} {keyType : ColumnType}
    (string : (ParsedType.parseText text).info.tag = .string)
    (notNull : (ParsedType.parseText text).info.nullable = false)
    (parsed : Native.parseText text = some keyType) (once : nullableOnce keyType = true) :
    Wraps keyType false .string := by
  obtain ⟨nullable, core⟩ := parseText_info text
  obtain ⟨baseText, base, flag, follows, denotes, _, wraps, flagged, _⟩ :=
    @unwrapWithin_wraps (trim text).length false false _ _ _ (.refl (trim text))
      (denotes_trim_iff.mpr parsed) once (by simp)
  rw [ParsedType.unwrap] at nullable core
  rw [core string] at follows
  obtain rfl := follows.eq_of_name (by decide) (by decide)
  have isString : Denotes "String".toList .string := rfl
  obtain rfl := Option.some.inj (isString.symm.trans denotes)
  rw [Bool.false_or, ← nullable, notNull] at flagged
  rw [flagged]
  exact wraps

/-- Trimming leaves the fillers after a text. -/
theorem follows_trim {held filler : Text} (isFiller : ∀ char ∈ filler, IsFiller char)
    (nonempty : trim held ≠ []) : Follows (trim (held ++ filler)) (trim held) := by
  obtain ⟨kept, trimmed, isKept⟩ := exists_trim_append nonempty filler
  refine ⟨[], kept, trimmed, by simp, ?_⟩
  intro char member
  rcases isKept char member with blank | member
  · exact .inl blank
  · exact isFiller char member

/-- Both parsers, on texts that follow each other. -/
theorem parseText_agrees {dynamicText text : Text} {columnType : ColumnType}
    (follows : Follows (trim dynamicText) text) (denotes : Denotes text columnType)
    (once : nullableOnce columnType = true) :
    Agrees (ParsedType.parseText dynamicText) columnType := by
  induction size : dynamicText.length using Nat.strongRecOn
    generalizing dynamicText text columnType with
  | ind _ ih =>
      subst size
      have trimmed := length_trim_le dynamicText
      have unwrapped : (ParsedType.unwrap (trim dynamicText)).core.length ≤
          (trim dynamicText).length := ParsedType.length_unwrapWithin_le ..
      obtain ⟨baseText, base, flag, follows, denotes, once, wraps, nullable, _⟩ :=
        @unwrapWithin_wraps (trim dynamicText).length false false _ _ _ follows denotes once
          (by simp)
      rw [Bool.false_or] at nullable
      rw [← nullable] at wraps
      rw [ParsedType.parseText_eq, ParsedType.parseCore]
      split
      · rename_i inner found
        have shorter := ParsedType.length_of_extractWrapper found
        obtain rfl := follows.eq_of_extractWrapper found rfl (by decide)
        obtain ⟨innerType, parsed, rfl⟩ := denotes.array found
        apply Agrees.array rfl rfl wraps
        exact ih _ (by omega) (.refl _) (denotes_trim_iff.mpr parsed) once rfl
      · split
        · rename_i key value found
          obtain ⟨arguments, stripped, split⟩ := Option.bind_eq_some_iff.mp found
          have shorter := ParsedType.length_of_extractWrapper stripped
          obtain ⟨before, after, rfl, rfl, rfl⟩ := ParsedType.exists_of_splitTypeArgs split
          have keyLength := length_trim_le before
          have valueLength := length_trim_le after
          simp only [List.length_append, List.length_cons] at shorter
          obtain rfl := follows.eq_of_extractWrapper stripped rfl (by decide)
          obtain ⟨keyText, valueText, keyType, valueType, nativeSplit, keyParsed,
              valueParsed, rfl⟩ :=
            denotes.map stripped
          simp only [nullableOnce, Bool.and_eq_true] at once
          apply Agrees.map rfl rfl wraps
          · intro string notNull
            obtain ⟨rfl, _⟩ := splitTypeArgs_of_string string nativeSplit
            exact stringKey_wraps string notNull keyParsed once.1
          · intro string notNull
            obtain ⟨rfl, rest⟩ := splitTypeArgs_of_string string nativeSplit
            obtain ⟨held, filler, whole, rfl, isFiller⟩ := filler_of_splitTypeArgsFrom rest
            rw [List.reverse_nil, List.nil_append] at whole
            have valueDenotes := denotes_trim_iff.mpr valueParsed
            rw [trim_trim] at valueDenotes
            rw [whole]
            apply ih _ _ _ valueDenotes once.2 rfl
            · rw [← whole]
              omega
            · rw [trim_trim]
              exact follows_trim isFiller valueDenotes.ne_nil
        · apply Agrees.plain (plainInfo_fields _ _).tag
          · rw [(plainInfo_fields _ _).nullable]
            exact wraps
          · exact plainInfo_agrees follows denotes rfl rfl

end DfeClickhouse.Dynamic
