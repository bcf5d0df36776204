import DfeClickhouse.Dynamic.Encode
import DfeClickhouse.Library.Numeral

/-!
# Enum labels

A type name lists the labels of an enum between quotes, each with its number.  The encoder
looks a label up in the text of the column's type, wrappers included.  Here is what it reads
there, and for which labels that is the declared number.
-/

namespace DfeClickhouse.Dynamic

open Library

/-- The quote around a label. -/
def labelQuote : Char := Char.ofNat 39

/-- The characters that are not written as themselves, and their codes behind a backslash. -/
def escapeCodes : List (Char × Char) :=
  [('\\', '\\'), (labelQuote, labelQuote), ('\n', 'n'), ('\t', 't'), ('\r', 'r'),
    (Char.ofNat 0, '0'), (Char.ofNat 8, 'b'), (Char.ofNat 12, 'f')]

def escapeChar (char : Char) : Text :=
  match escapeCodes.lookup char with
  | some code => ['\\', code]
  | none => [char]

/-- A label as it is written between its quotes. -/
def writtenLabel (label : Text) : Text :=
  label.flatMap escapeChar

structure EnumMember where
  label : Text
  ordinal : Int

/-- A member with its number. -/
def EnumMember.text (item : EnumMember) : Text :=
  labelQuote :: (writtenLabel item.label ++
    labelQuote :: ' ' :: '=' :: ' ' :: (toString item.ordinal).toList)

inductive EnumWidth
  | enum8
  | enum16

namespace EnumWidth

def name : EnumWidth → Text
  | enum8 => "Enum8".toList
  | enum16 => "Enum16".toList

def bytes : EnumWidth → Nat
  | enum8 => 1
  | enum16 => 2

def tag : EnumWidth → TypeTag
  | enum8 => .enum8
  | enum16 => .enum16

end EnumWidth

/-- An enum: its labels are distinct, and their numbers fit. -/
structure EnumDefinition where
  width : EnumWidth
  members : List EnumMember
  distinct : (members.map EnumMember.label).Nodup
  inRange : ∀ item ∈ members, -2 ^ (8 * width.bytes - 1) ≤ item.ordinal ∧
    item.ordinal < 2 ^ (8 * width.bytes - 1)

namespace EnumDefinition

variable (definition : EnumDefinition)

def memberList : Text :=
  [',', ' '].intercalate (definition.members.map EnumMember.text)

def typeName : Text :=
  definition.width.name ++ '(' :: (definition.memberList ++ [')'])

/-- The type of a column of the enum. -/
def columnType (nullable : Bool) : Text :=
  if nullable then "Nullable".toList ++ '(' :: (definition.typeName ++ [')'])
  else definition.typeName

end EnumDefinition

/-- The label that is read from a member behind some text: what stands before the first
equals sign, without its outer quotes. -/
def labelRead (opening : Text) (item : EnumMember) : Text :=
  ParsedType.unquote ((opening ++ item.text).takeWhile (· ≠ '='))

/-- The number that is read from a member: none when its label has an equals sign, or when
it is closed by another parenthesis. -/
def ordinalRead (closed : Bool) (item : EnumMember) : Option Int :=
  if '=' ∈ item.label ∨ closed = true then none else some item.ordinal

/-- The number of the first member that is read as a label. -/
def firstRead (nullable : Bool) (label : Text) : Text → List EnumMember → Option Int
  | _, [] => none
  | opening, item :: rest =>
      if labelRead opening item = label then ordinalRead (nullable && rest.isEmpty) item
      else firstRead nullable label [' '] rest

namespace EnumDefinition

/-- What stands before the first member, when the outer parentheses are taken off. -/
def opening (definition : EnumDefinition) (nullable : Bool) : Text :=
  if nullable then definition.width.name ++ ['('] else []

/-- The number of a label: itself in writing, or what is read from the definition. -/
def numberRead (definition : EnumDefinition) (nullable : Bool) (label : Text) : Option Int :=
  match parseSigned 64 (trim label) with
  | some number => some number
  | none => firstRead nullable label (definition.opening nullable) definition.members

end EnumDefinition

/-- A text that neither ends a member nor opens a label. -/
def IsOutside (text : Text) : Prop :=
  ∀ char ∈ text, char ≠ labelQuote ∧ char ≠ '"' ∧ char ≠ ','

theorem isOutside_nil : IsOutside [] :=
  fun _ member => nomatch member

theorem isOutside_cons {char : Char} {text : Text}
    (outside : char ≠ labelQuote ∧ char ≠ '"' ∧ char ≠ ',') (rest : IsOutside text) :
    IsOutside (char :: text) :=
  List.forall_mem_cons.mpr ⟨outside, rest⟩

theorem splitEnumMembersFrom_outside {text : Text} (outside : IsOutside text)
    (current rest : Text) :
    splitEnumMembersFrom none false current (text ++ rest) =
      splitEnumMembersFrom none false (text.reverse ++ current) rest := by
  induction text generalizing current with
  | nil => rfl
  | cons char text ih =>
      have ⟨⟨noQuote, noDouble, noComma⟩, later⟩ := List.forall_mem_cons.mp outside
      have noOpening : ¬ (char = Char.ofNat 39 ∨ char = '"') := not_or.mpr ⟨noQuote, noDouble⟩
      rw [List.cons_append, splitEnumMembersFrom]
      simp only [Bool.false_eq_true, if_false, Option.isSome_none, and_false, noOpening, noComma]
      rw [ih later, List.reverse_cons, List.append_assoc]
      rfl

/-- A character in writing is itself, and then neither a quote nor a backslash, or a code
behind a backslash. -/
theorem escapeChar_cases (char : Char) :
    (escapeChar char = [char] ∧ char ≠ labelQuote ∧ char ≠ '\\') ∨
      ∃ code, code ≠ '=' ∧ char ≠ '=' ∧ escapeChar char = ['\\', code] := by
  rw [escapeChar]
  cases found : escapeCodes.lookup char with
  | none =>
      refine .inl ⟨rfl, ?_, ?_⟩
      · rintro rfl
        cases found
      · rintro rfl
        cases found
  | some code =>
      obtain ⟨before, after, split, -⟩ := List.lookup_eq_some_iff.mp found
      have entry : (char, code) ∈ escapeCodes := split ▸ by simp
      have apart : ∀ entry ∈ escapeCodes, entry.2 ≠ '=' ∧ entry.1 ≠ '=' := by decide
      exact .inr ⟨code, (apart _ entry).1, (apart _ entry).2, rfl⟩

theorem splitEnumMembersFrom_label (label current rest : Text) :
    splitEnumMembersFrom (some labelQuote) false current (writtenLabel label ++ rest) =
      splitEnumMembersFrom (some labelQuote) false ((writtenLabel label).reverse ++ current)
        rest := by
  induction label generalizing current with
  | nil => rfl
  | cons char label ih =>
      have written : writtenLabel (char :: label) = escapeChar char ++ writtenLabel label := rfl
      rw [written, List.append_assoc]
      rcases escapeChar_cases char with ⟨same, noQuote, noBackslash⟩ | ⟨code, -, -, same⟩
      · have open' : ¬ some labelQuote = some char := fun closes =>
          noQuote (Option.some.inj closes).symm
        rw [same, List.singleton_append, splitEnumMembersFrom]
        simp only [Bool.false_eq_true, if_false, noBackslash, false_and, Option.isSome_some,
          if_true, open']
        rw [ih, List.reverse_append, List.append_assoc]
        rfl
      · rw [same, List.cons_append, List.singleton_append, splitEnumMembersFrom]
        simp only [Bool.false_eq_true, if_false, Option.isSome_some, and_self, if_true]
        rw [splitEnumMembersFrom]
        simp only [if_true]
        rw [ih, List.reverse_append, List.append_assoc]
        rfl

theorem isOutside_ordinal (ordinal : Int) : IsOutside (toString ordinal).toList := by
  intro char member
  rcases mem_toString_int member with rfl | digit
  · decide
  · refine ⟨?_, ?_, ?_⟩ <;>
    · rintro rfl
      revert digit
      decide

/-- A member is kept whole. -/
theorem splitEnumMembersFrom_member (item : EnumMember) (current rest : Text) :
    splitEnumMembersFrom none false current (item.text ++ rest) =
      splitEnumMembersFrom none false (item.text.reverse ++ current) rest := by
  have opened (rest : Text) : splitEnumMembersFrom none false current (labelQuote :: rest) =
      splitEnumMembersFrom (some labelQuote) false (labelQuote :: current) rest := rfl
  have closed (current rest : Text) :
      splitEnumMembersFrom (some labelQuote) false current (labelQuote :: rest) =
        splitEnumMembersFrom none false (labelQuote :: current) rest := rfl
  have outside : IsOutside (' ' :: '=' :: ' ' :: (toString item.ordinal).toList) :=
    isOutside_cons (by decide) (isOutside_cons (by decide)
      (isOutside_cons (by decide) (isOutside_ordinal item.ordinal)))
  rw [EnumMember.text, List.cons_append, opened, List.append_assoc, splitEnumMembersFrom_label,
    List.cons_append, closed, splitEnumMembersFrom_outside outside]
  simp

/-- The pieces of a list of members between two texts. -/
def memberPieces (closing : Text) : Text → List EnumMember → List Text
  | opening, [] => [opening ++ closing]
  | opening, [item] => [opening ++ item.text ++ closing]
  | opening, item :: rest => (opening ++ item.text) :: memberPieces closing [' '] rest

theorem splitEnumMembers_members {opening closing : Text} (opens : IsOutside opening)
    (closes : IsOutside closing) (members : List EnumMember) :
    splitEnumMembers
        (opening ++ ([',', ' '].intercalate (members.map EnumMember.text) ++ closing)) =
      memberPieces closing opening members := by
  have ended (current : Text) :
      splitEnumMembersFrom none false current closing = [current.reverse ++ closing] := by
    have whole := splitEnumMembersFrom_outside closes current []
    rw [List.append_nil] at whole
    rw [whole, splitEnumMembersFrom, List.reverse_append, List.reverse_reverse]
  induction members generalizing opening with
  | nil =>
      rw [splitEnumMembers, splitEnumMembersFrom_outside opens]
      show splitEnumMembersFrom none false _ closing = _
      rw [ended]
      simp [memberPieces]
  | cons item rest ih =>
      cases rest with
      | nil =>
          rw [splitEnumMembers, splitEnumMembersFrom_outside opens, List.map_singleton,
            List.intercalate_singleton, splitEnumMembersFrom_member, ended]
          simp [memberPieces]
      | cons next rest =>
          have space : IsOutside [' '] := isOutside_cons (by decide) isOutside_nil
          have comma (current rest : Text) : splitEnumMembersFrom none false current (',' :: rest) =
              current.reverse :: splitEnumMembers rest := rfl
          rw [splitEnumMembers, splitEnumMembersFrom_outside opens, List.map_cons,
            List.map_cons, List.intercalate_cons_cons, List.append_assoc, List.append_assoc,
            splitEnumMembersFrom_member, List.cons_append, comma]
          have later := ih space
          rw [List.map_cons] at later
          rw [memberPieces, ← later]
          · simp
          · simp

@[simp]
theorem equals_mem_writtenLabel {label : Text} : '=' ∈ writtenLabel label ↔ '=' ∈ label := by
  rw [writtenLabel, List.mem_flatMap]
  constructor
  · rintro ⟨char, member, inside⟩
    rcases escapeChar_cases char with ⟨same, -, -⟩ | ⟨code, other, -, same⟩
    · rw [same, List.mem_singleton] at inside
      exact inside ▸ member
    · rw [same] at inside
      rcases List.mem_cons.mp inside with impossible | isCode
      · cases impossible
      · exact absurd (List.mem_singleton.mp isCode).symm other
  · intro member
    refine ⟨'=', member, ?_⟩
    decide

theorem equals_mem_text (item : EnumMember) : '=' ∈ item.text := by
  simp [EnumMember.text]

/-- A quote or a parenthesis in a text keeps it from being a number. -/
theorem parseSigned_eq_none {bits : Nat} {text : Text} {char : Char} (member : char ∈ text)
    (sign : isSign char = false) (digit : char.isDigit = false) :
    parseSigned bits text = none := by
  cases parsed : parseSigned bits text with
  | none => rfl
  | some value =>
      rcases mem_of_parseSigned parsed member with isSigned | isDigit
      · rw [sign] at isSigned
        cases isSigned
      · rw [digit] at isDigit
        cases isDigit

/-- What closes the last member. -/
def closing (closed : Bool) : Text :=
  if closed then [')'] else []

/-- The number behind a label without an equals sign. -/
theorem parseSigned_ordinal {item : EnumMember}
    (fits : -2 ^ 63 ≤ item.ordinal ∧ item.ordinal < 2 ^ 63) (closed : Bool) :
    parseSigned 64 (trim (' ' :: ((toString item.ordinal).toList ++ closing closed))) =
      if closed then none else some item.ordinal := by
  have visible : ∀ char ∈ (toString item.ordinal).toList ++ closing closed,
      isWhitespace char = false := by
    intro char member
    rcases List.mem_append.mp member with inside | closes
    · rcases mem_toString_int inside with rfl | digit
      · rfl
      · exact isWhitespace_of_isDigit digit
    · cases closed with
      | false => cases closes
      | true =>
          rw [List.mem_singleton.mp closes]
          rfl
  have spaced (text : Text) : trim (' ' :: text) = trim text := rfl
  rw [spaced, trim_eq_self visible]
  cases closed with
  | false =>
      rw [show closing false = [] from rfl, List.append_nil]
      exact parseSigned_toString fits.1 fits.2
  | true =>
      have closes : ')' ∈ (toString item.ordinal).toList ++ closing true :=
        List.mem_append_right _ List.mem_cons_self
      exact parseSigned_eq_none closes rfl rfl

/-- A member is split before its first equals sign, and its number is read unless there is
something else behind it. -/
theorem splitOnce_member {item : EnumMember}
    (fits : -2 ^ 63 ≤ item.ordinal ∧ item.ordinal < 2 ^ 63) {opening : Text}
    (opens : '=' ∉ opening) (closed : Bool) :
    ∃ rest, splitOnce (opening ++ item.text ++ closing closed) ['='] =
        some ((opening ++ item.text).takeWhile (· ≠ '='), rest) ∧
      parseSigned 64 (trim rest) = ordinalRead closed item := by
  have inside : '=' ∈ opening ++ item.text := List.mem_append_right _ (equals_mem_text item)
  have split := splitOnce_of_mem (List.mem_append_left (closing closed) inside)
  rw [takeWhile_append_of_mem inside] at split
  refine ⟨_, split, ?_⟩
  have front : (opening ++ item.text ++ closing closed).dropWhile (· ≠ '=') =
      (writtenLabel item.label ++ labelQuote :: ' ' :: '=' :: ' ' ::
        ((toString item.ordinal).toList ++ closing closed)).dropWhile (· ≠ '=') := by
    rw [List.append_assoc, dropWhile_ne_absent opens, EnumMember.text, List.cons_append,
      List.dropWhile_cons_of_pos (by decide)]
    simp only [List.append_assoc, List.cons_append]
  rw [front, ordinalRead]
  by_cases equals : '=' ∈ item.label
  · obtain ⟨tail, -, later⟩ := dropWhile_append_of_mem (equals_mem_writtenLabel.mpr equals)
      (labelQuote :: ' ' :: '=' :: ' ' :: ((toString item.ordinal).toList ++ closing closed))
    rw [later, List.tail_cons, if_pos (.inl equals)]
    have quoted : labelQuote ∈ tail ++ labelQuote :: ' ' :: '=' :: ' ' ::
        ((toString item.ordinal).toList ++ closing closed) :=
      List.mem_append_right tail List.mem_cons_self
    exact parseSigned_eq_none (mem_trim_of_mem quoted rfl) rfl rfl
  · rw [dropWhile_ne_absent (equals_mem_writtenLabel.not.mpr equals)]
    show parseSigned 64 (trim (' ' :: _)) = _
    rw [parseSigned_ordinal fits]
    simp only [equals, false_or]

/-- The lookup in the pieces of a member list reads the members one by one. -/
theorem enumMemberIn_pieces {members : List EnumMember}
    (fits : ∀ item ∈ members, -2 ^ 63 ≤ item.ordinal ∧ item.ordinal < 2 ^ 63) {opening : Text}
    (opens : '=' ∉ opening) (closed : Bool) (label : Text) :
    enumMemberIn label (memberPieces (closing closed) opening members) =
      firstRead closed label opening members := by
  induction members generalizing opening with
  | nil =>
      have absent : '=' ∉ opening ++ closing closed := by
        rw [List.mem_append, not_or]
        refine ⟨opens, ?_⟩
        cases closed <;> decide
      rw [memberPieces, enumMemberIn, splitOnce_absent absent, firstRead]
  | cons item rest ih =>
      have ⟨itemFits, restFit⟩ := List.forall_mem_cons.mp fits
      cases rest with
      | nil =>
          obtain ⟨after, split, number⟩ := splitOnce_member itemFits opens closed
          rw [memberPieces, enumMemberIn, split, firstRead]
          simp only [number, labelRead, enumMemberIn, firstRead, List.isEmpty_nil, Bool.and_true]
      | cons next rest =>
          obtain ⟨after, split, number⟩ := splitOnce_member itemFits opens false
          rw [show closing false = [] from rfl, List.append_nil] at split
          have later := ih restFit (show '=' ∉ [' '] by decide)
          rw [memberPieces, enumMemberIn, split, firstRead]
          · simp only [number, labelRead, later, List.isEmpty_cons, Bool.and_false]
          · simp

namespace EnumDefinition

variable (definition : EnumDefinition)

theorem fits {item : EnumMember} (member : item ∈ definition.members) :
    -2 ^ 63 ≤ item.ordinal ∧ item.ordinal < 2 ^ 63 := by
  have bounds := definition.inRange item member
  cases width : definition.width <;> rw [width] at bounds <;>
    simp only [EnumWidth.bytes] at bounds <;> omega

/-- The text between the outer parentheses of a column's type. -/
theorem extractParens_columnType (nullable : Bool) :
    ParsedType.extractParens (definition.columnType nullable) =
      some (definition.opening nullable ++ (definition.memberList ++ closing nullable)) := by
  cases nullable with
  | false =>
      have plain : '(' ∉ definition.width.name := by cases definition.width <;> decide
      have inner := @ParsedType.extractParens_eq _ definition.memberList [] plain (by simp)
      simpa [columnType, typeName, opening, closing] using inner
  | true =>
      have inner := @ParsedType.extractParens_eq "Nullable".toList definition.typeName []
        (by decide) (by simp)
      simpa [columnType, typeName, opening, closing] using inner

theorem isOutside_opening (nullable : Bool) : IsOutside (definition.opening nullable) := by
  cases nullable with
  | false => exact isOutside_nil
  | true =>
      rw [opening, if_pos rfl]
      cases definition.width
      all_goals
        repeat
          apply isOutside_cons
          · decide
        exact isOutside_nil

theorem isOutside_closing (closed : Bool) : IsOutside (closing closed) := by
  cases closed
  · exact isOutside_nil
  · exact isOutside_cons (by decide) isOutside_nil

/-- The lookup finds what is read first. -/
theorem enumMemberValue_eq (nullable : Bool) (label : Text) :
    enumMemberValue (definition.columnType nullable) (String.ofList label) =
      firstRead nullable label (definition.opening nullable) definition.members := by
  have unequal : '=' ∉ definition.opening nullable := by
    cases nullable with
    | false => exact List.not_mem_nil
    | true =>
        rw [opening, if_pos rfl]
        cases definition.width <;> decide
  rw [enumMemberValue, extractParens_columnType, Option.bind_some, memberList,
    splitEnumMembers_members (definition.isOutside_opening nullable) (isOutside_closing nullable),
    enumMemberIn_pieces (fun item member => definition.fits member) unequal, String.toList_ofList]

end EnumDefinition

theorem intLe_inj {width : Nat} (positive : 0 < width) {first second : Int}
    (fits : -2 ^ (8 * width - 1) ≤ first ∧ first < 2 ^ (8 * width - 1))
    (fits' : -2 ^ (8 * width - 1) ≤ second ∧ second < 2 ^ (8 * width - 1)) :
    intLe width first = intLe width second ↔ first = second := by
  constructor
  · intro same
    have words : BitVec.ofInt (8 * width) first = BitVec.ofInt (8 * width) second := by
      apply BitVec.eq_of_toNat_eq
      have read := congrArg leNat same
      rwa [intLe, intLe, scalarBytes, scalarBytes, leNat_natLe_of_lt, leNat_natLe_of_lt] at read
      · rw [← two_pow_eight_mul]
        exact BitVec.isLt _
      · rw [← two_pow_eight_mul]
        exact BitVec.isLt _
    have numbers := congrArg BitVec.toInt words
    rwa [BitVec.toInt_ofInt_eq_self (by omega) fits.1 fits.2,
      BitVec.toInt_ofInt_eq_self (by omega) fits'.1 fits'.2] at numbers
  · rintro rfl
    rfl

namespace EnumDefinition

variable (definition : EnumDefinition)

/-- A column's type is parsed as the enum, with its whole text. -/
theorem parse_columnType (nullable : Bool) :
    ParsedType.parse (String.ofList (definition.columnType nullable)) =
      .plain {
        raw := definition.columnType nullable
        nullable := nullable
        base := definition.width.name
        tag := definition.width.tag } := by
  have trimmed : trim (definition.columnType nullable) = definition.columnType nullable := by
    have called {first : Char} (visible : isWhitespace first = false) (name inner : Text) :
        trim (first :: (name ++ '(' :: (inner ++ [')']))) =
          first :: (name ++ '(' :: (inner ++ [')'])) := by
      have whole := @trim_eq_self_of_ends first (name ++ '(' :: inner) [')'] visible
        (List.cons_ne_nil _ _) (List.forall_mem_singleton.mpr rfl)
      simpa using whole
    cases nullable with
    | false =>
        rw [columnType, typeName]
        cases definition.width <;> exact called rfl _ _
    | true => exact called rfl "ullable".toList _
  have core : ParsedType.unwrap (definition.columnType nullable) =
      ⟨nullable, false, definition.typeName⟩ := by
    have bare (rounds : Nat) (nullable : Bool) :
        ParsedType.unwrapWithin (rounds + 1) nullable false definition.typeName =
          ⟨nullable, false, definition.typeName⟩ := by
      rw [typeName]
      cases definition.width <;> rfl
    cases nullable with
    | false =>
        obtain ⟨rounds, long⟩ : ∃ rounds, definition.typeName.length = rounds + 1 :=
          ⟨_, by rw [typeName, List.length_append, List.length_cons, ← Nat.add_assoc]⟩
        rw [ParsedType.unwrap, show definition.columnType false =
          definition.typeName from rfl, long]
        exact bare rounds false
    | true =>
        have taken : ParsedType.extractWrapper (definition.columnType true) "Nullable" =
            some definition.typeName := ParsedType.extractWrapper_eq_some_iff.mpr rfl
        obtain ⟨rounds, long⟩ : ∃ rounds, (definition.columnType true).length = rounds + 1 + 1 :=
          ⟨definition.typeName.length + 8, by simp [columnType]⟩
        rw [ParsedType.unwrap, long, ParsedType.unwrapWithin, taken]
        exact bare rounds true
  rw [ParsedType.parse, String.toList_ofList, ParsedType.parseText_eq, trimmed, core]
  simp only
  rw [show definition.typeName = definition.width.name ++ '(' :: (definition.memberList ++ [')'])
    from rfl]
  generalize definition.columnType nullable = raw
  generalize definition.memberList = inner
  cases definition.width <;> rfl

/-- The discriminant of a label is the number that is read for it. -/
theorem enumDiscriminant_eq (nullable : Bool) (label : Text) (col : String) :
    enumDiscriminant (.string (String.ofList label)) (definition.columnType nullable) col =
      orErr col "enum string not found in type definition"
        (definition.numberRead nullable label) := by
  rw [enumDiscriminant, parseSignedText, String.toList_ofList, numberRead, enumMemberValue_eq]
  cases parseSigned 64 (trim label) <;> rfl

/-- What is written for a label is the number read for it, when that fits. -/
theorem writes_label_iff {json : JsonText} {col : String} {nullable : Bool} {label : Text}
    {bytes : Bytes} :
    Writer.Writes (encodeValue json col
        (ParsedType.parse (String.ofList (definition.columnType nullable)))
        (.string (String.ofList label))) bytes ↔
      ∃ number, definition.numberRead nullable label = some number ∧
        (-2 ^ (8 * definition.width.bytes - 1) ≤ number ∧
          number < 2 ^ (8 * definition.width.bytes - 1)) ∧
        bytes = (if nullable then [0] else []) ++ intLe definition.width.bytes number := by
  have scalar (cell : Bytes) : scalarCell json {
        raw := definition.columnType nullable
        nullable := nullable
        base := definition.width.name
        tag := definition.width.tag } (.string (String.ofList label)) col = .ok cell ↔
      ∃ number, definition.numberRead nullable label = some number ∧
        (-2 ^ (8 * definition.width.bytes - 1) ≤ number ∧
          number < 2 ^ (8 * definition.width.bytes - 1)) ∧
        cell = intLe definition.width.bytes number := by
    have arm : ∃ message, scalarCell json {
        raw := definition.columnType nullable
        nullable := nullable
        base := definition.width.name
        tag := definition.width.tag } (.string (String.ofList label)) col =
          checked definition.width.bytes (enumDiscriminant (.string (String.ofList label))
            (definition.columnType nullable) col) fitsSigned col message := by
      cases definition.width
      · exact ⟨_, rfl⟩
      · exact ⟨_, rfl⟩
    obtain ⟨message, arm⟩ := arm
    rw [arm, enumDiscriminant_eq]
    cases definition.numberRead nullable label with
    | none => exact iff_of_false (fun same => nomatch same) fun ⟨_, impossible, _⟩ =>
      nomatch impossible
    | some number =>
        rw [orErr, checked_ok_iff]
        simp
  rw [parse_columnType, encodeValue]
  cases nullable with
  | false =>
      show Writer.Writes (Writer.ofExcept _ >>= _) bytes ↔ _
      rw [Writer.writes_ofExcept_bind_iff]
      simp only [Writer.writes_put_iff, scalar, Bool.false_eq_true, if_false, List.nil_append]
      constructor
      · rintro ⟨cell, ⟨number, read, fits, rfl⟩, rfl⟩
        exact ⟨number, read, fits, rfl⟩
      · rintro ⟨number, read, fits, rfl⟩
        exact ⟨_, ⟨number, read, fits, rfl⟩, rfl⟩
  | true =>
      show Writer.Writes (Writer.put [0] >>= fun _ => Writer.ofExcept _ >>= _) bytes ↔ _
      rw [Writer.writes_put_bind_iff]
      simp only [Writer.writes_ofExcept_bind_iff, Writer.writes_put_iff, scalar, if_true]
      constructor
      · rintro ⟨rest, ⟨cell, ⟨number, read, fits, rfl⟩, rfl⟩, rfl⟩
        exact ⟨number, read, fits, rfl⟩
      · rintro ⟨number, read, fits, rfl⟩
        exact ⟨_, ⟨_, ⟨number, read, fits, rfl⟩, rfl⟩, rfl⟩

/-- A label is written as its declared number exactly when that is the number read for it. -/
theorem writes_declared_iff (json : JsonText) (col : String) (nullable : Bool)
    {item : EnumMember} (member : item ∈ definition.members) :
    Writer.Writes (encodeValue json col
        (ParsedType.parse (String.ofList (definition.columnType nullable)))
        (.string (String.ofList item.label)))
      ((if nullable then [0] else []) ++ intLe definition.width.bytes item.ordinal) ↔
    definition.numberRead nullable item.label = some item.ordinal := by
  have positive : 0 < definition.width.bytes := by cases definition.width <;> decide
  have declared := definition.inRange item member
  rw [writes_label_iff]
  constructor
  · rintro ⟨number, read, fits, same⟩
    rw [List.append_cancel_left_eq, intLe_inj positive declared fits] at same
    rw [read, same]
  · intro read
    exact ⟨item.ordinal, read, declared, rfl⟩

end EnumDefinition

/-- A label that is written as itself, without equals signs and outer double quotes. -/
structure IsPlainLabel (label : Text) : Prop where
  unescaped : ∀ char ∈ label, escapeChar char = [char] ∧ char ≠ labelQuote ∧ char ≠ '='
  opens : ∀ char, label.head? = some char → char ≠ '"'
  closes : ∀ nonempty, label.getLast nonempty ≠ '"'

theorem writtenLabel_plain {label : Text} (plain : IsPlainLabel label) :
    writtenLabel label = label := by
  rw [writtenLabel, List.flatMap_congr fun char member => (plain.unescaped char member).1]
  exact List.flatMap_singleton' label

/-- Taking one kind of character off both ends of a text inside two such characters. -/
theorem trimMatches_enclosed {kind : Char → Bool} {outer : Char} (isKind : kind outer = true)
    {text : Text} (other : ∀ char ∈ text, kind char = false) :
    trimMatches kind (outer :: (text ++ [outer])) = text := by
  rw [trimMatches, List.dropWhile_cons_of_pos isKind]
  cases text with
  | nil =>
      rw [List.nil_append, List.dropWhile_cons_of_pos isKind]
      rfl
  | cons first rest =>
      have open' : ¬ kind first = true := Bool.eq_false_iff.mp (other first List.mem_cons_self)
      rw [List.cons_append, List.dropWhile_cons_of_neg open', ← List.cons_append, trimEndMatches,
        List.rdropWhile_concat_pos _ _ _ isKind, List.rdropWhile_eq_self_iff]
      intro nonempty
      exact Bool.eq_false_iff.mp (other _ (List.getLast_mem nonempty))

theorem unquote_plain {label : Text} (plain : IsPlainLabel label) :
    ParsedType.unquote (labelQuote :: (label ++ [labelQuote])) = label := by
  have visible : trim (labelQuote :: (label ++ [labelQuote])) =
      labelQuote :: (label ++ [labelQuote]) :=
    trim_eq_self_of_ends rfl (List.cons_ne_nil _ _) (List.forall_mem_singleton.mpr rfl)
  have unquoted : trimMatches (· == Char.ofNat 39)
      (labelQuote :: (label ++ [labelQuote])) = label :=
    trimMatches_enclosed rfl fun char member =>
      beq_eq_false_iff_ne.mpr (plain.unescaped char member).2.1
  have opened : label.dropWhile (· == '"') = label := by
    cases label with
    | nil => rfl
    | cons first rest => exact List.dropWhile_cons_of_neg (by simpa using plain.opens first rfl)
  rw [ParsedType.unquote, visible, unquoted, trimMatches, opened, trimEndMatches,
    List.rdropWhile_eq_self_iff]
  exact fun nonempty => by simpa using plain.closes nonempty

theorem labelRead_plain {item : EnumMember} (plain : IsPlainLabel item.label) {opening : Text}
    (blank : opening = [] ∨ opening = [' ']) : labelRead opening item = item.label := by
  have before : (opening ++ item.text).takeWhile (· ≠ '=') =
      opening ++ labelQuote :: (item.label ++ [labelQuote]) ++ [' '] := by
    have absent : ∀ char ∈ opening ++ labelQuote :: (item.label ++ [labelQuote]) ++ [' '],
        decide (char ≠ '=') = true := by
      rw [List.forall_mem_append, List.forall_mem_append, List.forall_mem_cons,
        List.forall_mem_append, List.forall_mem_singleton, List.forall_mem_singleton]
      refine ⟨⟨?_, rfl, fun char member => ?_, rfl⟩, rfl⟩
      · rcases blank with rfl | rfl <;> simp
      · exact decide_eq_true (plain.unescaped char member).2.2
    have split : opening ++ item.text = opening ++ labelQuote :: (item.label ++ [labelQuote]) ++
        [' '] ++ '=' :: ' ' :: (toString item.ordinal).toList := by
      simp [EnumMember.text, writtenLabel_plain plain]
    rw [split, List.takeWhile_append_of_pos absent, List.takeWhile_cons_of_neg (by decide),
      List.append_nil]
  have spaced : trim (opening ++ labelQuote :: (item.label ++ [labelQuote]) ++ [' ']) =
      trim (labelQuote :: (item.label ++ [labelQuote])) := by
    have ended (text : Text) :
        trim (labelQuote :: (text ++ [' '])) = trim (labelQuote :: text) := by
      rw [trim, trimMatches, trim, trimMatches, List.dropWhile_cons_of_neg (by decide),
        List.dropWhile_cons_of_neg (by decide), ← List.cons_append, trimEndMatches,
        List.rdropWhile_concat_pos _ _ _ (by decide)]
      rfl
    rcases blank with rfl | rfl
    · exact ended _
    · exact ended _
  rw [labelRead, before, ParsedType.unquote, spaced]
  exact unquote_plain plain

theorem firstRead_plain {members : List EnumMember}
    (plain : ∀ item ∈ members, IsPlainLabel item.label)
    (distinct : (members.map EnumMember.label).Nodup) {opening : Text}
    (blank : opening = [] ∨ opening = [' ']) {item : EnumMember} (member : item ∈ members) :
    firstRead false item.label opening members = some item.ordinal := by
  induction members generalizing opening with
  | nil => cases member
  | cons first rest ih =>
      have ⟨firstPlain, restPlain⟩ := List.forall_mem_cons.mp plain
      rw [List.map_cons, List.nodup_cons] at distinct
      rw [firstRead, labelRead_plain firstPlain blank]
      rcases List.mem_cons.mp member with rfl | later
      · have unequal : '=' ∉ item.label := fun equals =>
          (firstPlain.unescaped '=' equals).2.2 rfl
        rw [if_pos rfl, ordinalRead, Bool.false_and, if_neg (by simpa using unequal)]
      · have other : first.label ≠ item.label := fun same =>
          distinct.1 (same ▸ List.mem_map_of_mem later)
        rw [if_neg other]
        exact ih restPlain distinct.2 (.inr rfl) later

/-- In a column that is not nullable, plain labels that are no numbers are read as declared. -/
theorem EnumDefinition.numberRead_plain (definition : EnumDefinition)
    (plain : ∀ item ∈ definition.members, IsPlainLabel item.label) {item : EnumMember}
    (member : item ∈ definition.members) (word : parseSigned 64 (trim item.label) = none) :
    definition.numberRead false item.label = some item.ordinal := by
  rw [numberRead, word]
  exact firstRead_plain plain definition.distinct (.inl rfl) member

def openState : EnumMember := ⟨"open".toList, 1⟩

def shutState : EnumMember := ⟨"shut".toList, 2⟩

def doorStates : EnumDefinition where
  width := .enum8
  members := [openState, shutState]
  distinct := by decide
  inRange := by decide

def noJson : JsonText := ⟨fun _ => "", fun _ => ""⟩

/-- The shut door is written as its number. -/
theorem writes_declared_door :
    Writer.Writes (encodeValue noJson "door"
        (ParsedType.parse (String.ofList (doorStates.columnType false)))
        (.string "shut"))
      [2] := by
  have member : shutState ∈ doorStates.members :=
    List.mem_cons_of_mem openState List.mem_cons_self
  exact (doorStates.writes_declared_iff noJson "door" false member).mpr (by decide +kernel)

theorem numberRead_open : doorStates.numberRead true openState.label = none := by decide +kernel

/-- In a nullable column the first label of the door is not found. -/
theorem writes_declared_fails_nullable :
    openState ∈ doorStates.members ∧
      ¬ Writer.Writes (encodeValue noJson "door"
          (ParsedType.parse (String.ofList (doorStates.columnType true)))
          (.string (String.ofList openState.label)))
        ((if true then [0] else []) ++ intLe doorStates.width.bytes openState.ordinal) := by
  refine ⟨List.mem_cons_self, fun writes => ?_⟩
  obtain ⟨number, read, -⟩ := doorStates.writes_label_iff.mp writes
  rw [numberRead_open] at read
  cases read

end DfeClickhouse.Dynamic
