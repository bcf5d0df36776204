import DfeClickhouse.Library.Text

/-!
# Types of the dynamic encoder

`ParsedType::parse` reads a type string for the dynamic encoder.  It never fails:
a text it does not recognise becomes an unknown type.  Wrappers are collapsed into
flags, and only arrays and maps have types below them.
-/

namespace DfeClickhouse.Dynamic

open Library

/-- The kind of a base type. -/
inductive TypeTag
  | string
  | fixedString
  | uInt8
  | uInt16
  | uInt32
  | uInt64
  | uInt128
  | uInt256
  | int8
  | int16
  | int32
  | int64
  | int128
  | int256
  | float32
  | float64
  | bool
  | date
  | date32
  | dateTime
  | dateTime64
  | decimal32
  | decimal64
  | decimal128
  | decimal256
  | uuid
  | iPv4
  | iPv6
  | enum8
  | enum16
  | array
  | map
  | point
  | json
  | variant
  | dynamic
  | unknown
  deriving DecidableEq, Repr

/-- The base type names and their tags. -/
def baseTags : List (String × TypeTag) :=
  [("String", .string), ("FixedString", .fixedString), ("UInt8", .uInt8), ("UInt16", .uInt16),
    ("UInt32", .uInt32), ("UInt64", .uInt64), ("UInt128", .uInt128), ("UInt256", .uInt256),
    ("Int8", .int8), ("Int16", .int16), ("Int32", .int32), ("Int64", .int64),
    ("Int128", .int128), ("Int256", .int256), ("Float32", .float32), ("Float64", .float64),
    ("Bool", .bool), ("Date", .date), ("Date32", .date32), ("DateTime", .dateTime),
    ("DateTime64", .dateTime64), ("Decimal32", .decimal32), ("Decimal64", .decimal64),
    ("Decimal128", .decimal128), ("Decimal256", .decimal256), ("UUID", .uuid),
    ("IPv4", .iPv4), ("IPv6", .iPv6), ("Enum8", .enum8), ("Enum16", .enum16),
    ("Array", .array), ("Map", .map), ("Point", .point), ("JSON", .json), ("Object", .json),
    ("Variant", .variant), ("Dynamic", .dynamic)]

/-- Resolve a base type name to its tag. -/
def TypeTag.fromBase (base : Text) : TypeTag :=
  ((baseTags.find? fun entry => entry.1.toList == base).map Prod.snd).getD .unknown

/-- What is known of a type besides the types below it. -/
structure TypeInfo where
  /-- The type string, trimmed. -/
  raw : Text
  base : Text := []
  tag : TypeTag := .unknown
  nullable : Bool := false
  lowCardinality : Bool := false
  precision : Option Nat := none
  scale : Option Nat := none
  timezone : Option Text := none
  fixedSize : Option Nat := none
  deriving DecidableEq, Repr

/-- A parsed type; only arrays and maps have types below them. -/
inductive ParsedType
  | plain (info : TypeInfo)
  | array (info : TypeInfo) (element : ParsedType)
  | map (info : TypeInfo) (key value : ParsedType)
  deriving DecidableEq, Repr

namespace ParsedType

def info : ParsedType → TypeInfo
  | plain info | array info _ | map info _ _ => info

/-- The contents of `Wrapper(...)`. -/
def extractWrapper (text : Text) (wrapper : String) : Option Text := do
  let rest ← text.dropPrefix? wrapper.toList
  let rest ← rest.dropPrefix? ['(']
  rest.dropSuffix? [')']

/-- The text between the first opening and the last closing parenthesis. -/
def extractParens (text : Text) : Option Text :=
  match text.dropWhile (· ≠ '(') with
  | [] => none
  | _ :: rest =>
      match rest.reverse.dropWhile (· ≠ ')') with
      | [] => none
      | _ :: inner => some inner.reverse

def startsWith (text : Text) (opening : String) : Bool :=
  (text.dropPrefix? opening.toList).isSome

def parseDecimalBase (text : Text) : Text :=
  if startsWith text "Decimal256" then "Decimal256".toList
  else if startsWith text "Decimal128" then "Decimal128".toList
  else if startsWith text "Decimal64" then "Decimal64".toList
  else if startsWith text "Decimal32" then "Decimal32".toList
  else "Decimal".toList

/-- The loop of `splitTypeArgs`: the current depth, which may fall below zero, and the
reversed characters before. -/
def splitTypeArgsFrom (depth : Int) (current : Text) : Text → Option (Text × Text)
  | [] => none
  | char :: rest =>
      if char = '(' then splitTypeArgsFrom (depth + 1) (char :: current) rest
      else if char = ')' then splitTypeArgsFrom (depth - 1) (char :: current) rest
      else if char = ',' ∧ depth = 0 then some (trim current.reverse, trim rest)
      else splitTypeArgsFrom depth (char :: current) rest

/-- Split two type arguments at the first comma outside of parentheses. -/
def splitTypeArgs (inner : Text) : Option (Text × Text) :=
  splitTypeArgsFrom 0 [] inner

/-- A quoted name without its quotes. -/
def unquote (text : Text) : Text :=
  trimMatches (· == '"') (trimMatches (· == Char.ofNat 39) (trim text))

/-- A number that fits a byte. -/
def parseU8 (text : Text) : Option Nat :=
  parseUnsigned 8 (trim text)

/-- The flags of the wrappers of a type, and the text inside them. -/
structure Unwrapped where
  nullable : Bool
  lowCardinality : Bool
  core : Text

/-- The loop that takes wrappers off, with a bound on its rounds. -/
def unwrapWithin : Nat → Bool → Bool → Text → Unwrapped
  | 0, nullable, lowCardinality, text => ⟨nullable, lowCardinality, text⟩
  | rounds + 1, nullable, lowCardinality, text =>
      match extractWrapper text "Nullable" with
      | some inner => unwrapWithin rounds true lowCardinality inner
      | none =>
          match extractWrapper text "LowCardinality" with
          | some inner => unwrapWithin rounds nullable true inner
          | none => ⟨nullable, lowCardinality, text⟩

/-- Take all wrappers off; every one of them shortens the text. -/
def unwrap (text : Text) : Unwrapped :=
  unwrapWithin text.length false false text

/-- `DateTime64(precision, 'timezone')`, or anything else that opens so. -/
def dateTime64Info (info : TypeInfo) (core : Text) : TypeInfo :=
  let info := { info with base := "DateTime64".toList, tag := .dateTime64 }
  match extractWrapper core "DateTime64" with
  | some inner =>
      match splitOnce inner [','] with
      | some (first, second) =>
          { info with precision := parseU8 first, timezone := some (unquote second) }
      | none => { info with precision := parseU8 inner }
  | none => info

/-- `Decimal(P, S)` or a decimal of a given width. -/
def decimalInfo (info : TypeInfo) (core : Text) : TypeInfo :=
  let base := parseDecimalBase core
  let info := { info with base := base, tag := .fromBase base }
  match (extractParens core).map (List.splitOn ',') with
  | some [precision, scale] =>
      { info with precision := parseU8 precision, scale := parseU8 scale }
  | some [scale] => { info with scale := parseU8 scale }
  | _ => info

/-- The branches without a type below, in the order of the source. -/
def plainInfo (info : TypeInfo) (core : Text) : TypeInfo :=
  if startsWith core "DateTime64" then
    dateTime64Info info core
  else if let some zone := extractWrapper core "DateTime" then
    { info with base := "DateTime".toList, tag := .dateTime, timezone := some (unquote zone) }
  else if let some size := extractWrapper core "FixedString" then
    { info with
      base := "FixedString".toList
      tag := .fixedString
      fixedSize := parseUnsigned 64 (trim size) }
  else if startsWith core "Decimal" then
    decimalInfo info core
  else if startsWith core "Enum8" then
    { info with base := "Enum8".toList, tag := .enum8 }
  else if startsWith core "Enum16" then
    { info with base := "Enum16".toList, tag := .enum16 }
  else if startsWith core "Variant(" then
    { info with base := "Variant".toList, tag := .variant }
  else if core = "Dynamic".toList ∨ startsWith core "Dynamic(" then
    { info with base := "Dynamic".toList, tag := .dynamic }
  else
    { info with base := core, tag := .fromBase core }

/-- The type of an unwrapped text; `nested` parses the texts below it. -/
def parseCore (nested : Text → ParsedType) (info : TypeInfo) (core : Text) : ParsedType :=
  match extractWrapper core "Array" with
  | some inner =>
      .array { info with base := "Array".toList, tag := .array } (nested inner)
  | none =>
      match (extractWrapper core "Map").bind splitTypeArgs with
      | some (key, value) =>
          .map { info with base := "Map".toList, tag := .map } (nested key) (nested value)
      | none => .plain (plainInfo info core)

/-- The parser with a bound on its nested calls. -/
def parseWithin : Nat → Text → ParsedType
  | 0, text => .plain { raw := trim text }
  | calls + 1, text =>
      let text := trim text
      let unwrapped := unwrap text
      parseCore (parseWithin calls)
        { raw := text
          nullable := unwrapped.nullable
          lowCardinality := unwrapped.lowCardinality }
        unwrapped.core

/-- Parse a type string, character by character.  Every nested text is shorter than the
text it is cut from, so the bound is never reached. -/
def parseText (text : Text) : ParsedType :=
  parseWithin (text.length + 1) text

theorem extractWrapper_eq_some_iff {text inner : Text} {wrapper : String} :
    extractWrapper text wrapper = some inner ↔
      text = wrapper.toList ++ '(' :: (inner ++ [')']) := by
  constructor
  · intro stripped
    obtain ⟨afterName, named, stripped⟩ := Option.bind_eq_some_iff.mp stripped
    obtain ⟨afterParen, opened, closed⟩ := Option.bind_eq_some_iff.mp stripped
    obtain ⟨front, rfl, same⟩ := List.dropPrefix?_eq_some_iff.mp named
    obtain ⟨paren, rfl, sameParen⟩ := List.dropPrefix?_eq_some_iff.mp opened
    obtain ⟨back, rfl, sameBack⟩ := List.dropSuffix?_eq_some_iff.mp closed
    rw [eq_of_beq same, eq_of_beq sameParen, eq_of_beq sameBack]
    rfl
  · rintro rfl
    apply Option.bind_eq_some_iff.mpr
    refine ⟨_, List.dropPrefix?_eq_some_iff.mpr ⟨_, rfl, beq_self_eq_true _⟩, ?_⟩
    apply Option.bind_eq_some_iff.mpr
    refine ⟨_, List.dropPrefix?_eq_some_iff.mpr ⟨['('], rfl, beq_self_eq_true _⟩, ?_⟩
    exact List.dropSuffix?_eq_some_iff.mpr ⟨_, rfl, beq_self_eq_true _⟩

theorem extractParens_eq {name arguments filler : Text} (plain : '(' ∉ name)
    (open' : ')' ∉ filler) :
    extractParens (name ++ '(' :: (arguments ++ ')' :: filler)) = some arguments := by
  have back : (arguments ++ ')' :: filler).reverse.dropWhile (· ≠ ')') =
      ')' :: arguments.reverse := by
    rw [List.reverse_append, List.reverse_cons, List.append_assoc]
    exact dropWhile_ne_append (by simpa using open') arguments.reverse
  rw [extractParens, dropWhile_ne_append plain]
  simp only [back, List.reverse_reverse]

theorem length_of_extractWrapper {text inner : Text} {wrapper : String}
    (found : extractWrapper text wrapper = some inner) : inner.length < text.length := by
  rw [extractWrapper_eq_some_iff.mp found]
  simp only [List.length_append, List.length_cons]
  omega

theorem length_unwrapWithin_le (rounds : Nat) (nullable lowCardinality : Bool) (text : Text) :
    (unwrapWithin rounds nullable lowCardinality text).core.length ≤ text.length := by
  induction rounds generalizing nullable lowCardinality text with
  | zero => exact Nat.le_refl _
  | succ rounds ih =>
      rw [unwrapWithin]
      split
      · rename_i inner found
        exact Nat.le_trans (ih ..) (Nat.le_of_lt (length_of_extractWrapper found))
      · split
        · rename_i inner found
          exact Nat.le_trans (ih ..) (Nat.le_of_lt (length_of_extractWrapper found))
        · exact Nat.le_refl _

/-- The two arguments are the trimmed texts around a comma. -/
theorem exists_of_splitTypeArgsFrom {depth : Int} {current text first second : Text}
    (split : splitTypeArgsFrom depth current text = some (first, second)) :
    ∃ before after, current.reverse ++ text = before ++ ',' :: after ∧ first = trim before ∧
      second = trim after := by
  induction text generalizing depth current with
  | nil => cases split
  | cons char text ih =>
      have deeper {depth : Int} (split : splitTypeArgsFrom depth (char :: current) text =
          some (first, second)) :
          ∃ before after, current.reverse ++ char :: text = before ++ ',' :: after ∧
            first = trim before ∧ second = trim after := by
        simpa using ih split
      rw [splitTypeArgsFrom] at split
      split at split
      · exact deeper split
      · split at split
        · exact deeper split
        · split at split
          · rename_i comma
            cases split
            exact ⟨current.reverse, text, by rw [comma.1], rfl, rfl⟩
          · exact deeper split

theorem exists_of_splitTypeArgs {inner first second : Text}
    (split : splitTypeArgs inner = some (first, second)) :
    ∃ before after, inner = before ++ ',' :: after ∧ first = trim before ∧
      second = trim after :=
  exists_of_splitTypeArgsFrom split

theorem parseCore_congr {first second : Text → ParsedType} {core : Text} (info : TypeInfo)
    (same : ∀ argument : Text, argument.length < core.length → first argument = second argument) :
    parseCore first info core = parseCore second info core := by
  unfold parseCore
  split
  · rename_i inner found
    rw [same inner (length_of_extractWrapper found)]
  · split
    · rename_i key value found
      obtain ⟨inner, stripped, split⟩ := Option.bind_eq_some_iff.mp found
      obtain ⟨before, after, rfl, rfl, rfl⟩ := exists_of_splitTypeArgs split
      have shorter := length_of_extractWrapper stripped
      have keyLength := length_trim_le before
      have valueLength := length_trim_le after
      simp only [List.length_append, List.length_cons] at shorter
      rw [same _ (by omega), same _ (by omega)]
    · rfl

theorem parseWithin_eq {calls calls' : Nat} {text : Text} (enough : text.length < calls)
    (enough' : text.length < calls') : parseWithin calls text = parseWithin calls' text := by
  induction calls generalizing calls' text with
  | zero => omega
  | succ calls ih =>
      cases calls' with
      | zero => omega
      | succ calls' =>
          have trimmed := length_trim_le text
          have unwrapped : (unwrap (trim text)).core.length ≤ (trim text).length :=
            length_unwrapWithin_le ..
          exact parseCore_congr _ fun argument short => ih (by omega) (by omega)

/-- The parser without its bound: the wrappers, then one branch, continued by nested
calls. -/
theorem parseText_eq (text : Text) :
    parseText text = parseCore parseText
      { raw := trim text
        nullable := (unwrap (trim text)).nullable
        lowCardinality := (unwrap (trim text)).lowCardinality }
      (unwrap (trim text)).core := by
  have trimmed := length_trim_le text
  have unwrapped : (unwrap (trim text)).core.length ≤ (trim text).length :=
    length_unwrapWithin_le ..
  exact parseCore_congr _ fun argument short => parseWithin_eq (by omega) (by omega)

/-- Parse a type string. -/
def parse (typeStr : String) : ParsedType :=
  parseText typeStr.toList

/-- The byte widths of fixed-width base types. -/
def baseWidths : List (String × Nat) :=
  [("UInt8", 1), ("Int8", 1), ("Bool", 1), ("Enum8", 1), ("UInt16", 2), ("Int16", 2),
    ("Enum16", 2), ("Date", 2), ("UInt32", 4), ("Int32", 4), ("Date32", 4), ("DateTime", 4),
    ("Float32", 4), ("Decimal32", 4), ("IPv4", 4), ("UInt64", 8), ("Int64", 8),
    ("Float64", 8), ("Decimal64", 8), ("DateTime64", 8), ("Int128", 16), ("UInt128", 16),
    ("Decimal128", 16), ("UUID", 16), ("IPv6", 16), ("Int256", 32), ("UInt256", 32),
    ("Decimal256", 32)]

/-- Byte size of a fixed-width type. -/
def fixedByteSize (info : TypeInfo) : Option Nat :=
  if info.base = "FixedString".toList then info.fixedSize
  else (baseWidths.find? fun entry => entry.1.toList == info.base).map Prod.snd

end ParsedType

end DfeClickhouse.Dynamic
