import DfeClickhouse.Library.Text
import DfeClickhouse.Native.ColumnType

/-!
# Type names

`ColumnType::parse` reads a server-announced type name.  The branches of the
source are listed by `typeForm`, which says for one text either the result or
the argument texts that go to nested calls; `parse` closes the recursion.
-/

namespace DfeClickhouse.Native

open Library

/-- Upper bound on the parenthesis depth of an accepted type name. -/
def maxTypeParseDepth : Nat := 32

/-- Strip a `TypeName(` prefix and its `)` suffix, returning the contents. -/
def stripOuter (text : Text) (name : String) : Option Text := do
  let rest ← text.dropPrefix? name.toList
  let rest ← rest.dropPrefix? ['(']
  rest.dropSuffix? [')']

/-- Nesting depth after one more character; closing saturates at zero. -/
def parenDepthAfter (depth : Nat) (char : Char) : Nat :=
  if char = '(' then depth + 1
  else if char = ')' then depth - 1
  else depth

/-- The deepest nesting a text reaches from a starting depth. -/
def maxParenDepthFrom (depth deepest : Nat) : Text → Nat
  | [] => deepest
  | char :: rest =>
      let depth := parenDepthAfter depth char
      maxParenDepthFrom depth (max deepest depth) rest

/-- Maximum parenthesis nesting depth of a text. -/
def maxParenDepth (text : Text) : Nat :=
  maxParenDepthFrom 0 0 text

/-- The loop of `splitTypeArgs`: the current depth and the reversed characters
since the last separator. -/
def splitTypeArgsFrom (depth : Nat) (current : Text) : Text → List Text
  | [] =>
      let tail := trim current.reverse
      if tail.isEmpty then [] else [tail]
  | char :: rest =>
      if char = ',' ∧ depth = 0 then
        trim current.reverse :: splitTypeArgsFrom depth [] rest
      else
        splitTypeArgsFrom (parenDepthAfter depth char) (char :: current) rest

/-- Split a comma-separated argument list at parenthesis depth zero; an empty
last argument is left out. -/
def splitTypeArgs (text : Text) : List Text :=
  splitTypeArgsFrom 0 [] text

/-- The loop of `findFirstCommaAtDepth0`. -/
def findFirstCommaFrom (depth index : Nat) : Text → Option Nat
  | [] => none
  | char :: rest =>
      if char = ',' ∧ depth = 0 then
        some index
      else
        findFirstCommaFrom (parenDepthAfter depth char) (index + 1) rest

/-- Find the offset of the first comma at parenthesis depth zero. -/
def findFirstCommaAtDepth0 (text : Text) : Option Nat :=
  findFirstCommaFrom 0 0 text

/-- What the parser does with one text: it is done, or it parses argument texts
and builds a type from their types. -/
inductive TypeForm
  /-- The result, without a nested call. -/
  | done (result : Option ColumnType)
  /-- One nested call. -/
  | wrapped (build : ColumnType → ColumnType) (inner : Text)
  /-- A nested call for every argument, all of which must parse. -/
  | listed (build : List ColumnType → ColumnType) (arguments : List Text)
  /-- A nested call for the key and, if that parses, one for the value. -/
  | keyed (key value : Text)

/-- The type names without arguments. -/
def scalarTypes : List (String × ColumnType) :=
  [("Bool", .uInt8), ("UInt8", .uInt8), ("UInt16", .uInt16), ("UInt32", .uInt32),
    ("UInt64", .uInt64), ("Int8", .int8), ("Int16", .int16), ("Int32", .int32),
    ("Int64", .int64), ("Int128", .int128), ("UInt128", .uInt128), ("Int256", .int256),
    ("UInt256", .uInt256), ("Float32", .float32), ("Float64", .float64),
    ("BFloat16", .bFloat16), ("String", .string), ("UUID", .uuid), ("IPv4", .iPv4),
    ("IPv6", .iPv6), ("Date", .date), ("Date32", .date32), ("DateTime", .dateTime),
    ("Time", .time), ("JSON", .newJson), ("Dynamic", .dynamic), ("Object('json')", .json),
    ("Point", .point)]

/-- The type a name without arguments denotes. -/
def scalarType (text : Text) : Option ColumnType :=
  (scalarTypes.find? fun entry => entry.1.toList == text).map Prod.snd

/-- A byte-sized number, as `str::parse::<u8>` reads it after trimming. -/
def parseU8 (text : Text) : Option Nat :=
  parseUnsigned 8 (trim text)

/-- `DateTime64(precision)` or `DateTime64(precision, 'timezone')`. -/
def dateTime64Type (argumentText : Text) : ColumnType :=
  let arguments := splitTypeArgs argumentText
  let precision := ((arguments[0]?).bind parseU8).getD 0
  let timezone := ((arguments[1]?).map fun argument =>
    trimMatches (· == Char.ofNat 39) (trim argument)).filter fun text => !text.isEmpty
  .dateTime64 precision (timezone.map String.ofList)

/-- `Decimal(precision, scale)`, on the backing width its precision selects. -/
def decimalType (argumentText : Text) : Option ColumnType :=
  match splitTypeArgs argumentText with
  | [first, second] => do
      let precision ← parseU8 first
      let scale ← parseU8 second
      if precision ≤ 9 then
        return .decimal32 precision scale
      else if precision ≤ 18 then
        return .decimal64 precision scale
      else if precision ≤ 38 then
        return .decimal128 precision scale
      else
        return .decimal256 precision scale
  | _ => none

/-- Whether a text opens with a name. -/
def startsWith (text : Text) (opening : String) : Bool :=
  (text.dropPrefix? opening.toList).isSome

/-- The argument text of `SimpleAggregateFunction(func, T)`: what follows the
first comma at depth zero, less one closing parenthesis. -/
def simpleAggregateArgument (text : Text) : Option Text := do
  let rest ← text.dropPrefix? "SimpleAggregateFunction(".toList
  let comma ← findFirstCommaAtDepth0 rest
  let inner := trim (rest.drop (comma + 1))
  return (inner.dropSuffix? [')']).getD inner

/-- The branches that wrap one argument, in the order of the source; the
remaining ones are tried by `argumentForm`. -/
def typeForm (text : Text) : TypeForm :=
  if maxParenDepth text > maxTypeParseDepth then
    .done none
  else if let some inner := stripOuter text "Nullable" then
    .wrapped .nullable inner
  else if let some inner := stripOuter text "LowCardinality" then
    .wrapped .lowCardinality inner
  else if let some width := stripOuter text "FixedString" then
    .done ((parseUnsigned 64 width).map .fixedString)
  else if let some arguments := stripOuter text "DateTime64" then
    .done (some (dateTime64Type arguments))
  else if startsWith text "DateTime(" then
    .done (some .dateTime)
  else if startsWith text "Time64(" then
    .done (some .time64)
  else if let some scale := stripOuter text "Decimal32" then
    .done (some (.decimal32 9 ((parseU8 scale).getD 0)))
  else if let some scale := stripOuter text "Decimal64" then
    .done (some (.decimal64 18 ((parseU8 scale).getD 0)))
  else if let some scale := stripOuter text "Decimal128" then
    .done (some (.decimal128 38 ((parseU8 scale).getD 0)))
  else if let some scale := stripOuter text "Decimal256" then
    .done (some (.decimal256 76 ((parseU8 scale).getD 0)))
  else if let some arguments := stripOuter text "Decimal" then
    .done (decimalType arguments)
  else if startsWith text "Enum8(" then
    .done (some .enum8)
  else if startsWith text "Enum16(" then
    .done (some .enum16)
  else if let some inner := stripOuter text "Array" then
    .wrapped .array inner
  else if let some arguments := stripOuter text "Tuple" then
    .listed .tuple (splitTypeArgs arguments)
  else if let some arguments := stripOuter text "Map" then
    match splitTypeArgs arguments with
    | [key, value] => .keyed key value
    | _ => .done none
  else if startsWith text "SimpleAggregateFunction(" then
    match simpleAggregateArgument text with
    | some inner => .wrapped .simpleAggregateFunction inner
    | none => .done none
  else if let some arguments := stripOuter text "Variant" then
    .listed .variant (splitTypeArgs arguments)
  else if startsWith text "Dynamic(" then
    .done (some .dynamic)
  else
    .done (scalarType text)

/-- Continue a form with a parser for its argument texts. -/
def TypeForm.parseWith (nested : Text → Option ColumnType) : TypeForm → Option ColumnType
  | done result => result
  | wrapped build inner => (nested inner).map build
  | listed build arguments =>
      let fields := arguments.filterMap nested
      if fields ≠ [] ∧ fields.length = arguments.length then some (build fields) else none
  | keyed key value => do
      let key ← nested key
      let value ← nested value
      return .map key value

/-- The parser with a bound on its nested calls. -/
def parseWithin : Nat → Text → Option ColumnType
  | 0, _ => none
  | calls + 1, text => (typeForm (trim text)).parseWith (parseWithin calls)

/-- Parse a type name, character by character.  Every argument text is shorter
than the text it is cut from, so the bound is never reached. -/
def parseText (text : Text) : Option ColumnType :=
  parseWithin (text.length + 1) text

/-- Parse a type name. -/
def ColumnType.parse (typeStr : String) : Option ColumnType :=
  parseText typeStr.toList

end DfeClickhouse.Native
