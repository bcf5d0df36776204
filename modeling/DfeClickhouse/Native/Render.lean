import DfeClickhouse.Library.Binary64
import DfeClickhouse.Native.ColumnType
import DfeClickhouse.Native.Io

/-!
# Rendering cells as JSON

`rowbinary_to_json` turns one `RowBinary` cell into JSON text.  It renders the
values of `Variant`, `Dynamic` and `JSON` columns, which have no type of their
own on the Rust side.
-/

namespace DfeClickhouse.Native

open Library

/-- The text of a number in base sixteen, padded with zeros to `width`. -/
def hexText (width value : Nat) : String :=
  let digits := Nat.toDigits 16 value
  String.ofList (List.replicate (width - digits.length) '0' ++ digits)

/-- The text of a signed little-endian integer. -/
def signedText (bytes : Bytes) : String :=
  toString (BitVec.ofNat (8 * bytes.length) (leNat bytes)).toInt

/-- Join byte strings with commas between two brackets. -/
def bracketed (opening closing : String) (parts : List Bytes) : Bytes :=
  utf8 opening ++ (utf8 ",").intercalate parts ++ utf8 closing

/-- Format a float for JSON; NaN and infinity render as `null`. -/
def formatFloatJson (value : Binary64) : String :=
  if value.isNan || value.isInfinite then "null" else value.display

/-- One byte of a quoted JSON text. -/
def jsonQuoteByte (byte : UInt8) : Bytes :=
  if byte = 0x22 then [0x5C, 0x22]
  else if byte = 0x5C then [0x5C, 0x5C]
  else if byte = 0x0A then [0x5C, 0x6E]
  else if byte = 0x0D then [0x5C, 0x72]
  else if byte = 0x09 then [0x5C, 0x74]
  else if byte < 0x20 then [0x5C, 0x75] ++ utf8 (hexText 4 byte.toNat)
  else [byte]

/-- JSON-quote raw bytes. -/
def jsonQuoteBytes (bytes : Bytes) : Bytes :=
  [0x22] ++ bytes.flatMap jsonQuoteByte ++ [0x22]

/-- The dotted-quad text of an address. -/
def ipv4Text (address : Nat) : String :=
  toString (address / 2 ^ 24 % 256) ++ "." ++ toString (address / 2 ^ 16 % 256) ++ "." ++
    toString (address / 2 ^ 8 % 256) ++ "." ++ toString (address % 256)

/-- The first longest run of zero segments: its start and length. -/
def longestZeroRun : Nat → Nat × Nat → Nat × Nat → List Nat → Nat × Nat
  | _, _, longest, [] => longest
  | index, current, longest, segment :: rest =>
      if segment = 0 then
        let start := if current.2 = 0 then index else current.1
        let current := (start, current.2 + 1)
        longestZeroRun (index + 1) current
          (if current.2 > longest.2 then current else longest) rest
      else
        longestZeroRun (index + 1) (0, 0) longest rest

/-- Segments in base sixteen, separated by colons. -/
def segmentsText (segments : List Nat) : String :=
  ":".intercalate (segments.map fun segment => hexText 1 segment)

/-- The compressed text of sixteen network-order address bytes. -/
def ipv6Text (bytes : Bytes) : String :=
  let segments := (chunks 2 8 bytes).map fun pair => leNat pair.reverse
  if segments.take 5 = [0, 0, 0, 0, 0] ∧ segments[5]? = some 0xFFFF then
    "::ffff:" ++ ipv4Text (leNat (bytes.drop 12).reverse)
  else
    let run := longestZeroRun 0 (0, 0) (0, 0) segments
    if run.2 > 1 then
      segmentsText (segments.take run.1) ++ "::" ++ segmentsText (segments.drop (run.1 + run.2))
    else
      segmentsText segments

/-- The hyphenated text of a UUID: two little-endian halves, high half first. -/
def uuidText (bytes : Bytes) : String :=
  let hex := (hexText 16 (leNat (bytes.take 8)) ++ hexText 16 (leNat (bytes.drop 8))).toList
  String.ofList (hex.take 8 ++ '-' :: (hex.drop 8).take 4 ++ '-' :: (hex.drop 12).take 4 ++
    '-' :: (hex.drop 16).take 4 ++ '-' :: hex.drop 20)

/-- A quoted text. -/
def quotedText (text : String) : Bytes := utf8 ("\"" ++ text ++ "\"")

/-- The leading `width` bytes of a cell. -/
def head (width : Nat) (bytes : Bytes) : Option Bytes :=
  if width ≤ bytes.length then some (bytes.take width) else none

/-- A leading fixed-width value, rendered by `text`. -/
def renderFixed (width : Nat) (text : Bytes → Bytes) (bytes : Bytes) :
    Option (Bytes × Nat) :=
  (head width bytes).map fun raw => (text raw, width)

/-- `getVarUint` without its error. -/
def sliceVarUint (bytes : Bytes) : Option (Nat × Nat) :=
  (getVarUint bytes).toOption

/-- A leading length-prefixed value, rendered by `text`. -/
def renderPrefixed (text : Bytes → Bytes) (bytes : Bytes) : Option (Bytes × Nat) := do
  let (len, header) ← sliceVarUint bytes
  if header + len ≤ bytes.length then
    some (text ((bytes.drop header).take len), header + len)
  else
    none

/-- Render `count` values one after the other, from `position` on. -/
def renderTimes (render : Bytes → Option (Bytes × Nat)) (bytes : Bytes) :
    Nat → Nat → Option (List Bytes × Nat)
  | 0, position => some ([], position)
  | count + 1, position => do
      let (text, used) ← render (bytes.drop position)
      let (texts, stop) ← renderTimes render bytes count (position + used)
      some (text :: texts, stop)

/-- One entry of a map: the key, a colon and the value. -/
def renderPair (key value : Bytes → Option (Bytes × Nat)) (bytes : Bytes) :
    Option (Bytes × Nat) := do
  let (keyText, keyUsed) ← key bytes
  let (valueText, valueUsed) ← value (bytes.drop keyUsed)
  some (keyText ++ utf8 ":" ++ valueText, keyUsed + valueUsed)

mutual

/-- The JSON text of the value a byte string starts with, and the bytes it takes;
`none` on underflow. -/
def rowbinaryToJsonInner : ColumnType → Bytes → Option (Bytes × Nat)
  | .uInt8 => renderFixed 1 fun raw => utf8 (toString (leNat raw))
  | .uInt16 | .date => renderFixed 2 fun raw => utf8 (toString (leNat raw))
  | .uInt32 | .time | .dateTime => renderFixed 4 fun raw => utf8 (toString (leNat raw))
  | .uInt64 => renderFixed 8 fun raw => utf8 (toString (leNat raw))
  | .uInt128 => renderFixed 16 fun raw => utf8 (toString (leNat raw))
  | .int8 | .enum8 => renderFixed 1 fun raw => utf8 (signedText raw)
  | .int16 | .enum16 => renderFixed 2 fun raw => utf8 (signedText raw)
  | .int32 | .decimal32 .. | .date32 => renderFixed 4 fun raw => utf8 (signedText raw)
  | .int64 | .time64 | .decimal64 .. | .dateTime64 .. =>
      renderFixed 8 fun raw => utf8 (signedText raw)
  | .int128 | .decimal128 .. => renderFixed 16 fun raw => utf8 (signedText raw)
  | .int256 | .uInt256 | .decimal256 .. => renderFixed 32 fun raw =>
      quotedText (String.join (raw.reverse.map fun byte => hexText 2 byte.toNat))
  | .float32 => renderFixed 4 fun raw =>
      utf8 (formatFloatJson (.ofBinary32 (scalarOfBytes 4 raw)))
  | .float64 => renderFixed 8 fun raw => utf8 (formatFloatJson (scalarOfBytes 8 raw))
  | .bFloat16 => renderFixed 2 fun raw =>
      utf8 (formatFloatJson (.ofBinary32 (BitVec.ofNat 32 (leNat raw * 2 ^ 16))))
  | .uuid => renderFixed 16 fun raw => quotedText (uuidText raw)
  | .iPv4 => renderFixed 4 fun raw => quotedText (ipv4Text (leNat raw))
  | .iPv6 => renderFixed 16 fun raw => quotedText (ipv6Text raw)
  | .point => renderFixed 16 fun raw =>
      bracketed "[" "]" [utf8 (formatFloatJson (scalarOfBytes 8 (raw.take 8))),
        utf8 (formatFloatJson (scalarOfBytes 8 (raw.drop 8)))]
  | .string | .json => renderPrefixed jsonQuoteBytes
  | .fixedString width => renderFixed width jsonQuoteBytes
  | .nullable inner => fun bytes =>
      match bytes with
      | [] => none
      | flag :: rest =>
          if flag ≠ 0 then
            some (utf8 "null", 1)
          else
            (rowbinaryToJsonInner inner rest).map fun (text, used) => (text, 1 + used)
  | .lowCardinality inner => rowbinaryToJsonInner inner
  | .simpleAggregateFunction inner => rowbinaryToJsonInner inner
  | .array inner => fun bytes => do
      let (count, header) ← sliceVarUint bytes
      let (texts, stop) ← renderTimes (rowbinaryToJsonInner inner) bytes count header
      some (bracketed "[" "]" texts, stop)
  | .tuple fields => fun bytes => do
      let (texts, stop) ← renderFields fields bytes
      some (bracketed "[" "]" texts, stop)
  | .map key value => fun bytes => do
      let (count, header) ← sliceVarUint bytes
      let (texts, stop) ← renderTimes
        (renderPair (rowbinaryToJsonInner key) (rowbinaryToJsonInner value)) bytes count header
      some (bracketed "\x7b" "\x7d" texts, stop)
  | .dynamic | .newJson | .variant _ => renderPrefixed id

/-- The JSON texts of consecutive tuple fields. -/
def renderFields : List ColumnType → Bytes → Option (List Bytes × Nat)
  | [], _ => some ([], 0)
  | field :: fields, bytes => do
      let (text, used) ← rowbinaryToJsonInner field bytes
      let (texts, stop) ← renderFields fields (bytes.drop used)
      some (text :: texts, used + stop)

end

/-- The JSON text of a cell, `null` when it does not parse. -/
def rowbinaryToJson (bytes : Bytes) (colType : ColumnType) : Bytes :=
  match rowbinaryToJsonInner colType bytes with
  | some (text, _) => text
  | none => utf8 "null"

/-- Render one cell, or `null` when the sub-column ran short. -/
def cellToJson (cell : Option Bytes) (colType : ColumnType) : Bytes :=
  match cell with
  | some bytes => rowbinaryToJson bytes colType
  | none => utf8 "null"

end DfeClickhouse.Native
