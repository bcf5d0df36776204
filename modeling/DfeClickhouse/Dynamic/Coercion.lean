import DfeClickhouse.Dynamic.ParsedType
import DfeClickhouse.Dynamic.Value

/-!
# Dates, enums and addresses

The coercions of a JSON value that read more than a number out of it.  Timestamps
are UTC.  A text is ASCII wherever the source indexes it by bytes, so that bytes
and characters are the same there.
-/

namespace DfeClickhouse.Dynamic

open Library

/-- Whole seconds of an epoch number, whose unit is told by its magnitude. -/
def epochToSeconds (ts : Int) : Int :=
  if ts.natAbs > 1000000000000000000 then ts.tdiv 1000000000
  else if ts.natAbs > 1000000000000000 then ts.tdiv 1000000
  else if ts.natAbs > 1000000000000 then ts.tdiv 1000
  else ts

/-- Days of a month, proleptic Gregorian. -/
def daysInMonth (year : Int) (month : Nat) : Nat :=
  if month ∈ [1, 3, 5, 7, 8, 10, 12] then 31
  else if month ∈ [4, 6, 9, 11] then 30
  else if month = 2 then
    if year.tmod 4 = 0 ∧ (year.tmod 100 ≠ 0 ∨ year.tmod 400 = 0) then 29 else 28
  else 0

/-- Whether a date exists. -/
def checkCalendarDay (year : Int) (month day : Nat) : Bool :=
  1 ≤ month && month ≤ 12 && 1 ≤ day && day ≤ daysInMonth year month

/-- Days since 1970-01-01 of a civil date. -/
def civilDaysFromEpoch (year : Int) (month day : Nat) : Int :=
  let y := if month ≤ 2 then year - 1 else year
  let m : Int := if month ≤ 2 then month + 9 else month - 3
  let era := y / 400
  let yoe := y % 400
  let dayOfYear := (153 * m + 2) / 5 + day - 1
  let doe := yoe * 365 + yoe / 4 - yoe / 100 + dayOfYear
  era * 146097 + doe - 719468

/-- The characters of a text from one position up to another. -/
def slice (text : Text) (start stop : Nat) : Text :=
  (text.take stop).drop start

def isAscii (text : Text) : Bool :=
  text.all fun char => char.toNat < 128

/-- The fractional second of a text that may begin with one, in nanoseconds, and the
text after it. -/
def parseFraction : Text → Except String (Nat × Text)
  | '.' :: rest =>
      let digits := rest.takeWhile Char.isDigit
      if digits.isEmpty then
        .error "invalid DateTime string"
      else
        match parseUnsigned 32 (digits.take 9) with
        | some fraction =>
            .ok (fraction * 10 ^ (9 - digits.length), rest.dropWhile Char.isDigit)
        | none => .error "invalid fractional seconds"
  | text => .ok (0, text)

/-- What follows the zone of a text that may begin with one.  Only UTC is accepted. -/
def parseZone : Text → Except String Text
  | 'Z' :: rest => .ok rest
  | text =>
      let sign := text.take 1
      let hours := slice text 1 3
      let minutes := slice text 4 6
      if (sign = ['+'] ∨ sign = ['-']) ∧ 6 ≤ text.length ∧ slice text 3 4 = [':'] ∧
          hours.all Char.isDigit ∧ minutes.all Char.isDigit then
        if sign = ['-'] ∨ hours ≠ ['0', '0'] ∨ minutes ≠ ['0', '0'] then
          .error ("non-UTC timezone offset '" ++ String.ofList (text.take 6) ++
            "' not supported; convert to UTC first")
        else
          .ok (text.drop 6)
      else
        .ok text

/-- A component of a date, with the error of its failure. -/
def component {α ε : Type} (error : ε) (parsed : Option α) : Except ε α :=
  match parsed with
  | some value => .ok value
  | none => .error error

/-- Parse `YYYY-MM-DD[ T]HH:MM:SS[.frac][Z|+00:00]` into seconds and nanoseconds. -/
def parseDatetimeStr (text : Text) : Except String (Int × Nat) := do
  let separator := text[10]?
  if text.length < 19 ∨ !isAscii text ∨ (separator ≠ some ' ' ∧ separator ≠ some 'T') then
    .error "invalid DateTime string"
  else
    let (fraction, rest) ← parseFraction (text.drop 19)
    let rest ← parseZone rest
    if rest ≠ [] then
      .error "invalid DateTime string"
    else
      let year ← component "invalid year" (parseSigned 32 (slice text 0 4))
      let month ← component "invalid month" (parseUnsigned 32 (slice text 5 7))
      let day ← component "invalid day" (parseUnsigned 32 (slice text 8 10))
      let hour ← component "invalid hour" (parseUnsigned 32 (slice text 11 13))
      let minute ← component "invalid minute" (parseUnsigned 32 (slice text 14 16))
      let second ← component "invalid second" (parseUnsigned 32 (slice text 17 19))
      if !checkCalendarDay year month day ∨ hour > 23 ∨ minute > 59 ∨ second > 59 then
        .error "invalid DateTime string"
      else
        let days := civilDaysFromEpoch year month day
        return (days * 86400 + (hour : Int) * 3600 + (minute : Int) * 60 + (second : Int), fraction)

/-- A date string of a column, its error naming the column. -/
def datetimeOf (text : Text) (col : String) : Except DynamicError (Int × Nat) :=
  match parseDatetimeStr text with
  | .ok parsed => .ok parsed
  | .error message => encErr col message

/-- An epoch out of a number. -/
def epochNumber (number : Number) : Option Int :=
  number.asI64.orElse fun _ => wholeF64AsI64 number.asF64

/-- Whole epoch seconds of a value. -/
def toEpochSeconds (value : Value) (col : String) : Except DynamicError Int :=
  match value with
  | .number number => do
      let raw ← orErr col "invalid epoch number" (epochNumber number)
      return epochToSeconds raw
  | .string text =>
      match parseSignedText 64 text with
      | some raw => .ok (epochToSeconds raw)
      | none => do
          let (seconds, _) ← datetimeOf (trim text.toList) col
          return seconds
  | _ => encErr col "expected datetime string or epoch number"

/-- A day count that fits `i32`. -/
def narrowDays (days : Int) (col : String) : Except DynamicError Int :=
  orErr col "Date out of range" (fitsSigned 32 days)

/-- The days of a bare `YYYY-MM-DD`. -/
def dateDays (text : Text) (col : String) : Except DynamicError Int := do
  let year ← orErr col "invalid Date year" (parseSigned 32 (slice text 0 4))
  let month ← orErr col "invalid Date month" (parseUnsigned 32 (slice text 5 7))
  let day ← orErr col "invalid Date day" (parseUnsigned 32 (slice text 8 10))
  if !checkCalendarDay year month day then
    encErr col "invalid Date components"
  else
    narrowDays (civilDaysFromEpoch year month day) col

/-- Whether a text has the shape of a bare date. -/
def isBareDate (text : Text) : Bool :=
  text.length == 10 && isAscii text && text[4]? == some '-'

/-- The days of a value's epoch seconds. -/
def epochDays (value : Value) (col : String) : Except DynamicError Int := do
  let seconds ← toEpochSeconds value col
  narrowDays (seconds / 86400) col

/-- Days since 1970-01-01 of a value. -/
def toEpochDays (value : Value) (col : String) : Except DynamicError Int :=
  match value with
  | .string text =>
      if isBareDate (trim text.toList) then dateDays (trim text.toList) col
      else epochDays value col
  | _ => epochDays value col

/-- A power of ten in wrapping `i64` arithmetic. -/
def pow10I64 (exponent : Nat) : Int :=
  (BitVec.ofNat 64 (10 ^ exponent)).toInt

/-- `DateTime64` ticks of a value. -/
def datetime64ToTicks (value : Value) (precision : Nat) (col : String) :
    Except DynamicError Int :=
  match value with
  | .number number => orErr col "invalid DateTime64 number" (epochNumber number)
  | .string text =>
      match parseSignedText 64 text with
      | some ticks => .ok ticks
      | none => do
          let (seconds, fraction) ← datetimeOf (trim text.toList) col
          let base ← orErr col "DateTime64 epoch overflow"
            (fitsSigned 64 (seconds * pow10I64 precision))
          orErr col "DateTime64 epoch overflow"
            (fitsSigned 64 (base + (fraction : Int) / pow10I64 (9 - precision)))
  | _ => encErr col "expected number or datetime string"

/-- The loop of `splitEnumMembers`: the open quote, whether the character before
escapes, and the reversed characters of the current member. -/
def splitEnumMembersFrom (quote : Option Char) (escaped : Bool) (current : Text) :
    Text → List Text
  | [] => [current.reverse]
  | char :: rest =>
      if escaped then
        splitEnumMembersFrom quote false (char :: current) rest
      else if char = '\\' ∧ quote.isSome then
        splitEnumMembersFrom quote true (char :: current) rest
      else if quote.isSome then
        splitEnumMembersFrom (if quote = some char then none else quote) false
          (char :: current) rest
      else if char = Char.ofNat 39 ∨ char = '"' then
        splitEnumMembersFrom (some char) false (char :: current) rest
      else if char = ',' then
        current.reverse :: splitEnumMembersFrom none false [] rest
      else
        splitEnumMembersFrom none false (char :: current) rest

/-- Split an enum member list on the commas outside of quoted labels. -/
def splitEnumMembers (inner : Text) : List Text :=
  splitEnumMembersFrom none false [] inner

/-- The number of a label in a list of members. -/
def enumMemberIn (name : Text) : List Text → Option Int
  | [] => none
  | member :: members =>
      match splitOnce member ['='] with
      | none => none
      | some (label, number) =>
          if ParsedType.unquote label = name then parseSigned 64 (trim number)
          else enumMemberIn name members

/-- Look up a label in an enum's definition. -/
def enumMemberValue (typeStr : Text) (name : String) : Option Int :=
  (ParsedType.extractParens typeStr).bind fun inner =>
    enumMemberIn name.toList (splitEnumMembers inner)

/-- The discriminant of an enum value. -/
def enumDiscriminant (value : Value) (typeStr : Text) (col : String) :
    Except DynamicError Int :=
  match value with
  | .number _ | .bool _ => asI64 value col
  | .string text =>
      match parseSignedText 64 text with
      | some number => .ok number
      | none =>
          orErr col "enum string not found in type definition" (enumMemberValue typeStr text)
  | _ => encErr col "expected enum value"

/-- The value of a hexadecimal digit. -/
def hexDigit (char : Char) : Option Nat :=
  if char.isDigit then some (char.toNat - '0'.toNat)
  else if 'a' ≤ char ∧ char ≤ 'f' then some (char.toNat - 'a'.toNat + 10)
  else if 'A' ≤ char ∧ char ≤ 'F' then some (char.toNat - 'A'.toNat + 10)
  else none

/-- The number a list of digits denotes. -/
def digitsNumber (radix : Nat) (digits : List Nat) : Nat :=
  digits.foldl (fun value digit => value * radix + digit) 0

/-- A UUID: two little-endian words, the high one first. -/
def uuidBytes (json : JsonText) (value : Value) (col : String) : Except DynamicError Bytes :=
  let digits := (valueToStr json value).toList.filterMap hexDigit
  if digits.length ≠ 32 then
    encErr col "invalid UUID length"
  else
    .ok (natLe 8 (digitsNumber 16 (digits.take 16)) ++ natLe 8 (digitsNumber 16 (digits.drop 16)))

/-- Read a number of at most `maxDigits` digits that is below a limit. -/
def readNumber (radix maxDigits limit : Nat) (allowZeroPrefix : Bool) (text : Text) :
    Option (Nat × Text) :=
  let isDigit := fun char => (hexDigit char).any (· < radix)
  let digits := text.takeWhile isDigit
  let number := digitsNumber radix (digits.filterMap hexDigit)
  if digits.length = 0 ∨ maxDigits < digits.length then none
  else if !allowZeroPrefix ∧ digits.head? = some '0' ∧ 1 < digits.length then none
  else if number < limit then some (number, text.dropWhile isDigit)
  else none

/-- Read what follows a separator; nothing separates the item at index zero. -/
def readSeparated {α : Type} (separator : Char) (index : Nat)
    (reader : Text → Option (α × Text)) (text : Text) : Option (α × Text) :=
  if index = 0 then reader text
  else (text.dropPrefix? [separator]).bind reader

/-- Read the octets of an IPv4 address from an index on. -/
def readOctets : Nat → Nat → Text → Option (List Nat × Text)
  | 0, _, text => some ([], text)
  | count + 1, index, text => do
      let (octet, text) ← readSeparated '.' index (readNumber 10 3 256 false) text
      let (octets, text) ← readOctets count (index + 1) text
      return (octet :: octets, text)

def readIpv4Addr (text : Text) : Option (List Nat × Text) :=
  readOctets 4 0 text

/-- The address a text of four octets denotes, as a number. -/
def parseIpv4 (text : Text) : Option Nat :=
  if 15 < text.length then none
  else
    match readIpv4Addr text with
    | some (octets, []) => some (digitsNumber 256 octets)
    | _ => none

/-- The groups of the two halves of an embedded IPv4 address. -/
def embeddedGroups : List Nat → List Nat
  | [one, two, three, four] => [one * 256 + two, three * 256 + four]
  | _ => []

/-- What a run of IPv6 groups consists of. -/
structure Groups where
  groups : List Nat
  /-- Whether an IPv4 address ends the run. -/
  embedded : Bool
  rest : Text

/-- Read groups into the remaining slots, from an index on. -/
def readGroups : Nat → Nat → Text → Groups
  | 0, _, text => ⟨[], false, text⟩
  | slots + 1, index, text =>
      let ipv4 := if 0 < slots then readSeparated ':' index readIpv4Addr text else none
      match ipv4 with
      | some (octets, rest) => ⟨embeddedGroups octets, true, rest⟩
      | none =>
          match readSeparated ':' index (readNumber 16 4 65536 true) text with
          | some (group, rest) =>
              let after := readGroups slots (index + 1) rest
              { after with groups := group :: after.groups }
          | none => ⟨[], false, text⟩

/-- Read an IPv6 address: eight groups, or the groups around a run of zeros. -/
def readIpv6Addr (text : Text) : Option (List Nat × Text) :=
  let head := readGroups 8 0 text
  if head.groups.length = 8 then some (head.groups, head.rest)
  else if head.embedded then none
  else
    (head.rest.dropPrefix? [':', ':']).map fun rest =>
      let tail := readGroups (7 - head.groups.length) 0 rest
      let zeros := List.replicate (8 - head.groups.length - tail.groups.length) 0
      (head.groups ++ zeros ++ tail.groups, tail.rest)

/-- The octets of an IPv6 address in network order. -/
def parseIpv6 (text : Text) : Option Bytes :=
  match readIpv6Addr text with
  | some (groups, []) =>
      some (groups.flatMap fun group => [UInt8.ofNat (group / 256), UInt8.ofNat group])
  | _ => none

/-- An IPv4 address, as a little-endian number. -/
def ipv4Bytes (json : JsonText) (value : Value) (col : String) : Except DynamicError Bytes := do
  let number := match value with
    | .number number => number.asU64
    | _ => none
  match number with
  | some number => do
      let address ← narrow (fitsUnsigned 32) number col "IPv4"
      return natLe 4 address.toNat
  | none => do
      let address ← orErr col "invalid IPv4" (parseIpv4 (valueToStr json value).toList)
      return natLe 4 address

/-- An IPv6 address, in network order. -/
def ipv6Bytes (json : JsonText) (value : Value) (col : String) : Except DynamicError Bytes :=
  orErr col "invalid IPv6" (parseIpv6 (valueToStr json value).toList)

end DfeClickhouse.Dynamic
