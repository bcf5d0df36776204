import DfeClickhouse.Error
import DfeClickhouse.Library.Binary64
import DfeClickhouse.Library.Bytes
import DfeClickhouse.Library.Text

/-!
# JSON values and their coercions

The JSON values a dynamic insert takes, and the coercions of a value to the number,
date, address or text a column stores.  The text of a float, an array or an object
is the JSON library's, and a parameter here.
-/

namespace DfeClickhouse.Dynamic

open Library

/-- A JSON number as the JSON library holds it. -/
inductive Number
  | posInt (value : BitVec 64)
  | negInt (value : BitVec 64)
  | float (value : Binary64)

/-- A JSON value; an object is its entries in iteration order. -/
inductive Value
  | null
  | bool (value : Bool)
  | number (value : Number)
  | string (text : String)
  | array (items : List Value)
  | object (entries : List (String × Value))

/-- The texts the JSON library renders. -/
structure JsonText where
  /-- The shortest text of a float. -/
  float : Binary64 → String
  /-- The JSON text of an array or an object. -/
  compound : Value → String

/-- The error of a column whose value cannot be encoded. -/
def encErr {α : Type} (col message : String) : Except DynamicError α :=
  .error (.encodingError col message)

def orErr {α : Type} (col message : String) : Option α → Except DynamicError α
  | some value => .ok value
  | none => encErr col message

/-- An integer that fits `bits` bits without a sign. -/
def fitsUnsigned (bits : Nat) (value : Int) : Option Int :=
  if 0 ≤ value ∧ value < 2 ^ bits then some value else none

/-- An integer that fits `bits` bits with a sign. -/
def fitsSigned (bits : Nat) (value : Int) : Option Int :=
  if -2 ^ (bits - 1) ≤ value ∧ value < 2 ^ (bits - 1) then some value else none

namespace Number

def asU64 : Number → Option Int
  | posInt value => some value.toNat
  | _ => none

def asI64 : Number → Option Int
  | posInt value => fitsSigned 64 value.toNat
  | negInt value => some value.toInt
  | float _ => none

def asF64 : Number → Binary64
  | posInt value => .ofInt value.toNat
  | negInt value => .ofInt value.toInt
  | float value => value

/-- The text of a number. -/
def text (json : JsonText) : Number → String
  | posInt value => toString value.toNat
  | negInt value => toString value.toInt
  | float value => json.float value

end Number

/-- The texts of truth values. -/
def boolText (value : Bool) : String :=
  if value then "true" else "false"

/-- The text of a value; strings are taken as they are. -/
def valueToStr (json : JsonText) : Value → String
  | .string text => text
  | .number number => number.text json
  | .bool value => boolText value
  | .null => ""
  | other => json.compound other

/-- A whole float inside the range of `u64`. -/
def wholeF64AsU64 (value : Binary64) : Option Int :=
  value.whole.bind (fitsUnsigned 64)

/-- A whole float inside the range of `i64`. -/
def wholeF64AsI64 (value : Binary64) : Option Int :=
  value.whole.bind (fitsSigned 64)

def parseUnsignedText (bits : Nat) (text : String) : Option Int :=
  (parseUnsigned bits (trim text.toList)).map fun (value : Nat) => (value : Int)

def parseSignedText (bits : Nat) (text : String) : Option Int :=
  parseSigned bits (trim text.toList)

/-- The integer of a truth value. -/
def boolInt (value : Bool) : Int :=
  if value then 1 else 0

/-- A coercion to an integer: numbers by a rule of their own, truth values as 0 and 1,
strings by parsing. -/
def asInteger (fromNumber : Number → Option Int) (numberError : String)
    (fromText : String → Option Int) (textError : String) (value : Value) (col : String) :
    Except DynamicError Int :=
  match value with
  | .number number => orErr col numberError (fromNumber number)
  | .bool value => .ok (boolInt value)
  | .string text => orErr col textError (fromText text)
  | _ => encErr col "expected number"

def asU64 : Value → String → Except DynamicError Int :=
  asInteger
    (fun number => (number.asU64.orElse fun _ => number.asI64.bind (fitsUnsigned 64)).orElse
      fun _ => wholeF64AsU64 number.asF64)
    "not a valid unsigned integer" (parseUnsignedText 64) "string not parseable as u64"

/-- An `i64` out of a number. -/
def numberAsI64 (number : Number) : Option Int :=
  (number.asI64.orElse fun _ => number.asU64.bind (fitsSigned 64)).orElse
    fun _ => wholeF64AsI64 number.asF64

def asI64 : Value → String → Except DynamicError Int :=
  asInteger numberAsI64 "not a valid integer" (parseSignedText 64) "string not parseable as i64"

def asU128 : Value → String → Except DynamicError Int :=
  asInteger (fun number => number.asU64.orElse fun _ => number.asI64.bind (fitsUnsigned 128))
    "not a valid u128" (parseUnsignedText 128) "string not parseable as u128"

def asI128 : Value → String → Except DynamicError Int :=
  asInteger (fun number => number.asI64.orElse fun _ => number.asU64)
    "not a valid i128" (parseSignedText 128) "string not parseable as i128"

def asF64 (value : Value) (col : String) : Except DynamicError Binary64 :=
  match value with
  | .number number => .ok number.asF64
  | .string text =>
      orErr col "string not parseable as f64" (Binary64.parse (trim text.toList))
  | _ => encErr col "expected number"

def asBool (value : Value) (col : String) : Except DynamicError Bool :=
  match value with
  | .bool value => .ok value
  | .number number =>
      orErr col "number not parseable as bool" ((numberAsI64 number).map fun value => value != 0)
  | .string text =>
      let lower := String.ofList ((trim text.toList).map Char.toLower)
      if ["true", "yes", "1"].contains lower then .ok true
      else if ["false", "no", "0", ""].contains lower then .ok false
      else encErr col "string not parseable as bool"
  | .null => .ok false
  | _ => encErr col "expected bool"

/-- Narrow a wide integer to the column's width. -/
def narrow (fits : Int → Option Int) (value : Int) (col typeName : String) :
    Except DynamicError Int :=
  orErr col (typeName ++ " value out of range") (fits value)

/-- The digit at a place of the fractional part, zero past its end. -/
def fractionDigit (fraction : Text) (place : Nat) : Int :=
  match fraction[place]? with
  | some digit => digit.toNat - '0'.toNat
  | none => 0

/-- Shift in `count` fractional digits from a place on. -/
def shiftDigits (fraction : Text) : Nat → Nat → Int → Option Int
  | 0, _, acc => some acc
  | count + 1, place, acc => do
      let shifted ← fitsSigned 128 (acc * 10)
      let acc ← fitsSigned 128 (shifted + fractionDigit fraction place)
      shiftDigits fraction count (place + 1) acc

/-- Scale a plain literal by a power of ten, rounding the first dropped digit half up. -/
def decimalFromText (text : Text) (scale : Nat) : Option Int := do
  let (negative, digits) ← match text with
    | [] => none
    | '-' :: rest => some (true, rest)
    | '+' :: rest => some (false, rest)
    | _ => some (false, text)
  let (whole, fraction) := (splitOnce digits ['.']).getD (digits, [])
  if whole = [] ∧ fraction = [] then none
  else if !whole.all Char.isDigit || !fraction.all Char.isDigit then none
  else
    let start ← if whole = [] then some 0 else parseSigned 128 whole
    let acc ← shiftDigits fraction scale 0 start
    let rounded ←
      if 5 ≤ fractionDigit fraction scale then fitsSigned 128 (acc + 1) else some acc
    if negative then fitsSigned 128 (-rounded) else some rounded

/-- The backing integer of a decimal of the given scale. -/
def decimalBackingI128 (json : JsonText) (value : Value) (scale : Nat) (col : String) :
    Except DynamicError Int := do
  let text ← match value with
    | .number number => .ok (number.text json).toList
    | .string text => .ok (trim text.toList)
    | .bool value => .ok (if value then ['1'] else ['0'])
    | _ => encErr col "expected decimal number"
  match decimalFromText text scale with
  | some backing => return backing
  | none =>
      let digits := text.dropWhile fun char => char == '+' || char == '-'
      if digits.any Char.isDigit && digits.all (fun char => char.isDigit || char == '.') then
        encErr col "decimal out of range"
      else
        let parsed ← orErr col "not parseable as a decimal" (Binary64.parse text)
        let scaled := parsed.mul (Binary64.powi (.ofInt 10) (.ofInt 1) 8 scale)
        -- 2^127 is exact, so the bounds hold of the rounded integer as well.
        if !scaled.isFinite ∨ scaled.round ≥ 2 ^ 127 ∨ scaled.round < -2 ^ 127 then
          encErr col "decimal out of range after scaling"
        else
          return scaled.round

end DfeClickhouse.Dynamic
