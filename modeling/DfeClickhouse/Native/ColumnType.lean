import Mathlib

/-!
# Column types

The types a native column can have, their fixed wire widths, and the nesting
measure the recursion guards bound.
-/

namespace DfeClickhouse.Native

/-- The supported column types. -/
inductive ColumnType
  | uInt8
  | uInt16
  | uInt32
  | uInt64
  | int8
  | int16
  | int32
  | int64
  | int128
  | uInt128
  | int256
  | uInt256
  | float32
  | float64
  | bFloat16
  | decimal32 (precision scale : Nat)
  | decimal64 (precision scale : Nat)
  | decimal128 (precision scale : Nat)
  | decimal256 (precision scale : Nat)
  | string
  | fixedString (width : Nat)
  | uuid
  | iPv4
  | iPv6
  | date
  | date32
  | dateTime
  | dateTime64 (precision : Nat) (timezone : Option String)
  | time
  | time64
  | nullable (inner : ColumnType)
  | lowCardinality (inner : ColumnType)
  | enum8
  | enum16
  | simpleAggregateFunction (inner : ColumnType)
  | array (inner : ColumnType)
  | tuple (fields : List ColumnType)
  | map (key value : ColumnType)
  | json
  | point
  | variant (types : List ColumnType)
  | newJson
  | dynamic
  deriving Inhabited

namespace ColumnType

/-- The types directly inside a type. -/
def children : ColumnType → List ColumnType
  | nullable inner | lowCardinality inner | simpleAggregateFunction inner
  | array inner => [inner]
  | tuple fields => fields
  | map key value => [key, value]
  | variant types => types
  | _ => []

theorem sizeOf_lt_of_mem_children {columnType child : ColumnType}
    (member : child ∈ columnType.children) : sizeOf child < sizeOf columnType := by
  cases columnType with
  | nullable inner | lowCardinality inner | simpleAggregateFunction inner
  | array inner =>
      simp only [children, List.mem_singleton] at member
      subst member
      simp
  | tuple fields | variant fields =>
      have smaller := List.sizeOf_lt_of_mem member
      simp only [children] at smaller
      simp only [tuple.sizeOf_spec, variant.sizeOf_spec]
      omega
  | map key value =>
      simp only [children, List.mem_cons, List.not_mem_nil, or_false] at member
      rcases member with rfl | rfl <;> simp only [map.sizeOf_spec] <;> omega
  | _ => simp [children] at member

/-- A property of a type follows from the property of its children. -/
theorem induction_children {motive : ColumnType → Prop}
    (step : ∀ columnType,
      (∀ child ∈ columnType.children, motive child) → motive columnType)
    (columnType : ColumnType) : motive columnType := by
  induction size : sizeOf columnType using Nat.strongRecOn generalizing columnType with
  | ind _ ih =>
      subst size
      exact step columnType fun child member =>
        ih _ (sizeOf_lt_of_mem_children member) child rfl

mutual

/-- How deep wrappers nest: zero for a type without type arguments. -/
def nesting : ColumnType → Nat
  | nullable inner | lowCardinality inner | simpleAggregateFunction inner
  | array inner => inner.nesting + 1
  | tuple fields => nestingList fields + 1
  | map key value => max key.nesting value.nesting + 1
  | variant types => nestingList types + 1
  | _ => 0

/-- The deepest nesting in a list of types. -/
def nestingList : List ColumnType → Nat
  | [] => 0
  | head :: tail => max head.nesting (nestingList tail)

end

theorem nesting_le_nestingList {columnTypes : List ColumnType} {columnType : ColumnType}
    (member : columnType ∈ columnTypes) :
    columnType.nesting ≤ nestingList columnTypes := by
  induction columnTypes with
  | nil => cases member
  | cons head tail ih =>
      rw [nestingList]
      cases member with
      | head => exact Nat.le_max_left _ _
      | tail _ member => exact Nat.le_trans (ih member) (Nat.le_max_right _ _)

/-- Fixed wire width in bytes; `none` for variable-length types. -/
def fixedSize : ColumnType → Option Nat
  | uInt8 | int8 | enum8 => some 1
  | bFloat16 | uInt16 | int16 | date | enum16 => some 2
  | uInt32 | int32 | float32 | dateTime | date32 | decimal32 .. | iPv4 | time => some 4
  | uInt64 | int64 | float64 | dateTime64 .. | decimal64 .. | time64 => some 8
  | int128 | uInt128 | uuid | iPv6 | decimal128 .. => some 16
  | int256 | uInt256 | decimal256 .. => some 32
  | fixedString width => some width
  | string | json | nullable _ | lowCardinality _ | simpleAggregateFunction _
  | array _ | tuple _ | map .. | variant _ | newJson | dynamic | point => none

/-- A property holds of every type when it holds of the fixed-width types, of the
other types without arguments, and is passed on from arguments to composite types. -/
theorem induction_forms {motive : ColumnType → Prop}
    (fixed : ∀ columnType width, columnType.fixedSize = some width → motive columnType)
    (string : motive string) (json : motive json) (newJson : motive newJson)
    (dynamic : motive dynamic) (point : motive point)
    (nullable : ∀ inner, motive inner → motive (nullable inner))
    (lowCardinality : ∀ inner, motive inner → motive (lowCardinality inner))
    (simpleAggregateFunction : ∀ inner, motive inner →
      motive (simpleAggregateFunction inner))
    (array : ∀ inner, motive inner → motive (array inner))
    (tuple : ∀ fields, (∀ field ∈ fields, motive field) → motive (tuple fields))
    (map : ∀ key value, motive key → motive value → motive (map key value))
    (variant : ∀ types, (∀ type ∈ types, motive type) → motive (variant types))
    (columnType : ColumnType) : motive columnType := by
  induction columnType using induction_children with
  | step columnType ih =>
      cases columnType with
      | string => exact string
      | json => exact json
      | newJson => exact newJson
      | dynamic => exact dynamic
      | point => exact point
      | nullable inner => exact nullable inner (ih inner (by simp [children]))
      | lowCardinality inner => exact lowCardinality inner (ih inner (by simp [children]))
      | simpleAggregateFunction inner =>
          exact simpleAggregateFunction inner (ih inner (by simp [children]))
      | array inner => exact array inner (ih inner (by simp [children]))
      | tuple fields => exact tuple fields ih
      | map key value =>
          exact map key value (ih key (by simp [children])) (ih value (by simp [children]))
      | variant types => exact variant types ih
      | _ => exact fixed _ _ rfl

/-- One character of a quoted debug text.  The printability table of the
standard library is reduced to its ASCII part. -/
def debugChar : Char → String
  | '"' => "\\\""
  | '\\' => "\\\\"
  | '\n' => "\\n"
  | '\r' => "\\r"
  | '\t' => "\\t"
  | '\x00' => "\\0"
  | char =>
      if char.toNat < 0x20 ∨ char.toNat = 0x7F then
        "\\u\x7b" ++ String.ofList (Nat.toDigits 16 char.toNat) ++ "\x7d"
      else
        String.singleton char

/-- A string as its debug format quotes it. -/
def debugText (text : String) : String :=
  "\"" ++ String.join (text.toList.map debugChar) ++ "\""

/-- The debug text of a record with two numeric fields. -/
def debugDecimal (name : String) (precision scale : Nat) : String :=
  name ++ " \x7b precision: " ++ toString precision ++ ", scale: " ++ toString scale ++
    " \x7d"

mutual

/-- The debug text of a type, as the error messages print it. -/
def debug : ColumnType → String
  | uInt8 => "UInt8"
  | uInt16 => "UInt16"
  | uInt32 => "UInt32"
  | uInt64 => "UInt64"
  | int8 => "Int8"
  | int16 => "Int16"
  | int32 => "Int32"
  | int64 => "Int64"
  | int128 => "Int128"
  | uInt128 => "UInt128"
  | int256 => "Int256"
  | uInt256 => "UInt256"
  | float32 => "Float32"
  | float64 => "Float64"
  | bFloat16 => "BFloat16"
  | decimal32 precision scale => debugDecimal "Decimal32" precision scale
  | decimal64 precision scale => debugDecimal "Decimal64" precision scale
  | decimal128 precision scale => debugDecimal "Decimal128" precision scale
  | decimal256 precision scale => debugDecimal "Decimal256" precision scale
  | string => "String"
  | fixedString width => "FixedString(" ++ toString width ++ ")"
  | uuid => "Uuid"
  | iPv4 => "IPv4"
  | iPv6 => "IPv6"
  | date => "Date"
  | date32 => "Date32"
  | dateTime => "DateTime"
  | dateTime64 precision timezone =>
      "DateTime64 \x7b precision: " ++ toString precision ++ ", timezone: " ++
        (match timezone with
        | none => "None"
        | some text => "Some(" ++ debugText text ++ ")") ++ " \x7d"
  | time => "Time"
  | time64 => "Time64"
  | nullable inner => "Nullable(" ++ inner.debug ++ ")"
  | lowCardinality inner => "LowCardinality(" ++ inner.debug ++ ")"
  | enum8 => "Enum8"
  | enum16 => "Enum16"
  | simpleAggregateFunction inner => "SimpleAggregateFunction(" ++ inner.debug ++ ")"
  | array inner => "Array(" ++ inner.debug ++ ")"
  | tuple fields => "Tuple([" ++ ", ".intercalate (debugList fields) ++ "])"
  | map key value => "Map(" ++ key.debug ++ ", " ++ value.debug ++ ")"
  | json => "Json"
  | point => "Point"
  | variant types => "Variant([" ++ ", ".intercalate (debugList types) ++ "])"
  | newJson => "NewJson"
  | dynamic => "Dynamic"

/-- The debug texts of a list of types. -/
def debugList : List ColumnType → List String
  | [] => []
  | head :: tail => head.debug :: debugList tail

end

end ColumnType

end DfeClickhouse.Native
