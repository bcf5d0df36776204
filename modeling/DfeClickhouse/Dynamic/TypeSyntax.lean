import DfeClickhouse.Dynamic.EnumLabels
import DfeClickhouse.Dynamic.TypeArguments

/-!
# Types in writing

Types as the server announces them, and what the native parser reads back from their names.
The parser finds the end of an argument by counting parentheses, those in the labels of an
enum included, so a label may move the place where it cuts.
-/

namespace DfeClickhouse.Dynamic

open Library Native

/-- A time zone, as it stands between quotes. -/
structure Timezone where
  name : Text
  present : name ≠ []
  plain : ∀ char ∈ name, char ≠ labelQuote ∧ char ≠ ',' ∧ char ≠ '(' ∧ char ≠ ')'

def Timezone.text (timezone : Timezone) : Text :=
  labelQuote :: (timezone.name ++ [labelQuote])

/-- An aggregate function, with its parameters if it has any. -/
structure AggregateName where
  name : Text
  uncut : findFirstCommaAtDepth0 name = none
  closed : closingDepth name = 0

/-- A type of the supported grammar. -/
inductive TypeSyntax
  | scalar (entry : String × ColumnType) (listed : entry ∈ scalarTypes)
  | fixedString (width : BitVec 64)
  | decimal (precision scale : BitVec 8)
  | dateTime64 (precision : BitVec 8) (timezone : Option Timezone)
  | enum (definition : EnumDefinition)
  | nullable (inner : TypeSyntax)
  | lowCardinality (inner : TypeSyntax)
  | array (inner : TypeSyntax)
  | tuple (first : TypeSyntax) (rest : List TypeSyntax)
  | map (key value : TypeSyntax)
  | variant (first : TypeSyntax) (rest : List TypeSyntax)
  | simpleAggregateFunction (function : AggregateName) (inner : TypeSyntax)

/-- A name with its arguments between parentheses. -/
def applied (name : String) (inner : Text) : Text :=
  name.toList ++ '(' :: (inner ++ [')'])

/-- A number in writing. -/
def digits (value : Nat) : Text :=
  Nat.toDigits 10 value

namespace TypeSyntax

mutual

/-- The name of a type. -/
def text : TypeSyntax → Text
  | scalar entry _ => entry.1.toList
  | fixedString width => applied "FixedString" (digits width.toNat)
  | decimal precision scale =>
    applied "Decimal" (joined [digits precision.toNat, digits scale.toNat])
  | dateTime64 precision timezone =>
      applied "DateTime64" (joined (digits precision.toNat :: timezone.toList.map Timezone.text))
  | enum definition => definition.typeName
  | nullable inner => applied "Nullable" inner.text
  | lowCardinality inner => applied "LowCardinality" inner.text
  | array inner => applied "Array" inner.text
  | tuple first rest => applied "Tuple" (joined (first.text :: texts rest))
  | map key value => applied "Map" (joined [key.text, value.text])
  | variant first rest => applied "Variant" (joined (first.text :: texts rest))
  | simpleAggregateFunction function inner =>
      applied "SimpleAggregateFunction" (joined [function.name, inner.text])

def texts : List TypeSyntax → List Text
  | [] => []
  | first :: rest => first.text :: texts rest

end

/-- The decimal type of a precision and a scale. -/
def decimalColumn (precision scale : Nat) : ColumnType :=
  if precision ≤ 9 then .decimal32 precision scale
  else if precision ≤ 18 then .decimal64 precision scale
  else if precision ≤ 38 then .decimal128 precision scale
  else .decimal256 precision scale

def enumColumn : EnumWidth → ColumnType
  | .enum8 => .enum8
  | .enum16 => .enum16

mutual

/-- The column type that is written. -/
def columnType : TypeSyntax → ColumnType
  | scalar entry _ => entry.2
  | fixedString width => .fixedString width.toNat
  | decimal precision scale => decimalColumn precision.toNat scale.toNat
  | dateTime64 precision timezone =>
      .dateTime64 precision.toNat (timezone.map fun timezone => String.ofList timezone.name)
  | enum definition => enumColumn definition.width
  | nullable inner => .nullable inner.columnType
  | lowCardinality inner => .lowCardinality inner.columnType
  | array inner => .array inner.columnType
  | tuple first rest => .tuple (first.columnType :: columnTypes rest)
  | map key value => .map key.columnType value.columnType
  | variant first rest => .variant (first.columnType :: columnTypes rest)
  | simpleAggregateFunction _ inner => .simpleAggregateFunction inner.columnType

def columnTypes : List TypeSyntax → List ColumnType
  | [] => []
  | first :: rest => first.columnType :: columnTypes rest

end

@[simp] theorem texts_eq (types : List TypeSyntax) : texts types = types.map text := by
  induction types with
  | nil => rfl
  | cons first rest ih => rw [texts, ih, List.map_cons]

@[simp]
theorem columnTypes_eq (types : List TypeSyntax) : columnTypes types = types.map columnType := by
  induction types with
  | nil => rfl
  | cons first rest ih => rw [columnTypes, ih, List.map_cons]

/-- The arguments that stand in a list. -/
def listed : TypeSyntax → List TypeSyntax
  | tuple first rest | variant first rest => first :: rest
  | map key value => [key, value]
  | _ => []

/-- The types directly inside a type. -/
def children : TypeSyntax → List TypeSyntax
  | nullable inner | lowCardinality inner | array inner | simpleAggregateFunction _ inner => [inner]
  | type => type.listed

theorem sizeOf_lt_of_mem_children {type child : TypeSyntax} (member : child ∈ type.children) :
    sizeOf child < sizeOf type := by
  cases type with
  | nullable inner | lowCardinality inner | array inner | simpleAggregateFunction function inner =>
      rw [List.mem_singleton.mp member]
      simp
  | tuple first rest | variant first rest =>
      have smaller : sizeOf child < sizeOf (first :: rest) := List.sizeOf_lt_of_mem member
      simp only [List.cons.sizeOf_spec] at smaller
      simp only [tuple.sizeOf_spec, variant.sizeOf_spec]
      omega
  | map key value =>
      simp only [map.sizeOf_spec]
      cases List.mem_pair.mp member with
      | inl same =>
          subst same
          omega
      | inr same =>
          subst same
          omega
  | _ => cases member

/-- A property of a type follows from the property of the types directly inside it. -/
theorem induction_children {motive : TypeSyntax → Prop}
    (step : ∀ type, (∀ child ∈ type.children, motive child) → motive type) (type : TypeSyntax) :
    motive type := by
  induction size : sizeOf type using Nat.strongRecOn generalizing type with
  | ind _ ih =>
      subst size
      exact step type fun child member => ih _ (sizeOf_lt_of_mem_children member) child rfl

/-- A type is a part of another, itself included. -/
inductive Within : TypeSyntax → TypeSyntax → Prop
  | whole (type : TypeSyntax) : Within type type
  | inside {part child type : TypeSyntax} :
      child ∈ type.children → Within part child → Within part type

end TypeSyntax

theorem solid_applied {name : String}
    (visible : (name.toList.head?.map isWhitespace) = some false) (inner : Text) :
    Solid (applied name inner) := by
  unfold applied
  cases opening : name.toList with
  | nil =>
      rw [opening] at visible
      cases visible
  | cons first rest =>
      rw [opening] at visible
      have split : first :: rest ++ '(' :: (inner ++ [')']) =
          first :: (rest ++ '(' :: inner) ++ [')'] := by simp
      rw [split]
      exact Solid.of_ends (Option.some.inj visible) (by simp) (by simp [isWhitespace])

theorem isDigits_digits (value : Nat) : IsDigits (digits value) :=
  fun _ member => isDigit_of_mem_toDigits member

theorem solid_digits (value : Nat) : Solid (digits value) :=
  .of_visible Nat.toDigits_ne_nil fun char member =>
    isWhitespace_of_isDigit (isDigits_digits value char member)

theorem Timezone.solid (timezone : Timezone) : Solid timezone.text :=
  Solid.of_ends (by decide) (by simp) (by simp [labelQuote, isWhitespace])

theorem solid_scalar {entry : String × ColumnType} (member : entry ∈ scalarTypes) :
    Solid entry.1.toList := by
  have present : ∀ entry ∈ scalarTypes, entry.1.toList ≠ [] := by decide +kernel
  have visible : (scalarTypes.all fun entry => entry.1.toList.all fun char =>
      !isWhitespace char) = true := by decide +kernel
  apply Solid.of_visible (present entry member)
  intro char inside
  have shown := List.all_eq_true.mp (List.all_eq_true.mp visible entry member) char inside
  exact Bool.not_eq_eq_eq_not.mp shown

def enumName : EnumWidth → String
  | .enum8 => "Enum8"
  | .enum16 => "Enum16"

theorem EnumDefinition.typeName_eq (definition : EnumDefinition) :
    definition.typeName = applied (enumName definition.width) definition.memberList := by
  rw [EnumDefinition.typeName, applied]
  cases definition.width <;> rfl

theorem TypeSyntax.solid (type : TypeSyntax) : Solid type.text := by
  cases type with
  | scalar entry listed => exact solid_scalar listed
  | enum definition =>
      rw [text, EnumDefinition.typeName_eq]
      cases definition.width <;> exact solid_applied rfl _
  | _ => exact solid_applied rfl _

theorem isInfix_joined {arguments : List Text} {argument : Text} (member : argument ∈ arguments) :
    argument <:+: joined arguments := by
  induction arguments with
  | nil => cases member
  | cons first rest ih =>
      cases rest with
      | nil =>
          rw [List.mem_singleton.mp member, joined, List.intercalate_singleton]
      | cons next rest =>
          rw [joined_cons]
          cases List.mem_cons.mp member with
          | inl same =>
              rw [same]
              exact (List.prefix_append ..).isInfix
          | inr later =>
              exact (ih later).trans
                ⟨first ++ [',', ' '], [], by rw [List.append_nil, List.append_assoc]; rfl⟩

section Forms

variable {name : String} {inner : Text}

/-- The opening of a name with arguments. -/
theorem applied_eq_append {name opening : String} (opens : opening.toList = name.toList ++ ['('])
    (inner : Text) : applied name inner = opening.toList ++ (inner ++ [')']) := by
  rw [applied, opens, List.append_assoc, List.singleton_append]

theorem applied_simpleAggregateFunction (inner : Text) :
    applied "SimpleAggregateFunction" inner =
      "SimpleAggregateFunction(".toList ++ (inner ++ [')']) :=
  applied_eq_append (by decide +kernel) inner

@[simp] theorem stripOuter_applied : stripOuter (applied name inner) name = some inner :=
  stripOuter_eq_some_iff.mpr rfl

theorem maxParenDepth_le_applied : maxParenDepth inner ≤ maxParenDepth (applied name inner) :=
  maxParenDepth_le_of_isInfix ⟨name.toList ++ ['('], [')'], by simp [applied]⟩

/-- A text within the depth goes to the branches of the parser. -/
def Shallow (text : Text) : Prop :=
  maxParenDepth text ≤ maxTypeParseDepth

theorem Shallow.inside (shallow : Shallow (applied name inner)) : Shallow inner :=
  Nat.le_trans maxParenDepth_le_applied shallow

theorem Shallow.argument {arguments : List Text} (shallow : Shallow (joined arguments))
    {argument : Text} (member : argument ∈ arguments) : Shallow argument :=
  Nat.le_trans (maxParenDepth_le_of_isInfix (isInfix_joined member)) shallow

theorem typeForm_nullable (shallow : Shallow (applied "Nullable" inner)) :
    typeForm (applied "Nullable" inner) = .wrapped .nullable inner := by
  rw [typeForm, if_neg (Nat.not_lt.mpr shallow), stripOuter_applied]

theorem typeForm_lowCardinality (shallow : Shallow (applied "LowCardinality" inner)) :
    typeForm (applied "LowCardinality" inner) = .wrapped .lowCardinality inner := by
  have found := @stripOuter_applied "LowCardinality" inner
  rw [typeForm, if_neg (Nat.not_lt.mpr shallow)]
  unfold applied at found ⊢
  simp (disch := decide) only [stripOuter_apart, found]

theorem typeForm_fixedString (shallow : Shallow (applied "FixedString" inner)) :
    typeForm (applied "FixedString" inner) =
      .done ((parseUnsigned 64 inner).map .fixedString) := by
  have found := @stripOuter_applied "FixedString" inner
  rw [typeForm, if_neg (Nat.not_lt.mpr shallow)]
  unfold applied at found ⊢
  simp (disch := decide) only [stripOuter_apart, found]

theorem typeForm_dateTime64 (shallow : Shallow (applied "DateTime64" inner)) :
    typeForm (applied "DateTime64" inner) = .done (some (dateTime64Type inner)) := by
  have found := @stripOuter_applied "DateTime64" inner
  rw [typeForm, if_neg (Nat.not_lt.mpr shallow)]
  unfold applied at found ⊢
  simp (disch := decide) only [stripOuter_apart, found]

theorem typeForm_decimal (shallow : Shallow (applied "Decimal" inner)) :
    typeForm (applied "Decimal" inner) = .done (decimalType inner) := by
  have opening : applied "Decimal" inner = "Decimal(".toList ++ (inner ++ [')']) :=
    applied_eq_append (by decide +kernel) inner
  have found := @stripOuter_applied "Decimal" inner
  rw [typeForm, if_neg (Nat.not_lt.mpr shallow)]
  rw [opening] at found ⊢
  simp (disch := decide) only [stripOuter_apart, startsWith_apart, found, Bool.false_eq_true,
    if_false]

theorem typeForm_enum8 (shallow : Shallow (applied "Enum8" inner)) :
    typeForm (applied "Enum8" inner) = .done (some .enum8) := by
  have opening : applied "Enum8" inner = "Enum8(".toList ++ (inner ++ [')']) :=
    applied_eq_append (by decide +kernel) inner
  rw [typeForm, if_neg (Nat.not_lt.mpr shallow), opening]
  simp (disch := decide) only [stripOuter_apart, startsWith_apart, startsWith_append,
    Bool.false_eq_true, if_false, if_true]

theorem typeForm_enum16 (shallow : Shallow (applied "Enum16" inner)) :
    typeForm (applied "Enum16" inner) = .done (some .enum16) := by
  have opening : applied "Enum16" inner = "Enum16(".toList ++ (inner ++ [')']) :=
    applied_eq_append (by decide +kernel) inner
  rw [typeForm, if_neg (Nat.not_lt.mpr shallow), opening]
  simp (disch := decide) only [stripOuter_apart, startsWith_apart, startsWith_append,
    Bool.false_eq_true, if_false, if_true]

theorem typeForm_array (shallow : Shallow (applied "Array" inner)) :
    typeForm (applied "Array" inner) = .wrapped .array inner := by
  have found := @stripOuter_applied "Array" inner
  rw [typeForm, if_neg (Nat.not_lt.mpr shallow)]
  unfold applied at found ⊢
  simp (disch := decide) only [stripOuter_apart, startsWith_apart, found, Bool.false_eq_true,
    if_false]

theorem typeForm_tuple (shallow : Shallow (applied "Tuple" inner)) :
    typeForm (applied "Tuple" inner) = .listed .tuple (Native.splitTypeArgs inner) := by
  have found := @stripOuter_applied "Tuple" inner
  rw [typeForm, if_neg (Nat.not_lt.mpr shallow)]
  unfold applied at found ⊢
  simp (disch := decide) only [stripOuter_apart, startsWith_apart, found, Bool.false_eq_true,
    if_false]

theorem typeForm_map (shallow : Shallow (applied "Map" inner)) {key value : Text}
    (split : Native.splitTypeArgs inner = [key, value]) :
    typeForm (applied "Map" inner) = .keyed key value := by
  have found := @stripOuter_applied "Map" inner
  rw [typeForm, if_neg (Nat.not_lt.mpr shallow)]
  unfold applied at found ⊢
  simp (disch := decide) only [stripOuter_apart, startsWith_apart, found, split,
    Bool.false_eq_true, if_false]

theorem typeForm_variant (shallow : Shallow (applied "Variant" inner)) :
    typeForm (applied "Variant" inner) = .listed .variant (Native.splitTypeArgs inner) := by
  have found := @stripOuter_applied "Variant" inner
  rw [typeForm, if_neg (Nat.not_lt.mpr shallow)]
  unfold applied at found ⊢
  simp (disch := decide) only [stripOuter_apart, startsWith_apart, found, Bool.false_eq_true,
    if_false]

theorem typeForm_simpleAggregateFunction
    (shallow : Shallow (applied "SimpleAggregateFunction" inner)) {argument : Text}
    (cut : simpleAggregateArgument (applied "SimpleAggregateFunction" inner) = some argument) :
    typeForm (applied "SimpleAggregateFunction" inner) =
      .wrapped .simpleAggregateFunction argument := by
  rw [typeForm, if_neg (Nat.not_lt.mpr shallow)]
  rw [applied_simpleAggregateFunction] at cut ⊢
  simp (disch := decide) only [stripOuter_apart, startsWith_apart, startsWith_append, cut,
    Bool.false_eq_true, if_false, if_true]

end Forms

theorem scalarType_of_mem {entry : String × ColumnType} (member : entry ∈ scalarTypes) :
    scalarType entry.1.toList = some entry.2 := by
  have distinct : (scalarTypes.map Prod.fst).Nodup := by decide +kernel
  rw [scalarType]
  cases found : scalarTypes.find? fun other => other.1.toList == entry.1.toList with
  | none =>
      have absent := List.find?_eq_none.mp found entry member
      exact absurd (beq_self_eq_true _) absent
  | some other =>
      have matched := List.find?_some found
      have named : other.1 = entry.1 := String.toList_inj.mp (eq_of_beq matched)
      have same := List.inj_on_of_nodup_map distinct (List.mem_of_find?_eq_some found) member named
      rw [same]
      rfl

theorem parseText_scalar {entry : String × ColumnType} (member : entry ∈ scalarTypes) :
    parseText entry.1.toList = some entry.2 := by
  have plain : ∀ entry ∈ scalarTypes, '(' ∉ entry.1.toList ∨ entry.1 = "Object('json')" := by
    decide +kernel
  have shallow : ∀ entry ∈ scalarTypes, ¬ maxParenDepth entry.1.toList > maxTypeParseDepth := by
    decide +kernel
  cases plain entry member with
  | inl plain =>
      rw [parseText_eq, (solid_scalar member).trimmed,
        typeForm_of_shallow plain (shallow entry member), scalarType_of_mem member]
      rfl
  | inr json =>
      have named := scalarType_of_mem member
      rw [json] at named ⊢
      exact named

theorem parseUnsigned_digits {bits value : Nat} (fits : value < 2 ^ bits) :
    parseUnsigned bits (digits value) = some value := by
  have read := (parseDigits_eq_some_iff.mp (parseDigits_toDigits value)).2.2
  rw [digits, parseUnsigned_of_isDigits Nat.toDigits_ne_nil (isDigits_digits value), read,
    if_pos fits]

@[simp]
theorem parseU8_digits (value : BitVec 8) : parseU8 (digits value.toNat) = some value.toNat := by
  rw [parseU8, (solid_digits _).trimmed, parseUnsigned_digits value.isLt]

theorem level_digits (value : Nat) : Level (digits value) := by
  apply Level.of_all
  intro char member
  have digit := isDigits_digits value char member
  refine ⟨?_, ?_, ?_⟩
  all_goals
    rintro rfl
    cases digit

theorem Timezone.level (timezone : Timezone) : Level timezone.text := by
  apply Level.of_all
  intro char member
  rw [Timezone.text, List.mem_cons, List.mem_append, List.mem_singleton] at member
  rcases member with rfl | member | rfl
  · decide
  · exact (timezone.plain char member).2
  · decide

theorem argumentsApart_of_level {arguments : List Text}
    (level : ∀ argument ∈ arguments, Level argument) : ArgumentsApart arguments := by
  induction arguments with
  | nil => trivial
  | cons argument rest ih =>
      have ⟨here, later⟩ := List.forall_mem_cons.mp level
      exact ⟨here.uncut.1, fun _ => here.uncut.2, ih later⟩

theorem splitTypeArgs_of_levels {arguments : List Text}
    (plain : ∀ argument ∈ arguments, Solid argument ∧ Level argument) :
    Native.splitTypeArgs (joined arguments) = arguments :=
  (splitTypeArgs_joined_iff fun argument member => (plain argument member).1).mpr
    (argumentsApart_of_level fun argument member => (plain argument member).2)

theorem decimalType_digits (precision scale : BitVec 8) :
    decimalType (joined [digits precision.toNat, digits scale.toNat]) =
      some (TypeSyntax.decimalColumn precision.toNat scale.toNat) := by
  have cut : Native.splitTypeArgs (joined [digits precision.toNat, digits scale.toNat]) =
      [digits precision.toNat, digits scale.toNat] := by
    apply splitTypeArgs_of_levels
    intro argument member
    rcases List.mem_pair.mp member with rfl | rfl
    · exact ⟨solid_digits _, level_digits _⟩
    · exact ⟨solid_digits _, level_digits _⟩
  rw [decimalType, cut]
  dsimp only
  rw [parseU8_digits, parseU8_digits]
  simp only [bind, Option.bind, TypeSyntax.decimalColumn, pure, apply_ite some]

@[simp] theorem Timezone.trimMatches_text (timezone : Timezone) :
    trimMatches (· == Char.ofNat 39) timezone.text = timezone.name := by
  apply trimMatches_enclosed rfl
  intro char member
  exact beq_eq_false_iff_ne.mpr (timezone.plain char member).1

theorem dateTime64Type_written (precision : BitVec 8) (timezone : Option Timezone) :
    dateTime64Type (joined (digits precision.toNat :: timezone.toList.map Timezone.text)) =
      .dateTime64 precision.toNat (timezone.map fun timezone => String.ofList timezone.name) := by
  have cut : Native.splitTypeArgs
      (joined (digits precision.toNat :: timezone.toList.map Timezone.text)) =
        digits precision.toNat :: timezone.toList.map Timezone.text := by
    apply splitTypeArgs_of_levels
    intro argument member
    cases List.mem_cons.mp member with
    | inl same =>
        rw [same]
        exact ⟨solid_digits _, level_digits _⟩
    | inr zone =>
        obtain ⟨timezone, _, rfl⟩ := List.mem_map.mp zone
        exact ⟨timezone.solid, timezone.level⟩
  rw [dateTime64Type, cut]
  cases timezone with
  | none => simp [parseU8_digits]
  | some timezone =>
      have present : timezone.name.isEmpty = false := List.isEmpty_eq_false_iff.mpr timezone.present
      simp [parseU8_digits, timezone.solid.trimmed, timezone.trimMatches_text, present,
        Option.filter]

theorem simpleAggregateArgument_written (function : AggregateName) {inner : Text}
    (solid : Solid inner) :
    simpleAggregateArgument (applied "SimpleAggregateFunction" (joined [function.name, inner])) =
      some inner := by
  have single : joined [inner] = inner := List.intercalate_singleton
  have arguments : joined [function.name, inner] ++ [')'] =
      function.name ++ ',' :: ' ' :: (inner ++ [')']) := by
    rw [joined_cons, single, List.append_assoc, List.cons_append, List.cons_append]
  have comma := findFirstCommaFrom_append function.uncut function.closed (' ' :: (inner ++ [')']))
  have after : (function.name ++ ',' :: ' ' :: (inner ++ [')'])).drop
      (0 + function.name.length + 1) =
      ' ' :: (inner ++ [')']) := by
    rw [Nat.zero_add, List.drop_length_add_append, List.drop_one, List.tail_cons]
  have trimmed : trim (' ' :: (inner ++ [')'])) = inner ++ [')'] :=
    (solid.append (by simp) (by simp [isWhitespace])).trimmed
  have closed : (inner ++ [')']).dropSuffix? [')'] = some inner :=
    List.dropSuffix?_eq_some_iff.mpr ⟨_, rfl, beq_self_eq_true _⟩
  rw [applied_simpleAggregateFunction, arguments, simpleAggregateArgument]
  generalize "SimpleAggregateFunction(".toList = opening
  have stripped (rest : Text) : (opening ++ rest).dropPrefix? opening = some rest :=
    List.dropPrefix?_eq_some_iff.mpr ⟨_, rfl, beq_self_eq_true _⟩
  rw [stripped]
  simp only [bind, Option.bind, pure, findFirstCommaAtDepth0, comma, after, trimmed, closed,
    Option.getD_some]

theorem parseText_of_form {text : Text} {form : TypeForm} (solid : Solid text)
    (formed : typeForm text = form) : parseText text = form.parseWith parseText := by
  rw [parseText_eq, solid.trimmed, formed]

theorem parseText_wrapped {text argument : Text} {build : ColumnType → ColumnType}
    {inner : ColumnType} (solid : Solid text) (formed : typeForm text = .wrapped build argument)
    (read : parseText argument = some inner) : parseText text = some (build inner) := by
  rw [parseText_of_form solid formed, TypeForm.parseWith, read]
  rfl

theorem parseText_listed {text : Text} {build : List ColumnType → ColumnType}
    {types : List TypeSyntax} (solid : Solid text) (present : types ≠ [])
    (formed : typeForm text = .listed build (types.map TypeSyntax.text))
    (each : ∀ type ∈ types, parseText type.text = some type.columnType) :
    parseText text = some (build (types.map TypeSyntax.columnType)) := by
  have fields : (types.map TypeSyntax.text).filterMap parseText =
      types.map TypeSyntax.columnType := by
    rw [List.filterMap_map, ← List.filterMap_eq_map]
    exact List.filterMap_congr each
  rw [parseText_of_form solid formed, TypeForm.parseWith, fields]
  simp [present]

namespace TypeSyntax

/-- In every list of arguments in a type the arguments are apart. -/
def Apart (type : TypeSyntax) : Prop :=
  ∀ part : TypeSyntax, part.Within type → ArgumentsApart (part.listed.map text)

theorem Apart.child {type child : TypeSyntax} (apart : type.Apart)
    (member : child ∈ type.children) : child.Apart :=
  fun part within => apart part (.inside member within)

theorem Apart.cut {type : TypeSyntax} (apart : type.Apart) :
    Native.splitTypeArgs (joined (type.listed.map text)) = type.listed.map text := by
  apply (splitTypeArgs_joined_iff _).mpr (apart type (.whole type))
  intro argument member
  obtain ⟨type, _, rfl⟩ := List.mem_map.mp member
  exact type.solid

@[simp] theorem text_tuple (first : TypeSyntax) (rest : List TypeSyntax) :
    (tuple first rest).text = applied "Tuple" (joined ((first :: rest).map text)) := by
  rw [text, texts_eq, List.map_cons]

@[simp] theorem text_variant (first : TypeSyntax) (rest : List TypeSyntax) :
    (variant first rest).text = applied "Variant" (joined ((first :: rest).map text)) := by
  rw [text, texts_eq, List.map_cons]

theorem typeForm_enum (definition : EnumDefinition) (shallow : Shallow definition.typeName) :
    typeForm definition.typeName = .done (some (enumColumn definition.width)) := by
  rw [EnumDefinition.typeName_eq] at shallow ⊢
  revert shallow
  cases definition.width with
  | enum8 => exact fun shallow => typeForm_enum8 shallow
  | enum16 => exact fun shallow => typeForm_enum16 shallow

/-- The parser reads a type back from its name when it counts no depth past the cap and
cuts the arguments where they end. -/
theorem parseText_text {type : TypeSyntax} (shallow : Shallow type.text) (apart : type.Apart) :
    parseText type.text = some type.columnType := by
  induction type using induction_children with
  | step type ih =>
      have solid := type.solid
      cases type with
      | scalar entry listed => exact parseText_scalar listed
      | fixedString width =>
          rw [text] at shallow solid ⊢
          rw [parseText_of_form solid (typeForm_fixedString shallow), TypeForm.parseWith,
            parseUnsigned_digits width.isLt]
          rfl
      | decimal precision scale =>
          rw [text] at shallow solid ⊢
          rw [parseText_of_form solid (typeForm_decimal shallow), TypeForm.parseWith,
            decimalType_digits]
          rfl
      | dateTime64 precision timezone =>
          rw [text] at shallow solid ⊢
          rw [parseText_of_form solid (typeForm_dateTime64 shallow), TypeForm.parseWith,
            dateTime64Type_written]
          rfl
      | enum definition =>
          rw [text] at shallow solid ⊢
          rw [parseText_of_form solid (typeForm_enum definition shallow)]
          rfl
      | nullable inner =>
          have member : inner ∈ (nullable inner).children := List.mem_singleton.mpr rfl
          rw [text] at shallow solid ⊢
          exact parseText_wrapped solid (typeForm_nullable shallow)
            (ih inner member shallow.inside (apart.child member))
      | lowCardinality inner =>
          have member : inner ∈ (lowCardinality inner).children := List.mem_singleton.mpr rfl
          rw [text] at shallow solid ⊢
          exact parseText_wrapped solid (typeForm_lowCardinality shallow)
            (ih inner member shallow.inside (apart.child member))
      | array inner =>
          have member : inner ∈ (array inner).children := List.mem_singleton.mpr rfl
          rw [text] at shallow solid ⊢
          exact parseText_wrapped solid (typeForm_array shallow)
            (ih inner member shallow.inside (apart.child member))
      | simpleAggregateFunction function inner =>
          have member : inner ∈ (simpleAggregateFunction function inner).children :=
            List.mem_singleton.mpr rfl
          have cut := simpleAggregateArgument_written function inner.solid
          rw [text] at shallow solid ⊢
          exact parseText_wrapped solid (typeForm_simpleAggregateFunction shallow cut)
            (ih inner member (shallow.inside.argument (by simp)) (apart.child member))
      | tuple first rest =>
          have cut : Native.splitTypeArgs (joined ((first :: rest).map text)) =
              (first :: rest).map text := apart.cut
          rw [text_tuple] at shallow solid ⊢
          have formed := typeForm_tuple shallow
          rw [cut] at formed
          rw [columnType, columnTypes_eq, ← List.map_cons]
          apply parseText_listed solid (by simp) formed
          intro type member
          exact ih type member (shallow.inside.argument (List.mem_map_of_mem member))
            (apart.child member)
      | variant first rest =>
          have cut : Native.splitTypeArgs (joined ((first :: rest).map text)) =
              (first :: rest).map text := apart.cut
          rw [text_variant] at shallow solid ⊢
          have formed := typeForm_variant shallow
          rw [cut] at formed
          rw [columnType, columnTypes_eq, ← List.map_cons]
          apply parseText_listed solid (by simp) formed
          intro type member
          exact ih type member (shallow.inside.argument (List.mem_map_of_mem member))
            (apart.child member)
      | map key value =>
          have cut : Native.splitTypeArgs (joined [key.text, value.text]) =
              [key.text, value.text] := apart.cut
          have isKey : key ∈ (map key value).children := List.mem_cons_self
          have isValue : value ∈ (map key value).children :=
            List.mem_cons_of_mem key List.mem_cons_self
          rw [text] at shallow solid ⊢
          rw [parseText_of_form solid (typeForm_map shallow cut), TypeForm.parseWith,
            ih key isKey (shallow.inside.argument (by simp)) (apart.child isKey),
            ih value isValue (shallow.inside.argument (by simp)) (apart.child isValue)]
          rfl

end TypeSyntax

end DfeClickhouse.Dynamic
