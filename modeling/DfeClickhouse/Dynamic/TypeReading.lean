import DfeClickhouse.Dynamic.TypeSyntax

/-!
# Reading type names back

For which types the native parser reads the type back from its name, and that these are all
types of nesting within the cap, as long as the labels of their enums hold no parentheses.
-/

namespace DfeClickhouse.Dynamic

open Library Native

namespace TypeSyntax

mutual

/-- The parentheses around the innermost part of a name, quoted labels not counted. -/
def nesting : TypeSyntax → Nat
  | scalar entry _ => maxParenDepth entry.1.toList
  | fixedString _ | decimal _ _ | dateTime64 _ _ | enum _ => 1
  | nullable inner | lowCardinality inner | array inner => inner.nesting + 1
  | tuple first rest | variant first rest => max first.nesting (nestings rest) + 1
  | map key value => max key.nesting value.nesting + 1
  | simpleAggregateFunction function inner =>
      max (maxParenDepth function.name) inner.nesting + 1

def nestings : List TypeSyntax → Nat
  | [] => 0
  | first :: rest => max first.nesting (nestings rest)

end

/-- As the parser counts, the name is within the cap and its arguments are apart. -/
structure Readable (type : TypeSyntax) : Prop where
  shallow : maxParenDepth type.text ≤ maxTypeParseDepth
  apart : type.Apart

/-- The type is read back from its name, and every argument in it is cut out as it is
written. -/
structure ParsesBack (type : TypeSyntax) : Prop where
  parsed : ColumnType.parse (String.ofList type.text) = some type.columnType
  present : ∀ part : TypeSyntax, part.Within type →
    Native.splitTypeArgs (joined (part.listed.map text)) = part.listed.map text

theorem solid_listed (type : TypeSyntax) : ∀ argument ∈ type.listed.map text, Solid argument := by
  intro argument member
  obtain ⟨child, _, rfl⟩ := List.mem_map.mp member
  exact child.solid

theorem shallow_of_parseText {text : Text} (solid : Solid text) {columnType : ColumnType}
    (parsed : parseText text = some columnType) : Shallow text := by
  rw [parseText_eq, solid.trimmed] at parsed
  exact Nat.not_lt.mp (Denotes.shallow parsed)

theorem parsesBack_iff (type : TypeSyntax) : type.ParsesBack ↔ type.Readable := by
  have read : ColumnType.parse (String.ofList type.text) = parseText type.text := by
    rw [ColumnType.parse, String.toList_ofList]
  constructor
  · intro back
    constructor
    · exact shallow_of_parseText type.solid (read.symm.trans back.parsed)
    · intro part within
      exact (splitTypeArgs_joined_iff part.solid_listed).mp (back.present part within)
  · intro readable
    constructor
    · exact read.trans (parseText_text readable.shallow readable.apart)
    · intro part within
      exact (splitTypeArgs_joined_iff part.solid_listed).mpr (readable.apart part within)

/-- `Tuple(Enum8('a(' = 1), String)` -/
def openLabel : TypeSyntax :=
  .tuple
    (.enum {
      width := .enum8
      members := [⟨['a', '('], 1⟩]
      distinct := by decide
      inRange := by decide })
    [.scalar ("String", .string) (by simp [scalarTypes])]

/-- The string is lost in the label: the tuple that is read has one field. -/
theorem parse_fails_openLabel :
    ¬ ∀ type : TypeSyntax, type.nesting ≤ maxTypeParseDepth →
      ColumnType.parse (String.ofList type.text) = some type.columnType := by
  intro reads
  have read := reads openLabel (by decide)
  have one : ColumnType.parse (String.ofList openLabel.text) = some (.tuple [.enum8]) := rfl
  rw [one] at read
  cases read

end TypeSyntax

/-- An enclosed text without commas at depth zero, as the name of a type is. -/
structure Whole (nesting : Nat) (text : Text) : Prop extends Enclosed nesting text where
  uncutOutside : findFirstCommaAtDepth0 text = none

theorem Whole.of_plain {text : Text} (plain : ∀ char ∈ text, char ≠ ',' ∧ char ≠ '(' ∧ char ≠ ')') :
    Whole 0 text where
  toEnclosed := .of_plain fun char member => (plain char member).2
  uncutOutside := findFirstCommaFrom_eq_none (fun member => (plain _ member).1 rfl) 0 0

theorem Whole.applied {nesting : Nat} {name : String} {inner : Text}
    (named : ∀ char ∈ name.toList, char ≠ ',' ∧ char ≠ '(' ∧ char ≠ ')')
    (enclosed : Enclosed nesting inner) : Whole (nesting + 1) (applied name inner) where
  toEnclosed := by
    have whole := (Whole.of_plain named).append enclosed.parenthesized
    rwa [Nat.zero_max] at whole
  uncutOutside := by
    apply findFirstCommaFrom_append_eq_none (Whole.of_plain named).uncutOutside
    intro later
    exact enclosed.uncut_parenthesized _ later

/-- The deepest of some nestings. -/
def deepestOf (nestings : List Nat) : Nat :=
  nestings.foldr max 0

theorem Enclosed.joined {α : Type} {items : List α} {nesting : α → Nat} {text : α → Text}
    (each : ∀ item ∈ items, Enclosed (nesting item) (text item)) :
    Enclosed (deepestOf (items.map nesting)) (joined (items.map text)) := by
  induction items with
  | nil => exact .of_plain (by simp [Dynamic.joined])
  | cons first rest ih =>
      obtain ⟨here, later⟩ := List.forall_mem_cons.mp each
      cases rest with
      | nil =>
          rw [List.map_singleton, List.map_singleton, deepestOf, List.foldr_cons, List.foldr_nil,
            Nat.max_zero, Dynamic.joined, List.intercalate_singleton]
          exact here
      | cons next rest =>
          have separator : Enclosed 0 [',', ' '] := .of_plain (by simp)
          have listed := here.append (separator.append (ih later))
          rw [Nat.zero_max] at listed
          show Enclosed (max (nesting first) (deepestOf ((next :: rest).map nesting)))
            (Dynamic.joined (text first :: text next :: rest.map text))
          rw [joined_cons]
          exact listed

/-- Arguments without parentheses. -/
theorem Enclosed.joined_plain {arguments : List Text}
    (plain : ∀ argument ∈ arguments, Enclosed 0 argument) :
      Enclosed 0 (Dynamic.joined arguments) := by
  have listed := @Enclosed.joined _ arguments (fun _ => 0) id plain
  have flat : deepestOf (arguments.map fun _ => 0) = 0 := by
    clear plain listed
    induction arguments with
    | nil => rfl
    | cons argument rest ih =>
        rw [List.map_cons, deepestOf, List.foldr_cons, Nat.zero_max]
        exact ih
  rwa [flat, List.map_id] at listed

theorem Enclosed.maxParenDepth_eq {nesting : Nat} {text : Text} (enclosed : Enclosed nesting text) :
    maxParenDepth text = nesting := by
  rw [maxParenDepth, enclosed.reaches 0 0 (Nat.le_refl 0), Nat.zero_max, Nat.zero_add]

theorem enclosed_digits (value : Nat) : Enclosed 0 (digits value) := by
  apply Enclosed.of_plain
  intro char member
  constructor
  · rintro rfl
    cases isDigits_digits value _ member
  · rintro rfl
    cases isDigits_digits value _ member

theorem Timezone.enclosed (timezone : Timezone) : Enclosed 0 timezone.text := by
  apply Enclosed.of_plain
  intro char member
  rw [Timezone.text, List.mem_cons, List.mem_append, List.mem_singleton] at member
  rcases member with rfl | member | rfl
  · decide
  · exact (timezone.plain char member).2.2
  · decide

namespace TypeSyntax

/-- No label of an enum in a type holds a parenthesis, and no function has parameters. -/
def Plain (type : TypeSyntax) : Prop :=
  ∀ part : TypeSyntax, part.Within type →
    (∀ definition, part = .enum definition → ∀ item ∈ definition.members, ∀ char ∈ item.label,
      char ≠ '(' ∧ char ≠ ')') ∧
    ∀ function inner, part = .simpleAggregateFunction function inner →
      ∀ char ∈ function.name, char ≠ '(' ∧ char ≠ ')'

theorem Within.trans {part middle type : TypeSyntax} (inner : part.Within middle)
    (outer : middle.Within type) : part.Within type := by
  induction outer with
  | whole => exact inner
  | inside member _ ih => exact .inside member ih

theorem Plain.of_within {part type : TypeSyntax} (plain : type.Plain) (within : part.Within type) :
    part.Plain :=
  fun inner inside => plain inner (inside.trans within)

theorem Plain.child {type child : TypeSyntax} (plain : type.Plain)
    (member : child ∈ type.children) :
    child.Plain :=
  plain.of_within (.inside member (.whole child))

@[simp]
theorem nestings_eq (types : List TypeSyntax) : nestings types = deepestOf (types.map nesting) := by
  induction types with
  | nil => rfl
  | cons first rest ih =>
      rw [nestings, ih]
      rfl

theorem plain_escapeChar {original char : Char} (plain : original ≠ '(' ∧ original ≠ ')')
    (member : char ∈ escapeChar original) : char ≠ '(' ∧ char ≠ ')' := by
  have codes : ∀ entry ∈ escapeCodes, entry.2 ≠ '(' ∧ entry.2 ≠ ')' := by decide
  rw [escapeChar] at member
  split at member
  · rename_i code found
    obtain ⟨front, back, split, _⟩ := List.lookup_eq_some_iff.mp found
    have listed : (original, code) ∈ escapeCodes := split ▸ by simp
    rcases List.mem_pair.mp member with rfl | rfl
    · decide
    · exact codes _ listed
  · rw [List.mem_singleton.mp member]
    exact plain

theorem enclosed_memberText {item : EnumMember}
    (plain : ∀ char ∈ item.label, char ≠ '(' ∧ char ≠ ')') :
    Enclosed 0 item.text := by
  have written : ∀ char ∈ writtenLabel item.label, char ≠ '(' ∧ char ≠ ')' := by
    intro char member
    obtain ⟨original, inside, shown⟩ := List.mem_flatMap.mp member
    exact plain_escapeChar (plain original inside) shown
  have ordinal : ∀ char ∈ (toString item.ordinal).toList, char ≠ '(' ∧ char ≠ ')' := by
    intro char member
    constructor
    · rintro rfl
      cases mem_toString_int member with
      | inl minus => cases minus
      | inr digit => cases digit
    · rintro rfl
      cases mem_toString_int member with
      | inl minus => cases minus
      | inr digit => cases digit
  apply Enclosed.of_plain
  rw [EnumMember.text]
  simp only [List.forall_mem_cons, List.forall_mem_append]
  exact ⟨by decide, written, by decide, by decide, by decide, by decide, ordinal⟩

theorem whole_scalar {entry : String × ColumnType} (member : entry ∈ scalarTypes) :
    ∃ nesting, Whole nesting entry.1.toList := by
  have forms : (scalarTypes.all fun entry => (entry.1.toList.all fun char =>
      char != ',' && char != '(' && char != ')') || entry.1 == "Object('json')") = true := by
    decide +kernel
  have form := List.all_eq_true.mp forms entry member
  rw [Bool.or_eq_true] at form
  cases form with
  | inl plain =>
      refine ⟨0, .of_plain ?_⟩
      intro char inside
      have other := List.all_eq_true.mp plain char inside
      simpa [and_assoc] using other
  | inr same =>
      have json := eq_of_beq same
      have split : "Object('json')".toList = applied "Object" "'json'".toList := by decide +kernel
      rw [json, split]
      exact ⟨1, .applied (by simp) (.of_plain (by simp))⟩

/-- Where no label holds a parenthesis the parser counts the nesting of the type. -/
theorem whole_text {type : TypeSyntax} (plain : type.Plain) : Whole type.nesting type.text := by
  induction type using induction_children with
  | step type ih =>
      have each (child : TypeSyntax) (member : child ∈ type.children) :
          Enclosed child.nesting child.text :=
        (ih child member (plain.child member)).toEnclosed
      cases type with
      | scalar entry listed =>
          obtain ⟨depth, whole⟩ := whole_scalar listed
          rw [nesting, whole.maxParenDepth_eq]
          exact whole
      | fixedString width => exact .applied (by simp) (enclosed_digits _)
      | decimal precision scale =>
          apply Whole.applied (by simp)
          apply Enclosed.joined_plain
          simp only [List.forall_mem_cons]
          exact ⟨enclosed_digits _, enclosed_digits _, by simp⟩
      | dateTime64 precision timezone =>
          apply Whole.applied (by simp)
          apply Enclosed.joined_plain
          intro argument member
          cases List.mem_cons.mp member with
          | inl same =>
              rw [same]
              exact enclosed_digits _
          | inr zone =>
              obtain ⟨timezone, _, rfl⟩ := List.mem_map.mp zone
              exact timezone.enclosed
      | enum definition =>
          have labels := (plain _ (.whole _)).1 definition rfl
          rw [text, EnumDefinition.typeName_eq]
          apply Whole.applied
          · cases definition.width <;> simp [enumName]
          · apply Enclosed.joined_plain
            intro argument member
            obtain ⟨item, listed, rfl⟩ := List.mem_map.mp member
            exact enclosed_memberText (labels item listed)
      | nullable inner => exact .applied (by simp) (each inner (List.mem_singleton.mpr rfl))
      | lowCardinality inner => exact .applied (by simp) (each inner (List.mem_singleton.mpr rfl))
      | array inner => exact .applied (by simp) (each inner (List.mem_singleton.mpr rfl))
      | tuple first rest =>
          rw [text_tuple, nesting, nestings_eq]
          exact .applied (by simp) (Enclosed.joined each)
      | variant first rest =>
          rw [text_variant, nesting, nestings_eq]
          exact .applied (by simp) (Enclosed.joined each)
      | map key value =>
          rw [nesting, ← Nat.max_zero value.nesting]
          exact .applied (by simp) (Enclosed.joined each)
      | simpleAggregateFunction function inner =>
          have name := (plain _ (.whole _)).2 function inner rfl
          have pair : ∀ item ∈ [(0, function.name), (inner.nesting, inner.text)],
              Enclosed item.1 item.2 := by
            simp only [List.forall_mem_cons]
            exact ⟨.of_plain name, each inner (List.mem_singleton.mpr rfl), by simp⟩
          have listed := Enclosed.joined pair
          rw [nesting, (Enclosed.of_plain name).maxParenDepth_eq, ← Nat.max_zero inner.nesting]
          exact .applied (by simp) listed

theorem argumentsApart_of_whole {types : List TypeSyntax}
    (each : ∀ type ∈ types, Whole type.nesting type.text) : ArgumentsApart (types.map text) := by
  induction types with
  | nil => trivial
  | cons first rest ih =>
      obtain ⟨here, later⟩ := List.forall_mem_cons.mp each
      exact ⟨here.uncutOutside, fun _ => here.closed 0, ih later⟩

theorem mem_children_of_mem_listed {type child : TypeSyntax} (member : child ∈ type.listed) :
    child ∈ type.children := by
  cases type <;> first | exact member | cases member

theorem apart_of_plain {type : TypeSyntax} (plain : type.Plain) : type.Apart := by
  intro part within
  apply argumentsApart_of_whole
  intro child member
  exact whole_text ((plain.of_within within).child (mem_children_of_mem_listed member))

/-- Without parentheses in its labels a type is read back exactly when its nesting is within
the cap. -/
theorem readable_iff_of_plain {type : TypeSyntax} (plain : type.Plain) :
    type.Readable ↔ type.nesting ≤ maxTypeParseDepth := by
  have counted := (whole_text plain).maxParenDepth_eq
  constructor
  · intro readable
    exact counted ▸ readable.shallow
  · intro within
    exact ⟨counted ▸ within, apart_of_plain plain⟩

end TypeSyntax

end DfeClickhouse.Dynamic
