import DfeClickhouse.Native.ColumnRoundTrip

/-!
# The start of a block

Rows that can be transposed into a block can be transposed without the last of them.
The dictionary of the rows before is the start of the dictionary of all.
-/

namespace DfeClickhouse.Native

open Library

/-- What can be written for some items can be written for the first of them. -/
def StartsWritten {α β : Type} (write : List α → Except Error β) : Prop :=
  ∀ first second result, write (first ++ second) = .ok result → ∃ part, write first = .ok part

namespace Dictionary

theorem intern_extends {dictionary after : Dictionary} {key : Option Bytes} {slot : Nat}
    (interned : dictionary.intern key = .ok (slot, after)) : dictionary.dict <+: after.dict := by
  cases key with
  | none =>
      cases interned
      exact List.prefix_refl _
  | some key =>
      rw [intern] at interned
      split at interned
      · split at interned
        · cases interned
          exact List.prefix_refl _
        · cases interned
          exact List.prefix_append _ _
      · cases interned

theorem internAll_cons_iff {dictionary after : Dictionary} {key : Option Bytes}
    {keys : List (Option Bytes)} {slots : List Nat} :
    dictionary.internAll (key :: keys) = .ok (slots, after) ↔
      ∃ slot others middle, dictionary.intern key = .ok (slot, middle) ∧
        middle.internAll keys = .ok (others, after) ∧ slots = slot :: others := by
  rw [internAll, Reader.ok_bind_iff]
  constructor
  · rintro ⟨⟨slot, middle⟩, head, rest⟩
    obtain ⟨⟨others, last⟩, tail, same⟩ := Reader.ok_bind_iff.mp rest
    cases same
    exact ⟨slot, others, middle, head, tail, rfl⟩
  · rintro ⟨slot, others, middle, head, tail, rfl⟩
    exact ⟨(slot, middle), head, Reader.ok_bind_iff.mpr ⟨(others, after), tail, rfl⟩⟩

theorem internAll_extends {dictionary after : Dictionary} {keys : List (Option Bytes)}
    {slots : List Nat} (interned : dictionary.internAll keys = .ok (slots, after)) :
    dictionary.dict <+: after.dict := by
  induction keys generalizing dictionary slots with
  | nil =>
      cases interned
      exact List.prefix_refl _
  | cons key keys ih =>
      obtain ⟨slot, others, middle, head, tail, -⟩ := internAll_cons_iff.mp interned
      exact (intern_extends head).trans (ih tail)

/-- The first keys are entered on the way to the last. -/
theorem internAll_append {dictionary after : Dictionary} {first second : List (Option Bytes)}
    {slots : List Nat} (interned : dictionary.internAll (first ++ second) = .ok (slots, after)) :
    ∃ before middle, dictionary.internAll first = .ok (before, middle) ∧
      middle.dict <+: after.dict := by
  induction first generalizing dictionary slots with
  | nil => exact ⟨[], dictionary, rfl, internAll_extends interned⟩
  | cons key first ih =>
      obtain ⟨slot, others, next, head, tail, -⟩ := internAll_cons_iff.mp interned
      obtain ⟨before, middle, start, kept⟩ := ih tail
      have entered := internAll_cons_iff.mpr ⟨slot, before, next, head, start, rfl⟩
      exact ⟨slot :: before, middle, entered, kept⟩

end Dictionary

theorem startsWritten_dictionary {isNullableInner : Bool} {dictType : ColumnType}
    {writeDict : List Bytes → Except Error Bytes} (starts : StartsWritten writeDict) :
    StartsWritten (writeDictionary isNullableInner dictType writeDict) := by
  intro first second result written
  rw [writeDictionary, List.map_append] at written
  obtain ⟨⟨slots, dictionary⟩, interned, written⟩ := Reader.ok_bind_iff.mp written
  obtain ⟨entries, wrote, _⟩ := Reader.ok_bind_iff.mp written
  obtain ⟨before, middle, start, added, same⟩ := Dictionary.internAll_append interned
  rw [← same] at wrote
  obtain ⟨part, wrote⟩ := starts _ _ _ wrote
  simp only [writeDictionary, start, wrote, bind, Except.bind]
  exact ⟨_, rfl⟩

theorem startsWritten_fields {fields : List ColumnType}
    (each : ∀ field ∈ fields, StartsWritten (writeColValues field)) :
    StartsWritten (writeFieldValues fields) := by
  intro first second result written
  induction fields generalizing first second result with
  | nil => exact ⟨[], rfl⟩
  | cons field fields ih =>
      rw [writeFieldValues, List.map_append, List.map_append] at written
      obtain ⟨column, head, written⟩ := Reader.ok_bind_iff.mp written
      obtain ⟨columns, tail, _⟩ := Reader.ok_bind_iff.mp written
      obtain ⟨column, head⟩ := each field (by simp) _ _ _ head
      obtain ⟨columns, tail⟩ := ih (fun field member => each field (by simp [member])) _ _ _ tail
      refine ⟨column ++ columns, ?_⟩
      rw [writeFieldValues, head, tail]
      rfl

/-- The values of a column that admits NULL, all of them present. -/
theorem startsWritten_of_nullable {inner : ColumnType}
    (starts : StartsWritten (writeColValues (.nullable inner))) :
    StartsWritten (writeColValues inner) := by
  have slots : ∀ values : List Bytes, (values.map (List.cons 0)).mapM
      (splitNullable (rbWriteDefault inner)) = .ok (values.map fun value => (0, value)) := by
    intro values
    rw [List.mapM_map]
    apply Reader.mapM_ok
    intro value _
    rfl
  intro first second result written
  have whole : writeColValues (.nullable inner)
      (first.map (List.cons 0) ++ second.map (List.cons 0)) =
        .ok ((first ++ second).map (fun _ => 0) ++ result) := by
    rw [← List.map_append, writeColValues, slots]
    apply Reader.ok_bind_iff.mpr
    refine ⟨_, rfl, ?_⟩
    simp only [List.map_map, Function.comp_def, List.map_id']
    rw [written]
    rfl
  obtain ⟨part, wrote⟩ := starts _ _ _ whole
  rw [writeColValues, slots] at wrote
  obtain ⟨_, ⟨⟩, wrote⟩ := Reader.ok_bind_iff.mp wrote
  simp only [List.map_map, Function.comp_def, List.map_id'] at wrote
  obtain ⟨payload, wrote, _⟩ := Reader.ok_bind_iff.mp wrote
  exact ⟨payload, wrote⟩

theorem startsWritten_colValues (colType : ColumnType) :
    StartsWritten (writeColValues colType) := by
  induction colType using ColumnType.induction_forms with
  | fixed colType width fixed =>
      intro first second result _
      exact ⟨_, writeColValues_of_fixed fixed first⟩
  | string | json | newJson =>
      intro first second result _
      exact ⟨first.flatten, rfl⟩
  | dynamic | point | simpleAggregateFunction | variant =>
      intro first second result written
      cases written
  | nullable inner ih =>
      intro first second result written
      rw [writeColValues] at written
      obtain ⟨slots, split, written⟩ := Reader.ok_bind_iff.mp written
      obtain ⟨before, after, start, rfl⟩ := Reader.mapM_append_ok split
      obtain ⟨payload, wrote, _⟩ := Reader.ok_bind_iff.mp written
      rw [List.map_append] at wrote
      obtain ⟨part, wrote⟩ := ih _ _ _ wrote
      refine ⟨before.map Prod.fst ++ part, ?_⟩
      rw [writeColValues, start]
      apply Reader.ok_bind_iff.mpr
      refine ⟨before, rfl, ?_⟩
      rw [wrote]
      rfl
  | lowCardinality inner ih =>
      have entries : StartsWritten (writeColValues (dictionaryType inner).1) := by
        rcases dictionaryType_cases inner with ⟨type, rfl, same⟩ | same
        · rw [same]
          exact startsWritten_of_nullable ih
        · rw [same]
          exact ih
      intro first second result written
      rw [writeColValues_lowCardinality] at written ⊢
      exact startsWritten_dictionary entries first second result written
  | array inner ih =>
      intro first second result written
      rw [writeColValues] at written
      obtain ⟨rows, split, written⟩ := Reader.ok_bind_iff.mp written
      obtain ⟨before, after, start, rfl⟩ := Reader.mapM_append_ok split
      obtain ⟨payload, wrote, _⟩ := Reader.ok_bind_iff.mp written
      rw [List.flatten_append] at wrote
      obtain ⟨part, wrote⟩ := ih _ _ _ wrote
      refine ⟨writeOffsets before ++ part, ?_⟩
      rw [writeColValues]
      apply Reader.ok_bind_iff.mpr
      refine ⟨before, start, ?_⟩
      rw [wrote]
      rfl
  | map keyType valType keyIh valIh =>
      intro first second result written
      rw [writeColValues] at written
      obtain ⟨rows, split, written⟩ := Reader.ok_bind_iff.mp written
      obtain ⟨before, after, start, rfl⟩ := Reader.mapM_append_ok split
      obtain ⟨keys, wroteKeys, written⟩ := Reader.ok_bind_iff.mp written
      obtain ⟨vals, wroteVals, _⟩ := Reader.ok_bind_iff.mp written
      rw [List.flatten_append, List.map_append] at wroteKeys wroteVals
      obtain ⟨keys, wroteKeys⟩ := keyIh _ _ _ wroteKeys
      obtain ⟨vals, wroteVals⟩ := valIh _ _ _ wroteVals
      refine ⟨writeOffsets before ++ keys ++ vals, ?_⟩
      rw [writeColValues]
      apply Reader.ok_bind_iff.mpr
      refine ⟨before, start, ?_⟩
      rw [wroteKeys, wroteVals]
      rfl
  | tuple fields ih =>
      intro first second result written
      rw [writeColValues] at written
      obtain ⟨rows, split, written⟩ := Reader.ok_bind_iff.mp written
      obtain ⟨before, after, start, rfl⟩ := Reader.mapM_append_ok split
      obtain ⟨part, wrote⟩ := startsWritten_fields ih _ _ _ written
      refine ⟨part, ?_⟩
      rw [writeColValues]
      exact Reader.ok_bind_iff.mpr ⟨before, start, wrote⟩

theorem startsWritten_columns (revision : Nat) (columns : List ColumnSchema) :
    StartsWritten (writeColumns revision columns) := by
  intro first second result written
  induction columns generalizing first second result with
  | nil => exact ⟨[], rfl⟩
  | cons column columns ih =>
      rw [writeColumns, List.map_append, List.map_append] at written
      obtain ⟨values, head, written⟩ := Reader.ok_bind_iff.mp written
      obtain ⟨rest, tail, _⟩ := Reader.ok_bind_iff.mp written
      obtain ⟨values, head⟩ := startsWritten_colValues column.colType _ _ _ head
      obtain ⟨rest, tail⟩ := ih _ _ _ tail
      rw [writeColumns, head, tail]
      exact ⟨_, rfl⟩

/-- Rows that are transposed can be transposed without the last of them. -/
theorem encodeColumns_start {first second : List Bytes} {columns : List ColumnSchema}
    {revision : Nat} {bytes : Bytes}
    (encoded : encodeColumns (first ++ second) columns revision = .ok bytes) :
    ∃ part, encodeColumns first columns revision = .ok part := by
  by_cases trivial : (columns.isEmpty || first.isEmpty) = true
  · exact ⟨[], by rw [encodeColumns, if_pos trivial]⟩
  · have whole : ¬ (columns.isEmpty || (first ++ second).isEmpty) = true := by
      simp only [Bool.or_eq_true, List.isEmpty_iff, List.append_eq_nil_iff] at trivial ⊢
      exact fun empty => trivial (empty.imp id And.left)
    rw [encodeColumns, if_neg whole] at encoded
    obtain ⟨cells, split, written⟩ := Reader.ok_bind_iff.mp encoded
    obtain ⟨before, after, start, rfl⟩ := Reader.mapM_append_ok split
    obtain ⟨part, wrote⟩ := startsWritten_columns revision columns _ _ _ written
    refine ⟨part, ?_⟩
    rw [encodeColumns, if_neg trivial]
    exact Reader.ok_bind_iff.mpr ⟨before, start, wrote⟩

end DfeClickhouse.Native
