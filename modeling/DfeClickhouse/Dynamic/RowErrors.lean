import DfeClickhouse.Dynamic.Encode

/-!
# Errors of a row

Every failure of the encoder is about the row, and names the column it comes from.
-/

namespace DfeClickhouse.Dynamic

open Library

/-- An error about the value or the type of a column. -/
def Blames (col : String) (error : DynamicError) : Prop :=
  (∃ message, error = .encodingError col message) ∨ ∃ typeStr, error = .unsupportedType col typeStr

/-- Every failure is about a column. -/
class FailsFor {α : Type} (col : String) (outcome : Except DynamicError α) : Prop where
  blames {error : DynamicError} (failed : outcome = .error error) : Blames col error

namespace FailsFor

variable {α β : Type} {col : String}

instance ok (value : α) : FailsFor col (.ok value) where
  blames failed := by cases failed

instance pure (value : α) : FailsFor col (pure value) where
  blames failed := by cases failed

instance encErr (message : String) : FailsFor col (encErr col message : Except DynamicError α) where
  blames failed := by
    cases failed
    exact .inl ⟨message, rfl⟩

instance orErr (message : String) (found : Option α) : FailsFor col (orErr col message found) where
  blames failed := by
    cases found with
    | some value => cases failed
    | none =>
        cases failed
        exact .inl ⟨message, rfl⟩

instance unsupported (info : TypeInfo) :
    FailsFor col (.error (unsupported col info) : Except DynamicError α) where
  blames failed := by
    cases failed
    exact .inr ⟨_, rfl⟩

instance bind (outcome : Except DynamicError α) (next : α → Except DynamicError β)
    [first : FailsFor col outcome] [second : ∀ value, FailsFor col (next value)] :
    FailsFor col (outcome >>= next) where
  blames failed := by
    cases outcome with
    | error error =>
        cases failed
        exact first.blames rfl
    | ok value => exact (second value).blames failed

instance ite (condition : Prop) [Decidable condition] (one other : Except DynamicError α)
    [FailsFor col one] [FailsFor col other] :
    FailsFor col (if condition then one else other) := by
  split <;> infer_instance

end FailsFor

section Coercions

variable (value : Value) (col : String)

instance (fromNumber : Number → Option Int) (numberError : String)
    (fromText : String → Option Int) (textError : String) :
    FailsFor col (asInteger fromNumber numberError fromText textError value col) := by
  unfold asInteger
  split <;> infer_instance

instance : FailsFor col (asU64 value col) := by
  unfold asU64
  infer_instance

instance : FailsFor col (asI64 value col) := by
  unfold asI64
  infer_instance

instance : FailsFor col (asU128 value col) := by
  unfold asU128
  infer_instance

instance : FailsFor col (asI128 value col) := by
  unfold asI128
  infer_instance

instance : FailsFor col (asF64 value col) := by
  unfold asF64
  split <;> infer_instance

instance : FailsFor col (asBool value col) := by
  unfold asBool
  split <;> infer_instance

instance (fits : Int → Option Int) (wide : Int) (typeName : String) :
    FailsFor col (narrow fits wide col typeName) := by
  unfold narrow
  infer_instance

instance (json : JsonText) (scale : Nat) :
    FailsFor col (decimalBackingI128 json value scale col) := by
  unfold decimalBackingI128
  have scaled : ∀ text : Text, FailsFor col (match decimalFromText text scale with
      | some backing => (Pure.pure backing : Except DynamicError Int)
      | none =>
          let digits := text.dropWhile fun char => char == '+' || char == '-'
          if digits.any Char.isDigit && digits.all (fun char => char.isDigit || char == '.') then
            encErr col "decimal out of range"
          else do
            let parsed ← orErr col "not parseable as a decimal" (Binary64.parse text)
            let scaled := parsed.mul (Binary64.powi (.ofInt 10) (.ofInt 1) 8 scale)
            if !scaled.isFinite ∨ scaled.round ≥ 2 ^ 127 ∨ scaled.round < -2 ^ 127 then
              encErr col "decimal out of range after scaling"
            else
              return scaled.round) := by
    intro text
    split <;> infer_instance
  cases value <;> dsimp only <;> infer_instance

instance (text : Text) : FailsFor col (datetimeOf text col) := by
  unfold datetimeOf
  split <;> infer_instance

instance : FailsFor col (toEpochSeconds value col) := by
  unfold toEpochSeconds
  split
  · infer_instance
  · split <;> infer_instance
  · infer_instance

instance (days : Int) : FailsFor col (narrowDays days col) := by
  unfold narrowDays
  infer_instance

instance (text : Text) : FailsFor col (dateDays text col) := by
  unfold dateDays
  infer_instance

instance : FailsFor col (epochDays value col) := by
  unfold epochDays
  infer_instance

instance : FailsFor col (toEpochDays value col) := by
  unfold toEpochDays
  split <;> infer_instance

instance (precision : Nat) : FailsFor col (datetime64ToTicks value precision col) := by
  unfold datetime64ToTicks
  split
  · infer_instance
  · split <;> infer_instance
  · infer_instance

instance (typeStr : Text) : FailsFor col (enumDiscriminant value typeStr col) := by
  unfold enumDiscriminant
  split
  · infer_instance
  · infer_instance
  · split <;> infer_instance
  · infer_instance

instance (json : JsonText) : FailsFor col (uuidBytes json value col) := by
  unfold uuidBytes
  infer_instance

instance (json : JsonText) : FailsFor col (ipv4Bytes json value col) := by
  unfold ipv4Bytes
  dsimp only
  split <;> infer_instance

instance (json : JsonText) : FailsFor col (ipv6Bytes json value col) := by
  unfold ipv6Bytes
  infer_instance

end Coercions

section Cells

variable (col : String)

instance (width : Nat) (bytes : Bytes) : FailsFor col (fixedStringBytes width bytes col) := by
  unfold fixedStringBytes
  infer_instance

instance (width : Nat) (wide : Except DynamicError Int) [FailsFor col wide]
    (fits : Nat → Int → Option Int) (typeName : String) :
    FailsFor col (narrowed width wide fits col typeName) := by
  unfold narrowed
  infer_instance

instance (width : Nat) (wide : Except DynamicError Int) [FailsFor col wide]
    (fits : Nat → Int → Option Int) (message : String) :
    FailsFor col (checked width wide fits col message) := by
  unfold checked
  infer_instance

instance (value : Value) : FailsFor col (float32Bytes value col) := by
  unfold float32Bytes
  infer_instance

instance (json : JsonText) (info : TypeInfo) (value : Value) :
    FailsFor col (scalarCell json info value col) := by
  unfold scalarCell
  split <;> infer_instance

instance (info : TypeInfo) : FailsFor col (defaultCell info col) := by
  unfold defaultCell
  split
  · infer_instance
  · split
    all_goals first
      | infer_instance
      | split <;> infer_instance

end Cells

section Writers

variable {α β : Type} {col : String}

instance (bytes : Bytes) : FailsFor col (Writer.put bytes : CellWriter).result :=
  FailsFor.ok ()

instance (outcome : Except DynamicError α) [FailsFor col outcome] :
    FailsFor col (Writer.ofExcept outcome : Writer UInt8 DynamicError α).result :=
  inferInstanceAs (FailsFor col outcome)

instance (info : TypeInfo) :
    FailsFor col (Writer.fail (unsupported col info) : CellWriter).result :=
  inferInstanceAs (FailsFor col (.error (unsupported col info)))

instance (writer : Library.Writer UInt8 DynamicError α)
    (next : α → Library.Writer UInt8 DynamicError β)
    [first : FailsFor col writer.result] [second : ∀ value, FailsFor col (next value).result] :
    FailsFor col (writer >>= next).result where
  blames failed := by
    rw [Writer.result_bind] at failed
    cases result : writer.result with
    | error error =>
        rw [result] at failed
        cases failed
        exact first.blames result
    | ok value =>
        rw [result] at failed
        exact (second value).blames failed

instance (writer : α → CellWriter) [∀ item, FailsFor col (writer item).result] (items : List α) :
    FailsFor col (Writer.each writer items).result := by
  induction items with
  | nil => exact FailsFor.ok ()
  | cons item items ih =>
      rw [Writer.each]
      infer_instance

theorem failsFor_encodeFlagged (info : TypeInfo) (value : Value) {typed : Value → CellWriter}
    (each : ∀ value, FailsFor col (typed value).result) :
    FailsFor col (encodeFlagged info col value typed).result := by
  unfold encodeFlagged
  split
  · infer_instance
  · infer_instance
  · unfold writeDefault
    infer_instance
  · infer_instance

theorem failsFor_encodeValue (json : JsonText) (parsed : ParsedType) (value : Value) :
    FailsFor col (encodeValue json col parsed value).result := by
  induction parsed generalizing value with
  | plain info =>
      apply failsFor_encodeFlagged
      intro value
      infer_instance
  | array info element ih =>
      apply failsFor_encodeFlagged
      intro value
      unfold encodeArray
      split <;> infer_instance
  | map info key val keyIh valIh =>
      apply failsFor_encodeFlagged
      intro value
      unfold encodeMap
      split
      · split <;> infer_instance
      · infer_instance

instance (json : JsonText) (row : DynamicRow) (column : ColumnDef) :
    FailsFor column.name (row.encodeColumn json column).result := by
  unfold DynamicRow.encodeColumn
  split
  · infer_instance
  · exact failsFor_encodeValue ..

theorem blames_of_each {json : JsonText} {row : DynamicRow} {columns : List ColumnDef}
    {error : DynamicError}
    (failed : (Writer.each (row.encodeColumn json) columns).result = .error error) :
    ∃ column ∈ columns, Blames column.name error := by
  induction columns with
  | nil => cases failed
  | cons column columns ih =>
      rw [Writer.each, Writer.result_bind] at failed
      cases first : (row.encodeColumn json column).result with
      | error blamed =>
          rw [first] at failed
          cases failed
          exact ⟨column, by simp, FailsFor.blames first⟩
      | ok value =>
          rw [first] at failed
          obtain ⟨other, member, blames⟩ := ih failed
          exact ⟨other, by simp [member], blames⟩

/-- Whatever a row fails with names one of its columns. -/
theorem blames_of_encodeInto {json : JsonText} {row : DynamicRow} {error : DynamicError}
    (failed : (row.encodeInto json).result = .error error) :
    ∃ column ∈ row.columns, Blames column.name error :=
  blames_of_each failed

end Writers

end DfeClickhouse.Dynamic
