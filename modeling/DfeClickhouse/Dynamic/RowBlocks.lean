import DfeClickhouse.Dynamic.InsertSteps

/-!
# The buffers of a row block

A block encodes each row into a buffer it has used before, whatever the buffer held: a
row of an earlier block, or part of a row that failed.  Over any run of pushes and
recyclings, the block holds the encodings of the rows it accepted since the last
recycling.
-/

namespace DfeClickhouse.Dynamic

open Library

/-- The columns of a row, appended to a buffer up to the first that fails.  A failed row
leaves what it wrote. -/
def DynamicRow.encodeColumns (json : JsonText) (row : DynamicRow) :
    List ColumnDef → Bytes → Except DynamicError Unit × Bytes
  | [], buffer => (.ok (), buffer)
  | col :: columns, buffer =>
      let cell := row.encodeColumn json col
      match cell.result with
      | .error error => (.error error, buffer ++ cell.written)
      | .ok () => row.encodeColumns json columns (buffer ++ cell.written)

/-- `encodeInto` on the buffer it is given. -/
def DynamicRow.encodeOnto (json : JsonText) (row : DynamicRow) (buffer : Bytes) :
    Except DynamicError Unit × Bytes :=
  row.encodeColumns json row.columns buffer

/-- A row's bytes in a fresh buffer. -/
def DynamicRow.encode (json : JsonText) (row : DynamicRow) : Except DynamicError Bytes :=
  match row.encodeOnto json [] with
  | (.error error, _) => .error error
  | (.ok (), buffer) => .ok buffer

theorem encodeColumns_eq (json : JsonText) (row : DynamicRow) (columns : List ColumnDef)
    (buffer : Bytes) :
    row.encodeColumns json columns buffer =
      ((Writer.each (row.encodeColumn json) columns).result,
        buffer ++ (Writer.each (row.encodeColumn json) columns).written) := by
  induction columns generalizing buffer with
  | nil =>
      show (Except.ok (), buffer) = (Except.ok (), buffer ++ [])
      rw [List.append_nil]
  | cons col columns ih =>
      rw [DynamicRow.encodeColumns, Writer.each]
      cases encoded : (row.encodeColumn json col).result with
      | error error => simp only [bind, encoded]
      | ok value => simp only [bind, encoded, ih, List.append_assoc]

theorem encodeOnto_eq (json : JsonText) (row : DynamicRow) (buffer : Bytes) :
    row.encodeOnto json buffer =
      ((row.encodeInto json).result, buffer ++ (row.encodeInto json).written) :=
  encodeColumns_eq json row row.columns buffer

namespace RowBlock

/-- `push` with its buffer: the last spare one, cleared, which goes to the rows or, half
written, back to the spare ones. -/
def pushReusing (block : RowBlock) (json : JsonText) (row : DynamicRow) :
    Except DynamicError Unit × RowBlock :=
  let popped := block.spare.getLast?.getD []
  let spare := block.spare.dropLast
  let cleared := popped.take 0
  match row.encodeOnto json cleared with
  | (.error error, buffer) => (.error error, { block with spare := spare ++ [buffer] })
  | (.ok (), buffer) =>
      (.ok (), { rows := block.rows ++ [buffer], spare := spare,
                 bytes := block.bytes + buffer.length })

/-- What the popped buffer held is of no matter. -/
theorem pushReusing_eq (block : RowBlock) (json : JsonText) (row : DynamicRow) :
    block.pushReusing json row = block.push json row := by
  simp only [pushReusing, List.take_zero, encodeOnto_eq, List.nil_append, push]
  cases (row.encodeInto json).result with
  | error error => rfl
  | ok value => rfl

/-- A push succeeds with the bytes of a fresh encode, or fails with its error and leaves
the rows and their byte count. -/
theorem pushReusing_cases (block : RowBlock) (json : JsonText) (row : DynamicRow) :
    (∃ bytes, row.encode json = .ok bytes ∧
        block.pushReusing json row =
          (.ok (), ⟨block.rows ++ [bytes], block.spare.dropLast, block.bytes + bytes.length⟩)) ∨
      ∃ error spare, row.encode json = .error error ∧
        block.pushReusing json row = (.error error, { block with spare := spare }) := by
  simp only [pushReusing, DynamicRow.encode, List.take_zero]
  cases row.encodeOnto json [] with
  | mk outcome buffer =>
      cases outcome with
      | error error =>
          right
          exact ⟨error, block.spare.dropLast ++ [buffer], rfl, rfl⟩
      | ok value =>
          left
          exact ⟨buffer, rfl, rfl⟩

/-- What an insert does to its block. -/
inductive Op
  | push (row : DynamicRow)
  | recycle

/-- A block, and the rows whose push succeeded since the last recycling. -/
structure Ledger where
  block : RowBlock
  accepted : List DynamicRow := []

namespace Ledger

def step (json : JsonText) (ledger : Ledger) : Op → Ledger
  | .push row =>
      match ledger.block.pushReusing json row with
      | (.ok (), block) => ⟨block, ledger.accepted ++ [row]⟩
      | (.error _, block) => ⟨block, ledger.accepted⟩
  | .recycle => ⟨ledger.block.recycle, []⟩

def run (json : JsonText) (ops : List Op) (ledger : Ledger) : Ledger :=
  ops.foldl (step json) ledger

/-- The rows of the block are fresh encodings of the accepted rows, in order, and its byte
count is theirs. -/
structure Holds (json : JsonText) (ledger : Ledger) : Prop where
  rows : ledger.block.rows.map Except.ok = ledger.accepted.map (DynamicRow.encode json)
  bytes : ledger.block.bytes = (ledger.block.rows.map List.length).sum

variable {json : JsonText}

theorem Holds.step {ledger : Ledger} (holds : ledger.Holds json) (op : Op) :
    (ledger.step json op).Holds json := by
  cases op with
  | recycle => exact ⟨rfl, rfl⟩
  | push row =>
      cases ledger.block.pushReusing_cases json row with
      | inl accepted =>
          obtain ⟨bytes, encoded, pushed⟩ := accepted
          rw [Ledger.step, pushed]
          constructor
          · rw [List.map_append, List.map_append, holds.rows, List.map_singleton,
              List.map_singleton, encoded]
          · rw [List.map_append, List.sum_append, holds.bytes, List.map_singleton,
              List.sum_singleton]
      | inr refused =>
          obtain ⟨error, spare, _, pushed⟩ := refused
          rw [Ledger.step, pushed]
          exact ⟨holds.rows, holds.bytes⟩

theorem Holds.run {ledger : Ledger} (holds : ledger.Holds json) (ops : List Op) :
    (ledger.run json ops).Holds json := by
  induction ops generalizing ledger with
  | nil => exact holds
  | cons op ops ih => exact ih (holds.step op)

end Ledger

/-- A push that fails changes neither the rows nor the byte count. -/
def FailsClean (json : JsonText) (block : RowBlock) (row : DynamicRow) : Prop :=
  ∀ error, (block.pushReusing json row).1 = .error error →
    (block.pushReusing json row).2.rows = block.rows ∧
      (block.pushReusing json row).2.bytes = block.bytes

theorem failsClean (json : JsonText) (block : RowBlock) (row : DynamicRow) :
    block.FailsClean json row := by
  intro error failed
  cases block.pushReusing_cases json row with
  | inl accepted =>
      obtain ⟨bytes, _, pushed⟩ := accepted
      rw [pushed] at failed
      cases failed
  | inr refused =>
      obtain ⟨_, spare, _, pushed⟩ := refused
      rw [pushed]
      exact ⟨rfl, rfl⟩

/-- A push is accepted exactly when its row can be encoded, and fails with the error of it. -/
theorem pushReusing_outcome (block : RowBlock) (json : JsonText) (row : DynamicRow) :
    (block.pushReusing json row).1 = (row.encode json).map fun _ => () := by
  rcases block.pushReusing_cases json row with ⟨bytes, encoded, pushed⟩ | refused
  · rw [encoded, pushed]
    rfl
  · obtain ⟨error, spare, failed, pushed⟩ := refused
    rw [failed, pushed]
    rfl

/-- From an empty block with any buffers to spare, every run of pushes and recyclings
leaves a block that holds the encodings of the rows accepted since the last recycling.  A
row is accepted exactly when it can be encoded, and one that fails is no trace in the block. -/
theorem holds_accepted (json : JsonText) (spare : List Bytes) (ops : List Op) :
    (Ledger.run json ops ⟨⟨[], spare, 0⟩, []⟩).Holds json ∧
      ∀ row, ((Ledger.run json ops ⟨⟨[], spare, 0⟩, []⟩).block.pushReusing json row).1 =
          (row.encode json).map (fun _ => ()) ∧
        (Ledger.run json ops ⟨⟨[], spare, 0⟩, []⟩).block.FailsClean json row := by
  have empty : Ledger.Holds json ⟨⟨[], spare, 0⟩, []⟩ := ⟨rfl, rfl⟩
  constructor
  · exact empty.run ops
  · intro row
    exact ⟨pushReusing_outcome _ json row, failsClean json _ row⟩

end RowBlock

end DfeClickhouse.Dynamic
