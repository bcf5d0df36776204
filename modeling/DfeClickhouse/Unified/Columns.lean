import DfeClickhouse.Dynamic.Insert
import DfeClickhouse.Native.TypedRead
import DfeClickhouse.Unified.NativeStream

/-!
# Whole result sets

The blocks of a result on either transport, and the typed columns that are read across
them.  The schema of a table is read this way.
-/

namespace DfeClickhouse.Unified

open Library Native DfeClickhouse.Dynamic

/-- A whole result set, with its blocks as the server sent them. -/
structure Columns where
  blocks : List DecodedBlock

namespace Columns

/-- Rows across every block. -/
def rows (columns : Columns) : Nat :=
  (columns.blocks.map (·.numRows)).sum

/-- Every value of a column, in server order. -/
def get (target : Target) (columns : Columns) (name : String) :
    Except Error (List target.Value) := do
  let parts ← columns.blocks.mapM fun block => block.columnAs target name
  return parts.flatten

/-- The cells of a column, row by row. -/
def cells (columns : Columns) (name : String) : List Bytes :=
  columns.blocks.flatMap fun block => block.cells name

/-- The rows of `system.columns`, of which a schema is made. -/
def systemColumns (columns : Columns) : Except Error (List SysColumn) := do
  let names ← columns.get .string "name"
  let types ← columns.get .string "col_type"
  let kinds ← columns.get .string "default_kind"
  return ((names.zip types).zip kinds).map fun ((name, colType), defaultKind) =>
    { name, colType, defaultKind }

/-- The blocks came in over a transport. -/
def Received (columns : Columns) : Prop :=
  ∀ block ∈ columns.blocks, block.Received

/-- Every block with rows declares columns. -/
def Declared (columns : Columns) : Prop :=
  ∀ block ∈ columns.blocks, block.schema = [] → block.numRows = 0

variable {columns : Columns}

theorem get_cons (target : Target) (block : DecodedBlock) (blocks : List DecodedBlock)
    (name : String) : get target ⟨block :: blocks⟩ name = (do
      let values ← block.columnAs target name
      let others ← get target ⟨blocks⟩ name
      return values ++ others) := by
  unfold get
  rw [List.mapM_cons]
  cases block.columnAs target name with
  | error error => rfl
  | ok values => cases blocks.mapM fun block => block.columnAs target name <;> rfl

/-- The values are in the cells, and there is one for each row exactly if every block with
rows declares columns. -/
theorem get_read {target : Target} {name : String} {values : List target.Value}
    (received : columns.Received) (read : columns.get target name = .ok values) :
    List.Forall₂ target.Encodes values (columns.cells name) ∧
      values.length ≤ columns.rows ∧ (values.length = columns.rows ↔ columns.Declared) := by
  obtain ⟨blocks⟩ := columns
  obtain ⟨parts, each, joined⟩ := Reader.ok_bind_iff.mp read
  cases joined
  replace each := Reader.mapM_ok_iff.mp each
  clear read
  unfold Columns.rows Columns.cells Declared
  unfold Received at received
  dsimp only at received each ⊢
  induction each with
  | nil => simp
  | @cons block part blocks parts first _ ih =>
      obtain ⟨others, bounded, total⟩ := ih fun block member => received block (by simp [member])
      obtain ⟨here, counted⟩ := DecodedBlock.columnAs_cells (received block (by simp)) first
      refine ⟨List.rel_append here others, ?_⟩
      rw [List.flatten_cons, List.length_append, List.map_cons, List.sum_cons,
        List.forall_mem_cons, ← total, counted, ← List.isEmpty_iff]
      cases block.schema.isEmpty with
      | true =>
          rw [if_pos rfl]
          constructor
          · omega
          · simp only [forall_const]
            omega
      | false =>
          rw [if_neg Bool.false_ne_true]
          constructor
          · omega
          · simp

/-- The texts of a column are its cells. -/
def Texts (columns : Columns) (name : String) (texts : List String) : Prop :=
  columns.cells name = texts.map fun text => putString (utf8 text)

theorem texts_of_get {name : String} {texts : List String} (received : columns.Received)
    (read : columns.get .string name = .ok texts) : columns.Texts name texts := by
  have each := (get_read received read).1
  unfold Texts
  generalize columns.cells name = cells at each
  clear read
  induction each with
  | nil => rfl
  | cons first _ ih =>
      rw [List.map_cons, ← ih]
      exact congrArg (· :: _) first

/-- A schema is read from all the rows of `system.columns`, each with its own name, type and
default kind. -/
theorem systemColumns_read {rows : List SysColumn} (received : columns.Received)
    (declared : columns.Declared) (read : columns.systemColumns = .ok rows) :
    rows.length = columns.rows ∧ columns.Texts "name" (rows.map (·.name)) ∧
      columns.Texts "col_type" (rows.map (·.colType)) ∧
      columns.Texts "default_kind" (rows.map (·.defaultKind)) := by
  obtain ⟨names, readNames, read⟩ := Reader.ok_bind_iff.mp read
  obtain ⟨types, readTypes, read⟩ := Reader.ok_bind_iff.mp read
  obtain ⟨kinds, readKinds, made⟩ := Reader.ok_bind_iff.mp read
  cases made
  have nameCount := (get_read received readNames).2.2.mpr declared
  have typeCount := (get_read received readTypes).2.2.mpr declared
  have kindCount := (get_read received readKinds).2.2.mpr declared
  have paired : (names.zip types).length = kinds.length := by
    rw [List.length_zip]
    omega
  have named : (((names.zip types).zip kinds).map Prod.fst).map Prod.fst = names := by
    rw [List.map_fst_zip paired.le, List.map_fst_zip (by omega)]
  have typed : (((names.zip types).zip kinds).map Prod.fst).map Prod.snd = types := by
    rw [List.map_fst_zip paired.le, List.map_snd_zip (by omega)]
  have defaulted : ((names.zip types).zip kinds).map Prod.snd = kinds :=
    List.map_snd_zip paired.ge
  rw [List.map_map] at named typed
  refine ⟨?_, ?_, ?_, ?_⟩
  · rw [List.length_map, List.length_zip, paired, Nat.min_self, kindCount]
  · rw [List.map_map]
    exact named.symm ▸ texts_of_get received readNames
  · rw [List.map_map]
    exact typed.symm ▸ texts_of_get received readTypes
  · rw [List.map_map]
    exact defaulted.symm ▸ texts_of_get received readKinds

/-- The columns of one row of `system.columns`. -/
def idColumns : List (String × String) :=
  [("name", "id"), ("col_type", "UInt8"), ("default_kind", "")]

theorem decodeBlock_idColumns : ∃ block, decodeBlock 3 1 54453
    (idColumns.flatMap fun entry => [entry.1, "String", entry.2].flatMap (putString ∘ utf8)) =
      .ok (block, []) ∧ block.schema.length = 3 ∧
    systemColumns ⟨[⟨[], block.schema, 0⟩, block]⟩ = .ok [⟨"id", "UInt8", ""⟩] :=
  ⟨_, rfl, rfl, rfl⟩

/-- A block of headers comes before the one with the row. -/
theorem systemColumns_read_id :
    ∃ (columns : Columns) (rows : List SysColumn), columns.Received ∧ columns.Declared ∧
      columns.systemColumns = .ok rows ∧ rows.length = columns.rows ∧
      columns.Texts "name" (rows.map (·.name)) ∧
      columns.Texts "col_type" (rows.map (·.colType)) ∧
      columns.Texts "default_kind" (rows.map (·.defaultKind)) := by
  obtain ⟨block, decoded, declares, read⟩ := decodeBlock_idColumns
  have received : Received ⟨[⟨[], block.schema, 0⟩, block]⟩ :=
    List.forall_mem_cons.mpr ⟨.inl ⟨rfl, rfl⟩,
      List.forall_mem_singleton.mpr (.inr ⟨_, _, _, _, _, decoded⟩)⟩
  have declared : Declared ⟨[⟨[], block.schema, 0⟩, block]⟩ := by
    refine List.forall_mem_cons.mpr ⟨fun _ => rfl, List.forall_mem_singleton.mpr fun none => ?_⟩
    rw [none] at declares
    cases declares
  exact ⟨_, _, received, declared, read, systemColumns_read received declared read⟩

end Columns

end DfeClickhouse.Unified
