import DfeClickhouse.Native.CellValues

/-!
# Discriminated columns

`Variant`, `Dynamic` and `JSON` columns store the values of every arm apart and one
discriminator per row.  The readers tally the discriminators to size the arms and
then walk over the rows with one cursor per arm.  Both are the same counters, run
over all rows or over the rows before one, so a row takes the element of its arm
whose number is the count of earlier rows with the same discriminator.
-/

namespace DfeClickhouse.Native

open Library

/-- Count one row at its discriminator, if that has a counter. -/
def countRow (slots : Nat) (counters : List Nat) (discriminator : Nat) : List Nat :=
  if discriminator < slots then counters.modify discriminator (· + 1) else counters

/-- Counters hold how often their discriminators occur among the rows passed. -/
def Counts (slots : Nat) (counters passed : List Nat) : Prop :=
  counters.length = slots ∧ ∀ slot, slot < slots → counters[slot]? = some (passed.count slot)

theorem Counts.step {slots : Nat} {counters passed : List Nat}
    (counts : Counts slots counters passed)
    (discriminator : Nat) :
    Counts slots (countRow slots counters discriminator) (passed ++ [discriminator]) := by
  obtain ⟨sized, counted⟩ := counts
  unfold countRow
  split
  · refine ⟨by simpa using sized, ?_⟩
    intro slot inside
    rw [List.getElem?_modify, counted slot inside, List.count_append, List.count_singleton]
    by_cases same : discriminator = slot
    · simp [same]
    · simp [same, beq_false_of_ne same]
  · refine ⟨sized, ?_⟩
    intro slot inside
    rw [counted slot inside, List.count_append, List.count_singleton]
    have other : discriminator ≠ slot := by omega
    simp [beq_false_of_ne other]

theorem Counts.run {slots : Nat} {counters passed : List Nat}
    (counts : Counts slots counters passed)
    (discriminators : List Nat) :
    Counts slots (discriminators.foldl (countRow slots) counters) (passed ++ discriminators) := by
  induction discriminators generalizing counters passed with
  | nil => simpa using counts
  | cons discriminator rest ih => simpa using ih (counts.step discriminator)

/-- The cursors of the arms when a row is reached. -/
def cursorsAt (arms : List Arm) (values : List ColumnData) (discriminators : List Nat) (row : Nat) :
    List Nat :=
  (discriminators.take row).foldl
    (fun cursors discriminator => (discriminatedValue arms values cursors discriminator).2)
    (List.replicate arms.length 0)

/-- The cursors of a path when a row is reached. -/
def PathColumn.cursors (row : Nat) (path : PathColumn) : List Nat :=
  cursorsAt path.arms path.values path.discriminators row

/-- An arm whose values are rendered. -/
def Arm.plain (colType : ColumnType) : Arm := ⟨colType, false⟩

@[simp] theorem map_colType_plain (types : List ColumnType) :
    (types.map Arm.plain).map Arm.colType = types := by
  rw [List.map_map]
  exact List.map_id types

section Readers

variable {nested : ColumnReader} {count : Nat} {input rest : Bytes} {cells : ColumnData}

@[simp, grind =] theorem length_sortedTypeNames (names : List String) :
    (sortedTypeNames names).length = names.length + 1 := by
  simp [sortedTypeNames]

end Readers

end DfeClickhouse.Native
