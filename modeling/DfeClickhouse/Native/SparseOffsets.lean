import DfeClickhouse.Native.DecodedShape

/-!
# Offset streams

A sparse column announces groups of defaults, and the decoder turns them into rows.
The groups on the wire and the rows they stand for are separated here: the loop reads
the groups up to the one with the end flag and places one value after each of the
others.  The position it keeps is a `u64`, so the rows are the documented ones only
while the groups stay below that range; and the decoder never compares the groups with
the rows of the block.
-/

namespace DfeClickhouse.Native

open Library

/-- The groups of an offset stream: the defaults before each listed value, and those
after the last one. -/
structure OffsetGroups where
  before : List Nat
  trailing : Nat
  deriving DecidableEq

namespace OffsetGroups

/-- The rows the groups account for: the defaults, and one row for each listed value. -/
def rows (groups : OffsetGroups) : Nat :=
  groups.before.sum + groups.before.length + groups.trailing

end OffsetGroups

/-- Read groups up to the one with the end flag. -/
def readOffsetGroupsWithin : Nat → ByteReader OffsetGroups
  | 0 => Reader.fail unexpectedEof
  | groups + 1 => do
      let groupSize ← readVarUint
      if groupSize.testBit 62 then
        pure ⟨[], groupSize - endOfGranuleFlag⟩
      else do
        let later ← readOffsetGroupsWithin groups
        pure ⟨groupSize :: later.before, later.trailing⟩

/-- The groups of the offset stream at the front of the wire. -/
def readOffsetGroups : ByteReader OffsetGroups := fun input =>
  readOffsetGroupsWithin (input.length + 1) input

/-- The rows the loop gives to the listed values, from a position on, and the state it
leaves. -/
def placeValues (numRows trailing : Nat) :
    Nat → Bool → List Nat → List Nat × SparseDeserializeState
  | currentPosition, hasValueAfterDefaults, [] =>
      ([], ⟨(currentPosition + trailing) % 2 ^ 64 - numRows, hasValueAfterDefaults⟩)
  | currentPosition, hasValueAfterDefaults, size :: before =>
      let currentPosition := (currentPosition + size) % 2 ^ 64
      if currentPosition < numRows then
        let (offsets, state) :=
          placeValues numRows trailing (currentPosition + 1) hasValueAfterDefaults before
        (currentPosition :: offsets, state)
      else
        placeValues numRows trailing currentPosition true before

/-- The rows of the listed values in a block of `numRows` rows. -/
def OffsetGroups.positions (groups : OffsetGroups) (numRows : Nat) : List Nat :=
  (placeValues numRows groups.trailing 0 false groups.before).1

/-- The loop reads the groups and then places their values. -/
theorem readSparseGroups_eq (numRows fuel currentPosition : Nat) (hasValueAfterDefaults : Bool) :
    readSparseGroups numRows fuel currentPosition hasValueAfterDefaults =
      (readOffsetGroupsWithin fuel >>= fun groups => pure
        (placeValues numRows groups.trailing currentPosition hasValueAfterDefaults
          groups.before)) := by
  induction fuel generalizing currentPosition hasValueAfterDefaults with
  | zero => rfl
  | succ fuel ih =>
      rw [readSparseGroups, readOffsetGroupsWithin, bind_assoc]
      apply bind_congr
      intro groupSize
      by_cases last : groupSize.testBit 62 = true
      · simp only [if_pos last, pure_bind]
        rfl
      · simp only [if_neg last, bind_assoc, pure_bind, ih, placeValues]
        by_cases inside : (currentPosition + groupSize) % 2 ^ 64 < numRows
        · simp only [if_pos inside]
        · simp only [if_neg inside]

theorem readSparseOffsets_eq (numRows : Nat) :
    readSparseOffsets numRows {} = (readOffsetGroups >>= fun groups => pure
      (placeValues numRows groups.trailing 0 false groups.before)) := by
  funext input
  exact congrFun (readSparseGroups_eq numRows (input.length + 1) 0 false) input

theorem readSparseOffsets_ok {numRows : Nat} {input rest : Bytes} {offsets : List Nat}
    {state : SparseDeserializeState}
    (read : readSparseOffsets numRows {} input = .ok ((offsets, state), rest)) :
    ∃ groups, readOffsetGroups input = .ok (groups, rest) ∧ offsets = groups.positions numRows := by
  rw [readSparseOffsets_eq] at read
  obtain ⟨groups, middle, follow, read⟩ := Reader.bind_ok_iff.mp read
  obtain ⟨placed, rfl⟩ := Prod.mk.inj (Except.ok.inj read)
  refine ⟨groups, follow, ?_⟩
  rw [OffsetGroups.positions, placed]

/-- The position after a list of groups in unbounded arithmetic: each group moves it by
its size, and by one more row when its value falls inside the block. -/
def positionAfter (numRows : Nat) : Nat → List Nat → Nat
  | position, [] => position
  | position, size :: sizes =>
      if position + size < numRows then
        positionAfter numRows (position + size + 1) sizes
      else
        positionAfter numRows (position + size) sizes

theorem le_positionAfter (numRows position : Nat) (sizes : List Nat) :
    position ≤ positionAfter numRows position sizes := by
  induction sizes generalizing position with
  | nil => exact Nat.le_refl position
  | cons size sizes ih =>
      rw [positionAfter]
      split
      · exact Nat.le_trans (by omega) (ih (position + size + 1))
      · exact Nat.le_trans (by omega) (ih (position + size))

/-- Every listed value has a row inside the block, whatever the groups are. -/
theorem placeValues_lt (numRows trailing position : Nat) (carried : Bool) (before : List Nat) :
    ∀ row ∈ (placeValues numRows trailing position carried before).1, row < numRows := by
  induction before generalizing position carried with
  | nil =>
      intro row member
      cases member
  | cons size before ih =>
      rw [placeValues]
      by_cases inside : (position + size) % 2 ^ 64 < numRows
      · simp only [if_pos inside]
        intro row member
        rcases List.mem_cons.mp member with rfl | member
        · exact inside
        · exact ih _ _ row member
      · simp only [if_neg inside]
        exact ih _ _

/-- While the groups stay below the range of a `u64`, the rows only grow. -/
theorem placeValues_increasing {numRows position : Nat} {before : List Nat} (trailing : Nat)
    (carried : Bool) (fits : positionAfter numRows position before < 2 ^ 64) :
    (placeValues numRows trailing position carried before).1.Pairwise (· < ·) ∧
      ∀ row ∈ (placeValues numRows trailing position carried before).1, position ≤ row := by
  induction before generalizing position carried with
  | nil =>
      constructor
      · exact .nil
      · intro row member
        cases member
  | cons size before ih =>
      rw [positionAfter] at fits
      have reached : position + size < 2 ^ 64 := by
        split at fits
        · exact Nat.lt_of_le_of_lt (by omega) (Nat.lt_of_le_of_lt (le_positionAfter _ _ _) fits)
        · exact Nat.lt_of_le_of_lt (le_positionAfter _ _ _) fits
      rw [placeValues, Nat.mod_eq_of_lt reached]
      by_cases inside : position + size < numRows
      · rw [if_pos inside] at fits
        obtain ⟨increasing, later⟩ := ih carried fits
        simp only [if_pos inside]
        constructor
        · exact List.pairwise_cons.mpr ⟨fun row member => later row member, increasing⟩
        · intro row member
          rcases List.mem_cons.mp member with rfl | member
          · exact Nat.le_add_right position size
          · exact Nat.le_trans (by omega) (later row member)
      · rw [if_neg inside] at fits
        obtain ⟨increasing, later⟩ := ih true fits
        simp only [if_neg inside]
        exact ⟨increasing, fun row member => Nat.le_trans (by omega) (later row member)⟩

/-- Whether an addition to the position leaves the `u64`s while the loop runs on a
stream, also on one that breaks off later. -/
def positionOverflows (numRows : Nat) : Nat → Nat → Bytes → Bool
  | 0, _, _ => false
  | groups + 1, currentPosition, input =>
      match readVarUint input with
      | .error _ => false
      | .ok (groupSize, rest) =>
          let isEndOfGranule := groupSize.testBit 62
          let actualGroupSize := if isEndOfGranule then groupSize - endOfGranuleFlag else groupSize
          let nextPosition := currentPosition + actualGroupSize
          if 2 ^ 64 ≤ nextPosition then
            true
          else if isEndOfGranule then
            false
          else if nextPosition < numRows then
            decide (2 ^ 64 ≤ nextPosition + 1) || positionOverflows numRows groups
              (nextPosition + 1) rest
          else
            positionOverflows numRows groups nextPosition rest

/-- The sizes of the groups a stream announces, up to the one with the end flag or to
where the stream breaks off. -/
def announcedSizes : Nat → Bytes → List Nat
  | 0, _ => []
  | groups + 1, input =>
      match readVarUint input with
      | .error _ => []
      | .ok (groupSize, rest) =>
          if groupSize.testBit 62 then
            [groupSize - endOfGranuleFlag]
          else
            groupSize :: announcedSizes groups rest

theorem announcedSizes_of_ok {fuel : Nat} {input rest : Bytes} {groups : OffsetGroups}
    (read : readOffsetGroupsWithin fuel input = .ok (groups, rest)) :
    announcedSizes fuel input = groups.before ++ [groups.trailing] := by
  induction fuel generalizing input groups with
  | zero => cases read
  | succ fuel ih =>
      rw [readOffsetGroupsWithin] at read
      obtain ⟨groupSize, middle, first, read⟩ := Reader.bind_ok_iff.mp read
      rw [announcedSizes, first]
      by_cases last : groupSize.testBit 62 = true
      · rw [if_pos last] at read
        cases read
        simp only [if_pos last, List.nil_append]
      · rw [if_neg last] at read
        obtain ⟨later, _, follow, read⟩ := Reader.bind_ok_iff.mp read
        cases read
        simp only [if_neg last, ih follow, List.cons_append]

theorem positionAfter_le_append (numRows position : Nat) (first second : List Nat) :
    positionAfter numRows position first ≤ positionAfter numRows position (first ++ second) := by
  induction first generalizing position with
  | nil => exact le_positionAfter numRows position second
  | cons size first ih =>
      rw [List.cons_append, positionAfter, positionAfter]
      split
      · exact ih _
      · exact ih _

/-- The counter leaves its range exactly when the announced groups do. -/
theorem positionOverflows_eq_false_iff {numRows : Nat} (small : numRows < 2 ^ 64)
    (fuel position : Nat) (bounded : position < 2 ^ 64) (input : Bytes) :
    positionOverflows numRows fuel position input = false ↔
      positionAfter numRows position (announcedSizes fuel input) < 2 ^ 64 := by
  induction fuel generalizing position input with
  | zero => exact iff_of_true rfl bounded
  | succ fuel ih =>
      rw [positionOverflows, announcedSizes]
      cases read : readVarUint input with
      | error error => exact iff_of_true rfl bounded
      | ok result =>
          obtain ⟨groupSize, rest⟩ := result
          by_cases last : groupSize.testBit 62 = true
          · have final : positionAfter numRows position [groupSize - endOfGranuleFlag] < 2 ^ 64 ↔
                position + (groupSize - endOfGranuleFlag) < 2 ^ 64 := by
              simp only [positionAfter]
              split <;> omega
            simp only [if_pos last, final]
            by_cases past : 2 ^ 64 ≤ position + (groupSize - endOfGranuleFlag)
            · simp only [if_pos past, Bool.true_eq_false, false_iff, Nat.not_lt]
              exact past
            · simp only [if_neg past, true_iff]
              exact Nat.lt_of_not_le past
          · simp only [if_neg last, positionAfter]
            by_cases past : 2 ^ 64 ≤ position + groupSize
            · have outside : ¬ position + groupSize < numRows := by omega
              have grown :=
                le_positionAfter numRows (position + groupSize) (announcedSizes fuel rest)
              simp only [if_pos past, if_neg outside]
              simp only [Bool.true_eq_false, false_iff, Nat.not_lt]
              exact Nat.le_trans past grown
            · by_cases inside : position + groupSize < numRows
              · have room : ¬ 2 ^ 64 ≤ position + groupSize + 1 := by omega
                simp only [if_neg past, if_pos inside, room, decide_false, Bool.false_or]
                exact ih _ (by omega) rest
              · simp only [if_neg past, if_neg inside]
                exact ih _ (by omega) rest

/-- The positions are increasing rows of the block, and the counter never overflows,
exactly when the announced groups stay below the range of a `u64`. -/
theorem readSparseOffsets_safe_iff {numRows : Nat} (capped : numRows ≤ maxBlockRows)
    (input : Bytes) :
    ((∀ offsets state rest, readSparseOffsets numRows {} input = .ok ((offsets, state), rest) →
        offsets.Pairwise (· < ·) ∧ ∀ row ∈ offsets, row < numRows) ∧
      positionOverflows numRows (input.length + 1) 0 input = false) ↔
      positionAfter numRows 0 (announcedSizes (input.length + 1) input) < 2 ^ 64 := by
  have small : numRows < 2 ^ 64 := Nat.lt_of_le_of_lt capped (by decide)
  have counter := positionOverflows_eq_false_iff small (input.length + 1) 0 (by decide) input
  constructor
  · intro safe
    exact counter.mp safe.2
  · intro fits
    refine ⟨?_, counter.mpr fits⟩
    intro offsets state rest read
    obtain ⟨groups, follow, rfl⟩ := readSparseOffsets_ok read
    rw [announcedSizes_of_ok follow] at fits
    have valuesFit := Nat.lt_of_le_of_lt (positionAfter_le_append numRows 0 _ _) fits
    constructor
    · exact (placeValues_increasing groups.trailing false valuesFit).1
    · exact placeValues_lt numRows groups.trailing 0 false groups.before

/-- The stream of the documented example: two values among eight rows. -/
theorem readSparseOffsets_safe_iff_eight : 8 ≤ maxBlockRows ∧
    (∀ offsets state rest, readSparseOffsets 8 {} (encodeVarUint 2 ++ encodeVarUint 1 ++
        encodeVarUint (endOfGranuleFlag + 3)) = .ok ((offsets, state), rest) →
      offsets.Pairwise (· < ·) ∧ ∀ row ∈ offsets, row < 8) := by
  constructor
  · decide
  · exact ((readSparseOffsets_safe_iff (by decide) _).mpr (by decide)).1

/-- Groups of 2, 2^63 and twice 2^62 - 1 defaults bring the position round to row 1. -/
def wrappingOffsets : Bytes :=
  encodeVarUint 2 ++ encodeVarUint (2 ^ 63) ++ encodeVarUint (2 ^ 62 - 1) ++
    encodeVarUint (2 ^ 62 - 1) ++ encodeVarUint endOfGranuleFlag

theorem readSparseOffsets_wraps :
    (readSparseOffsets 4 {} wrappingOffsets = .ok (([2, 1], ⟨0, true⟩), []) ∧
      positionOverflows 4 (wrappingOffsets.length + 1) 0 wrappingOffsets = true) ∧
    ¬ ∀ numRows ≤ maxBlockRows, ∀ input : Bytes,
      (∀ offsets state rest, readSparseOffsets numRows {} input = .ok ((offsets, state), rest) →
        offsets.Pairwise (· < ·) ∧ ∀ row ∈ offsets, row < numRows) ∧
      positionOverflows numRows (input.length + 1) 0 input = false := by
  have returned : readSparseOffsets 4 {} wrappingOffsets = .ok (([2, 1], ⟨0, true⟩), []) := rfl
  refine ⟨⟨returned, by decide⟩, ?_⟩
  intro safe
  have increasing := ((safe 4 (by decide) wrappingOffsets).1 _ _ _ returned).1
  exact absurd increasing (by decide)

/-- Whether `count` listed values of a type can be scattered over `numRows` rows. -/
def ColumnType.scatters (numRows count : Nat) : ColumnType → Bool
  | .simpleAggregateFunction inner => inner.scatters numRows count
  | .fixedString width => decide ((width ≠ 0 ∨ count = 0) ∧ numRows * width < 2 ^ 64)
  | .nullable _ | .lowCardinality _ | .array _ | .tuple _ | .map .. | .bFloat16 | .time | .time64
  | .point => false
  | _ => true

theorem find?_past_eq_none {positions : List Nat} {numRows : Nat}
    (inside : ∀ row ∈ positions, row < numRows) :
    (positions.find? fun position => decide (numRows ≤ position)) = none := by
  apply List.find?_eq_none.mpr
  intro row member
  simp [inside row member]

end DfeClickhouse.Native
