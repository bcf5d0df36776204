import DfeClickhouse.Native.Io

/-!
# Sparse offsets

A sparse column starts with the positions of its non-default values, written as
the number of defaults before each of them.
-/

namespace DfeClickhouse.Native

open Library

/-- The bit that marks the last group of an offset stream. -/
def endOfGranuleFlag : Nat := 2 ^ 62

/-- What one offset stream leaves for the next. -/
structure SparseDeserializeState where
  numTrailingDefaults : Nat := 0
  hasValueAfterDefaults : Bool := false

/-- The loop over the groups.  Every group takes at least one byte, so the number
of bytes left bounds it; positions are `u64`s and wrap. -/
def readSparseGroups (numRows : Nat) :
    Nat → Nat → Bool → ByteReader (List Nat × SparseDeserializeState)
  | 0, _, _ => Reader.fail unexpectedEof
  | groups + 1, currentPosition, hasValueAfterDefaults => do
      let groupSize ← readVarUint
      let isEndOfGranule := groupSize.testBit 62
      let actualGroupSize := if isEndOfGranule then groupSize - endOfGranuleFlag else groupSize
      let currentPosition := (currentPosition + actualGroupSize) % 2 ^ 64
      if isEndOfGranule then
        pure ([], ⟨currentPosition - numRows, hasValueAfterDefaults⟩)
      else if currentPosition < numRows then do
        let (offsets, state) ←
          readSparseGroups numRows groups (currentPosition + 1) hasValueAfterDefaults
        pure (currentPosition :: offsets, state)
      else
        readSparseGroups numRows groups currentPosition true

/-- Read the positions of the non-default values. -/
def readSparseOffsets (numRows : Nat) (state : SparseDeserializeState) :
    ByteReader (List Nat × SparseDeserializeState) := fun input =>
  let currentPosition := state.numTrailingDefaults
  if state.hasValueAfterDefaults then
    let carried := if currentPosition < numRows then [currentPosition] else []
    (do
      let (offsets, state) ←
        readSparseGroups numRows (input.length + 1) ((currentPosition + 1) % 2 ^ 64) false
      pure (carried ++ offsets, state) : ByteReader _) input
  else
    readSparseGroups numRows (input.length + 1) currentPosition false input

end DfeClickhouse.Native
