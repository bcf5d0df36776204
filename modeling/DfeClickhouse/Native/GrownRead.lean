import DfeClickhouse.Native.ReaderAgreement

/-!
# Reads that grow their buffer

A declared length is no evidence that its bytes exist.  The buffer of a value grows by one
chunk at a time, each asked for after the bytes before it have arrived, so a length on the
wire costs no more memory than the stream delivers, and one chunk.  Only the room for the
cells themselves is asked for at once.
-/

namespace DfeClickhouse.Native

open Library

/-- Bytes claimed up front, before any arrive. -/
def readChunk : Nat := 64 * 1024

/-- The allocator has no room for a buffer of so many bytes, as the largest `usize` counts
them. -/
def allocRefused (bytes : Nat) : Error :=
  .badResponse ("native protocol: refused a " ++ toString (min bytes (2 ^ 64 - 1)) ++
    "-byte column buffer the allocator could not back")

/-- Whether so many bytes can be added to a buffer that holds so many.  What is unread then
tells the moment of the request. -/
abbrev Allocator := Bytes → Nat → Nat → Bool

variable {α β : Type} {allocator : Allocator} {limit : Nat}

/-- A chunk is refused to a buffer whose other bytes have all arrived. -/
def RefusedAt (allocator : Allocator) (total limit : Nat) (outcome : Except Error α) : Prop :=
  ∃ unread held chunk, held + unread.length ≤ total ∧ chunk ≤ readChunk ∧ held + chunk ≤ limit ∧
    allocator unread held chunk = false ∧ outcome = .error (allocRefused (held + chunk))

/-- On every stream a reader does what a plain one does, unless a chunk is refused. -/
structure Grows (allocator : Allocator) (limit : Nat) (plain grown : ByteReader α) : Prop where
  shrinks : Reader.Shrinks plain
  cases : ∀ input, grown input = plain input ∨
    RefusedAt allocator input.length limit (grown input)

namespace Grows

/-- A reader that asks for no room. -/
theorem refl {reader : ByteReader α} (shrinks : Reader.Shrinks reader) :
    Grows allocator limit reader reader :=
  ⟨shrinks, fun _ => .inl rfl⟩

theorem bind {plain grown : ByteReader α} {plainNext grownNext : α → ByteReader β}
    (first : Grows allocator limit plain grown)
    (second : ∀ value, Grows allocator limit (plainNext value) (grownNext value)) :
    Grows allocator limit (plain >>= plainNext) (grown >>= grownNext) := by
  refine ⟨first.shrinks.bind fun value => (second value).shrinks, ?_⟩
  intro input
  rw [Reader.bind_run, Reader.bind_run]
  rcases first.cases input with same | ⟨unread, held, chunk, arrived, small, within, denied, failed⟩
  · rw [same]
    cases read : plain input with
    | error error => exact .inl rfl
    | ok result =>
        obtain ⟨value, rest⟩ := result
        have shorter := first.shrinks input value rest read
        rcases (second value).cases rest with same | refused
        · exact .inl same
        · obtain ⟨unread, held, chunk, arrived, refused⟩ := refused
          exact .inr ⟨unread, held, chunk, by omega, refused⟩
  · right
    rw [failed]
    exact ⟨unread, held, chunk, arrived, small, within, denied, rfl⟩

theorem times {plain grown : ByteReader α} (grows : Grows allocator limit plain grown)
    (count : Nat) :
    Grows allocator limit (Reader.times plain count) (Reader.times grown count) := by
  induction count with
  | zero => exact refl (Reader.Shrinks.pure _)
  | succ count ih =>
      apply grows.bind
      intro value
      apply ih.bind
      intro values
      exact refl (Reader.Shrinks.pure _)

theorem weaken {plain grown : ByteReader α} {larger : Nat}
    (grows : Grows allocator limit plain grown) (more : limit ≤ larger) :
      Grows allocator larger plain grown := by
  refine ⟨grows.shrinks, ?_⟩
  intro input
  rcases grows.cases input with same | ⟨unread, held, chunk, arrived, small, within, refused⟩
  · exact .inl same
  · exact .inr ⟨unread, held, chunk, arrived, small, by omega, refused⟩

end Grows

end DfeClickhouse.Native
