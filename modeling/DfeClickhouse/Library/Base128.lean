import DfeClickhouse.Library.Bytes

/-!
# Numbers in groups of seven bits

Every byte of an encoding carries seven bits of a number, least significant first; the
top bit of a byte says whether another one follows.
-/

namespace DfeClickhouse.Library

/-- The bits of the number in one byte. -/
def sevenBits (byte : UInt8) : Nat :=
  byte.toNat % 128

/-- Another byte follows. -/
def Continues (byte : UInt8) : Prop :=
  128 ≤ byte.toNat

instance : DecidablePred Continues := fun byte => inferInstanceAs (Decidable (128 ≤ byte.toNat))

/-- The number that groups denote. -/
def groupSum : Bytes → Nat
  | [] => 0
  | byte :: rest => sevenBits byte + 128 * groupSum rest

theorem groupSum_eq_sum (bytes : Bytes) :
    groupSum bytes = ∑ i ∈ Finset.range bytes.length, (bytes.getD i 0).toNat % 128 * 128 ^ i := by
  induction bytes with
  | nil => rfl
  | cons byte rest ih =>
      have shifted : ∀ i ∈ Finset.range rest.length,
          ((byte :: rest).getD (i + 1) 0).toNat % 128 * 128 ^ (i + 1) =
            128 * ((rest.getD i 0).toNat % 128 * 128 ^ i) := by
        intro i _
        rw [List.getD_cons_succ, Nat.pow_succ, Nat.mul_comm (128 ^ i), Nat.mul_left_comm]
      rw [List.length_cons, Finset.sum_range_succ', Finset.sum_congr rfl shifted,
        ← Finset.mul_sum, ← ih, groupSum, List.getD_cons_zero, Nat.pow_zero, Nat.mul_one,
        Nat.add_comm, sevenBits]

theorem groupSum_append (front back : Bytes) :
    groupSum (front ++ back) = groupSum front + 128 ^ front.length * groupSum back := by
  induction front with
  | nil => simp [groupSum]
  | cons byte front ih =>
      rw [List.cons_append, groupSum, groupSum, ih, List.length_cons, Nat.pow_succ,
        Nat.mul_add, Nat.add_assoc, Nat.mul_comm (128 ^ front.length) 128, Nat.mul_assoc]

theorem groupSum_lt (bytes : Bytes) : groupSum bytes < 128 ^ bytes.length := by
  induction bytes with
  | nil => exact Nat.one_pos
  | cons byte rest ih =>
      have small : sevenBits byte < 128 := Nat.mod_lt _ (by decide)
      rw [groupSum, List.length_cons, Nat.pow_succ]
      omega

/-- A byte string is an encoding with something behind it, or never ends a number. -/
theorem encoding_or_open (bytes : Bytes) :
    (∃ front last rest, bytes = front ++ last :: rest ∧ (∀ byte ∈ front, Continues byte) ∧
      ¬ Continues last) ∨ ∀ byte ∈ bytes, Continues byte := by
  induction bytes with
  | nil => exact .inr fun byte member => absurd member List.not_mem_nil
  | cons byte rest ih =>
      by_cases more : Continues byte
      · cases ih with
        | inl found =>
            obtain ⟨front, last, behind, rfl, continues, ends⟩ := found
            left
            refine ⟨byte :: front, last, behind, rfl, ?_, ends⟩
            intro other member
            cases member with
            | head => exact more
            | tail _ member => exact continues other member
        | inr every =>
            right
            intro other member
            cases member with
            | head => exact more
            | tail _ member => exact every other member
      · left
        exact ⟨[], byte, rest, rfl, fun other member => absurd member List.not_mem_nil, more⟩

/-- Only one encoding starts a byte string. -/
theorem encoding_unique {front front' : Bytes} {last last' : UInt8} {rest rest' : Bytes}
    (continues : ∀ byte ∈ front, Continues byte) (ends : ¬ Continues last)
    (continues' : ∀ byte ∈ front', Continues byte) (ends' : ¬ Continues last')
    (same : front ++ last :: rest = front' ++ last' :: rest') :
    front = front' ∧ last = last' ∧ rest = rest' := by
  induction front generalizing front' with
  | nil =>
      cases front' with
      | nil =>
          obtain ⟨rfl, rfl⟩ := List.cons.inj same
          exact ⟨rfl, rfl, rfl⟩
      | cons byte front' =>
          obtain ⟨rfl, _⟩ := List.cons.inj same
          exact absurd (continues' last List.mem_cons_self) ends
  | cons byte front ih =>
      cases front' with
      | nil =>
          obtain ⟨rfl, _⟩ := List.cons.inj same
          exact absurd (continues byte List.mem_cons_self) ends'
      | cons byte' front' =>
          obtain ⟨rfl, behind⟩ := List.cons.inj same
          obtain ⟨rfl, rfl, rfl⟩ := ih
            (fun other member => continues other (List.mem_cons_of_mem _ member))
            (fun other member => continues' other (List.mem_cons_of_mem _ member)) behind
          exact ⟨rfl, rfl, rfl⟩

end DfeClickhouse.Library
