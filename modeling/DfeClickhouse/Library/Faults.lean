import DfeClickhouse.Library.Text

/-!
# Operations that may fault

An unchecked operation of the machine faults where its result does not fit: an integer
outside of its type, a slice outside of its text or inside of a character, a buffer
longer than the address space.  A run of such operations stops at the first fault, or
at an error it returns itself.
-/

namespace DfeClickhouse.Library

variable {ε α β : Type}

/-- What goes wrong in an unchecked operation. -/
inductive Fault
  /-- An integer result outside of its type. -/
  | overflow
  /-- An index or a slice outside of its sequence, or off a character boundary. -/
  | bounds
  /-- A buffer longer than the address space admits. -/
  | capacity
  deriving DecidableEq, Repr

/-- Why a run stops early. -/
inductive Stop (ε : Type)
  | fault (fault : Fault)
  | refused (error : ε)

/-- A run of operations that may fault, and may return an error. -/
abbrev Faulty (ε α : Type) := Except (Stop ε) α

namespace Faulty

/-- A computation whose operations are all checked. -/
def plain : Except ε α → Faulty ε α
  | .ok value => .ok value
  | .error error => .error (.refused error)

def fault (kind : Fault) : Faulty ε α :=
  .error (.fault kind)

def refuse (error : ε) : Faulty ε α :=
  .error (.refused error)

/-- The run faults. -/
def Faults (run : Faulty ε α) : Prop :=
  ∃ kind, run = fault kind

@[simp] theorem plain_ok (value : α) : plain (.ok value : Except ε α) = pure value := rfl

theorem plain_bind (outcome : Except ε α) (next : α → Except ε β) :
    plain (outcome >>= next) = plain outcome >>= fun value => plain (next value) := by
  cases outcome <;> rfl

theorem plain_bind_congr {outcome : Except ε α} {first second : α → Faulty ε β}
    (same : ∀ value, outcome = .ok value → first value = second value) :
    (plain outcome >>= first) = plain outcome >>= second := by
  cases outcome with
  | error error => rfl
  | ok value => exact same value rfl

/-- Checked computations do not fault. -/
theorem not_faults_plain (outcome : Except ε α) : ¬ Faults (plain outcome) := by
  rintro ⟨kind, same⟩
  cases outcome <;> cases same

/-- A run that does not fault gives a result or an error. -/
theorem not_faults_iff {run : Faulty ε α} : ¬ Faults run ↔ ∃ outcome, run = plain outcome := by
  constructor
  · intro none
    cases run with
    | ok value => exact ⟨.ok value, rfl⟩
    | error stop =>
        cases stop with
        | fault kind => exact absurd ⟨kind, rfl⟩ none
        | refused error => exact ⟨.error error, rfl⟩
  · rintro ⟨outcome, rfl⟩
    exact not_faults_plain outcome

theorem faults_fault (kind : Fault) : Faults (fault kind : Faulty ε α) :=
  ⟨kind, rfl⟩

/-- What follows a fault is not run. -/
theorem Faults.bind {run : Faulty ε α} (faults : Faults run) (next : α → Faulty ε β) :
    Faults (run >>= next) := by
  obtain ⟨kind, rfl⟩ := faults
  exact ⟨kind, rfl⟩

/-- Give the returned error another form. -/
def mapRefused {ε' : Type} (change : ε → ε') : Faulty ε α → Faulty ε' α
  | .ok value => .ok value
  | .error (.fault kind) => .error (.fault kind)
  | .error (.refused error) => .error (.refused (change error))

/-- A computation that may have no result, for which there is no error. -/
def ofOption : Option α → Faulty Unit α
  | some value => .ok value
  | none => refuse ()

/-- The result of a run, or nothing. -/
def toOption : Faulty Unit α → Faulty ε (Option α)
  | .ok value => .ok (some value)
  | .error (.fault kind) => .error (.fault kind)
  | .error (.refused ()) => .ok none

@[simp] theorem ofOption_some (value : α) : ofOption (some value) = pure value := rfl

theorem ofOption_bind (outcome : Option α) (next : α → Option β) :
    ofOption (outcome >>= next) = ofOption outcome >>= fun value => ofOption (next value) := by
  cases outcome <;> rfl

@[simp] theorem toOption_ofOption (outcome : Option α) :
    (toOption (ofOption outcome) : Faulty ε (Option α)) = pure outcome := by
  cases outcome <;> rfl

/-- The result of an operation on integers of `bits` bits with a sign. -/
def signed (bits : Nat) (result : Int) : Faulty ε Int :=
  if -2 ^ (bits - 1) ≤ result ∧ result < 2 ^ (bits - 1) then .ok result else fault .overflow

/-- The result of an operation on integers of `bits` bits without a sign. -/
def unsigned (bits : Nat) (result : Int) : Faulty ε Nat :=
  if 0 ≤ result ∧ result < 2 ^ bits then .ok result.toNat else fault .overflow

/-- A subtraction of integers without a sign, whose result is no larger than `minuend`. -/
def sub (minuend subtrahend : Nat) : Faulty ε Nat :=
  if subtrahend ≤ minuend then .ok (minuend - subtrahend) else fault .overflow

theorem signed_of_fits {bits : Nat} {result : Int} (low : -2 ^ (bits - 1) ≤ result)
    (high : result < 2 ^ (bits - 1)) : (signed bits result : Faulty ε Int) = pure result :=
  if_pos ⟨low, high⟩

theorem unsigned_of_fits {bits : Nat} {result : Int} (low : 0 ≤ result)
    (high : result < 2 ^ bits) : (unsigned bits result : Faulty ε Nat) = pure result.toNat :=
  if_pos ⟨low, high⟩

theorem sub_of_le {minuend subtrahend : Nat} (le : subtrahend ≤ minuend) :
    (sub minuend subtrahend : Faulty ε Nat) = pure (minuend - subtrahend) :=
  if_pos le

end Faulty

/-- The length of a text in bytes. -/
def byteLength (text : Text) : Nat :=
  (text.map Char.utf8Size).sum

@[simp] theorem byteLength_nil : byteLength [] = 0 := rfl

@[simp] theorem byteLength_cons (char : Char) (text : Text) :
    byteLength (char :: text) = char.utf8Size + byteLength text := rfl

@[simp] theorem byteLength_append (first second : Text) :
    byteLength (first ++ second) = byteLength first + byteLength second := by
  rw [byteLength, List.map_append, List.sum_append]
  rfl

theorem length_le_byteLength (text : Text) : text.length ≤ byteLength text := by
  induction text with
  | nil => exact Nat.le_refl _
  | cons char text ih =>
      have some := char.utf8Size_pos
      rw [byteLength_cons, List.length_cons]
      omega

@[simp] theorem byteLength_reverse (text : Text) : byteLength text.reverse = byteLength text := by
  induction text with
  | nil => rfl
  | cons char text ih =>
      rw [List.reverse_cons, byteLength_append, ih, byteLength_cons, byteLength_cons,
        byteLength_nil, Nat.add_zero, Nat.add_comm]

/-- Cut a text at a byte offset, which must be between two characters. -/
def cutAt : Text → Nat → Option (Text × Text)
  | text, 0 => some ([], text)
  | [], _ + 1 => none
  | char :: text, offset + 1 =>
      if char.utf8Size ≤ offset + 1 then
        (cutAt text (offset + 1 - char.utf8Size)).map fun parts => (char :: parts.1, parts.2)
      else
        none

/-- The bytes `start..stop` of a text. -/
def sliceBytes (text : Text) (start stop : Nat) : Faulty ε Text :=
  match cutAt text stop with
  | none => Faulty.fault .bounds
  | some (front, _) =>
      match cutAt front start with
      | none => Faulty.fault .bounds
      | some (_, middle) => .ok middle

/-- A byte of a text that is ASCII, where bytes are characters. -/
def byteAt (text : Text) (index : Nat) : Faulty ε Char :=
  match text[index]? with
  | none => Faulty.fault .bounds
  | some char => .ok char

@[simp] theorem cutAt_append (first second : Text) :
    cutAt (first ++ second) (byteLength first) = some (first, second) := by
  induction first with
  | nil =>
      rw [byteLength_nil, List.nil_append, cutAt]
  | cons char first ih =>
      have some := char.utf8Size_pos
      obtain ⟨size, sized⟩ := Nat.exists_eq_succ_of_ne_zero (Nat.pos_iff_ne_zero.mp some)
      have offset : byteLength (char :: first) = size + byteLength first + 1 := by
        rw [byteLength_cons, sized]
        omega
      have rest : size + byteLength first + 1 - char.utf8Size = byteLength first := by omega
      rw [offset, List.cons_append, cutAt, if_pos (by omega), rest, ih]
      rfl

/-- Slicing at the ends of a part of a text gives the part. -/
theorem sliceBytes_append (before part after : Text) :
    (sliceBytes (before ++ part ++ after) (byteLength before)
      (byteLength before + byteLength part) : Faulty ε Text) = pure part := by
  rw [sliceBytes, ← byteLength_append, cutAt_append]
  simp only [cutAt_append]
  rfl

/-- Every character of a text takes one byte. -/
theorem byteLength_of_ascii {text : Text} (ascii : ∀ char ∈ text, char.utf8Size = 1) :
    byteLength text = text.length := by
  induction text with
  | nil => rfl
  | cons char text ih =>
      rw [byteLength_cons, ascii char (by simp), List.length_cons,
        ih fun other member => ascii other (by simp [member]), Nat.add_comm]

/-- In an ASCII text a slice within its length is one of characters. -/
theorem sliceBytes_of_ascii {text : Text} (ascii : ∀ char ∈ text, char.utf8Size = 1)
    {start stop : Nat} (ordered : start ≤ stop) (inside : stop ≤ text.length) :
    (sliceBytes text start stop : Faulty ε Text) = pure ((text.take stop).drop start) := by
  have parts : text = text.take start ++ (text.take stop).drop start ++ text.drop stop := by
    have front : text.take start = (text.take stop).take start := by
      rw [List.take_take, Nat.min_eq_left ordered]
    rw [front, List.take_append_drop, List.take_append_drop]
  have single (piece : Text) (part : ∀ char ∈ piece, char ∈ text) :
      byteLength piece = piece.length :=
    byteLength_of_ascii fun char member => ascii char (part char member)
  have first : byteLength (text.take start) = start := by
    rw [single _ fun char member => List.mem_of_mem_take member, List.length_take]
    omega
  have second : byteLength ((text.take stop).drop start) = stop - start := by
    rw [single _ fun char member => List.mem_of_mem_take (List.mem_of_mem_drop member),
      List.length_drop, List.length_take]
    omega
  have sliced := @sliceBytes_append ε (text.take start) ((text.take stop).drop start)
    (text.drop stop)
  rw [first, second, Nat.add_sub_cancel' ordered] at sliced
  rw [← parts] at sliced
  exact sliced

theorem byteAt_of_lt {text : Text} {index : Nat} (inside : index < text.length) :
    (byteAt text index : Faulty ε Char) = pure text[index] := by
  rw [byteAt, List.getElem?_eq_getElem inside]
  rfl

end DfeClickhouse.Library
