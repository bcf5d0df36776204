import DfeClickhouse.Library.Incremental
import DfeClickhouse.Library.ReadBack

/-!
# Computations over a duplex stream

A computation that reads from one side of a stream and writes to the other, in any order.
What it wrote stays written when it fails.
-/

namespace DfeClickhouse.Library

/-- What was written, and the result with what is left to read. -/
structure Duplex.Outcome (τ ε α : Type) where
  written : List τ
  result : Except ε (α × List τ)

/-- A computation over what there is to read. -/
def Duplex (τ ε α : Type) := List τ → Duplex.Outcome τ ε α

namespace Duplex

variable {τ ε α β : Type}

def Outcome.after (outcome : Outcome τ ε α) (written : List τ) : Outcome τ ε α :=
  { outcome with written := written ++ outcome.written }

instance : Monad (Duplex τ ε) where
  pure value := fun input => ⟨[], .ok (value, input)⟩
  bind program next := fun input =>
    match program input with
    | ⟨written, .ok (value, rest)⟩ => (next value rest).after written
    | ⟨written, .error error⟩ => ⟨written, .error error⟩

/-- Only read. -/
def ofReader (reader : Reader τ ε α) : Duplex τ ε α :=
  fun input => ⟨[], reader input⟩

/-- Only write. -/
def ofWriter (writer : Writer τ ε α) : Duplex τ ε α :=
  fun input => ⟨writer.written, writer.result.map (·, input)⟩

theorem bind_run (program : Duplex τ ε α) (next : α → Duplex τ ε β) (input : List τ) :
    (program >>= next) input =
      match program input with
      | ⟨written, .ok (value, rest)⟩ => (next value rest).after written
      | ⟨written, .error error⟩ => ⟨written, .error error⟩ := rfl

/-- A program that fails is the last. -/
theorem bind_of_error {program : Duplex τ ε α} {next : α → Duplex τ ε β} {input written : List τ}
    {error : ε} (failed : program input = ⟨written, .error error⟩) :
    (program >>= next) input = ⟨written, .error error⟩ := by
  rw [bind_run, failed]

/-- The program takes exactly these tokens, whatever follows, writes these others and
returns the value. -/
def Exchanges (program : Duplex τ ε α) (used written : List τ) (value : α) : Prop :=
  ∀ rest, program (used ++ rest) = ⟨written, .ok (value, rest)⟩

namespace Exchanges

variable {program : Duplex τ ε α} {used written : List τ} {value : α}

theorem ofWriter {writer : Writer τ ε Unit} (writes : Writer.Writes writer written) :
    Exchanges (ofWriter writer) [] written () := by
  intro rest
  obtain ⟨rfl, _, succeeded⟩ := writes
  rw [Duplex.ofWriter, succeeded]
  rfl

theorem bind_run {next : α → Duplex τ ε β} (first : Exchanges program used written value)
    (rest : List τ) : (program >>= next) (used ++ rest) = (next value rest).after written := by
  rw [Duplex.bind_run, first]

end Exchanges

end Duplex

end DfeClickhouse.Library
