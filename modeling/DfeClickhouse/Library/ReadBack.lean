import DfeClickhouse.Library.Reader
import DfeClickhouse.Library.Writer

/-!
# Reading back what was written

A reader takes back a value from whatever a writer succeeds with.  Fields follow one
another, are left out on both sides alike, or make up a list that ends with a mark.
-/

namespace DfeClickhouse.Library

variable {τ ε ε' α β γ : Type}

/-- Write only under a condition. -/
def Writer.onlyIf (condition : Prop) [Decidable condition] (writer : Writer τ ε Unit) :
    Writer τ ε Unit :=
  if condition then writer else pure ()

/-- Read only under a condition. -/
def Reader.onlyIf (condition : Prop) [Decidable condition] (reader : Reader τ ε Unit) :
    Reader τ ε Unit :=
  if condition then reader else pure ()

/-- Read under a condition, or leave a default. -/
def Reader.onlyIfOr (condition : Prop) [Decidable condition] (absent : α) (reader : Reader τ ε α) :
    Reader τ ε α :=
  if condition then reader else pure absent

/-- Read items until there is none, at most so many. -/
def Reader.untilNoneWithin (eof : ε) (item : Reader τ ε (Option α)) : Nat → Reader τ ε (List α)
  | 0 => Reader.fail eof
  | room + 1 => do
      match ← item with
      | none => return []
      | some value =>
          let values ← untilNoneWithin eof item room
          return value :: values

/-- Read items until there is none.  Every item takes some of the input. -/
def Reader.untilNone (eof : ε) (item : Reader τ ε (Option α)) : Reader τ ε (List α) :=
  fun input => untilNoneWithin eof item (input.length + 1) input

/-- A field that is there, and is read, under one condition. -/
theorem Reader.Reads.onlyIfOr {condition condition' : Prop} [Decidable condition]
    [Decidable condition'] {reader : Reader τ ε α} {used : List τ} {value absent : α}
    (alike : condition ↔ condition') (reads : Reader.Reads reader used value) :
    Reader.Reads (Reader.onlyIfOr condition' absent reader) (if condition then used else [])
      (if condition then value else absent) := by
  unfold Reader.onlyIfOr
  by_cases present : condition
  · rw [if_pos present, if_pos present, if_pos (alike.mp present)]
    exact reads
  · rw [if_neg present, if_neg present, if_neg fun present' => present (alike.mpr present')]
    exact Reader.Reads.pure absent

/-- A field that is there, and is left, under one condition. -/
theorem Reader.Reads.onlyIf {condition condition' : Prop} [Decidable condition]
    [Decidable condition'] {reader : Reader τ ε Unit} {used : List τ}
    (alike : condition ↔ condition') (reads : Reader.Reads reader used ()) :
    Reader.Reads (Reader.onlyIf condition' reader) (if condition then used else []) () := by
  unfold Reader.onlyIf
  by_cases present : condition
  · rw [if_pos present, if_pos (alike.mp present)]
    exact reads
  · rw [if_neg present, if_neg fun present' => present (alike.mpr present')]
    exact Reader.Reads.pure ()

/-- The reader takes the value from all the writer succeeds with. -/
def ReadBack (writer : Writer τ ε Unit) (reader : Reader τ ε' α) (value : α) : Prop :=
  ∀ tokens, Writer.Writes writer tokens → Reader.Reads reader tokens value

namespace ReadBack

variable {writer writer' : Writer τ ε Unit} {reader : Reader τ ε' α} {value : α}

theorem pure (value : α) : ReadBack (pure () : Writer τ ε Unit)
    (pure value : Reader τ ε' α) value := by
  intro tokens writes
  rw [Writer.writes_pure_iff.mp writes]
  exact Reader.Reads.pure value

theorem put {tokens : List τ} (reads : Reader.Reads reader tokens value) :
    ReadBack (Writer.put tokens : Writer τ ε Unit) reader value := by
  intro written writes
  rw [Writer.writes_put_iff.mp writes]
  exact reads

/-- A writer that fails leaves nothing to read. -/
theorem fail {error : ε} : ReadBack (Writer.fail error) reader value := by
  intro tokens writes
  exact absurd writes Writer.not_writes_fail

/-- One field after the other. -/
theorem bind {next : α → Reader τ ε' β} {result : β} (first : ReadBack writer reader value)
    (second : ReadBack writer' (next value) result) :
    ReadBack (writer >>= fun _ => writer') (reader >>= next) result := by
  intro tokens writes
  obtain ⟨head, tail, writesHead, writesTail, rfl⟩ := Writer.writes_unit_bind_iff.mp writes
  exact (first head writesHead).bind (second tail writesTail)

/-- The last field, and what is made of it. -/
theorem bind_pure {change : α → β} (first : ReadBack writer reader value) :
    ReadBack writer (reader >>= fun value => Pure.pure (change value)) (change value) := by
  intro tokens writes
  exact (first tokens writes).bind_pure

theorem map (first : ReadBack writer reader value) (change : α → β) :
    ReadBack writer (change <$> reader) (change value) := by
  intro tokens writes
  exact (first tokens writes).map change

/-- A field that both sides leave out alike. -/
theorem onlyIf {condition condition' : Prop} [Decidable condition] [Decidable condition']
    {reader : Reader τ ε' Unit} (alike : condition ↔ condition')
    (field : ReadBack writer reader ()) :
    ReadBack (Writer.onlyIf condition writer) (Reader.onlyIf condition' reader) () := by
  unfold Writer.onlyIf Reader.onlyIf
  by_cases present : condition
  · rw [if_pos present, if_pos (alike.mp present)]
    exact field
  · rw [if_neg present, if_neg fun present' => present (alike.mpr present')]
    exact ReadBack.pure ()

/-- A field that both sides leave out alike, with a default where it is left out. -/
theorem onlyIfOr {condition condition' : Prop} [Decidable condition] [Decidable condition']
    {absent : α} (alike : condition ↔ condition') (field : ReadBack writer reader value) :
    ReadBack (Writer.onlyIf condition writer) (Reader.onlyIfOr condition' absent reader)
      (if condition then value else absent) := by
  unfold Writer.onlyIf Reader.onlyIfOr
  by_cases present : condition
  · rw [if_pos present, if_pos present, if_pos (alike.mp present)]
    exact field
  · rw [if_neg present, if_neg present, if_neg fun present' => present (alike.mpr present')]
    exact ReadBack.pure absent

/-- Items one after the other and a mark, read with room for them. -/
theorem reads_untilNoneWithin {eof : ε'} {item : Reader τ ε' (Option β)} {runs : List (List τ)}
    {values : List β} {mark : List τ}
    (each : List.Forall₂ (fun run value => Reader.Reads item run (some value)) runs values)
    (ending : Reader.Reads item mark none) {room : Nat} (enough : runs.length < room) :
    Reader.Reads (Reader.untilNoneWithin eof item room) (runs.flatten ++ mark) values := by
  induction each generalizing room with
  | nil =>
      cases room with
      | zero => cases enough
      | succ room =>
          intro rest
          rw [List.flatten_nil, List.nil_append, Reader.untilNoneWithin,
            Reader.bind_of_ok (ending rest)]
          rfl
  | cons head tail ih =>
      cases room with
      | zero => cases enough
      | succ room =>
          intro rest
          have later := ih (Nat.lt_of_succ_lt_succ enough) rest
          rw [List.flatten_cons, List.append_assoc, List.append_assoc, Reader.untilNoneWithin,
            Reader.bind_of_ok (head _), ← List.append_assoc]
          dsimp only
          rw [Reader.bind_of_ok later]
          rfl

/-- A list that ends with a mark. -/
theorem untilNone {eof : ε'} {item : Reader τ ε' (Option β)} {write : α → Writer τ ε Unit}
    {mark : Writer τ ε Unit} {items : List α} {values : List β}
    (each : List.Forall₂ (fun given value => ReadBack (write given) item (some value)) items values)
    (nonempty : ∀ given, ¬ Writer.Writes (write given) []) (ending : ReadBack mark item none) :
    ReadBack (Writer.each write items >>= fun _ => mark) (Reader.untilNone eof item) values := by
  intro tokens writes
  obtain ⟨_, tail, writesItems, writesMark, rfl⟩ := Writer.writes_unit_bind_iff.mp writes
  obtain ⟨runs, written, rfl⟩ := Writer.writes_each_iff.mp writesItems
  have reads : List.Forall₂ (fun run value => Reader.Reads item run (some value)) runs values := by
    clear writes writesItems writesMark
    induction each generalizing runs with
    | nil =>
        cases written
        exact .nil
    | cons head _ ih =>
        cases written with
        | cons first others => exact .cons (head _ first) (ih _ others)
  have short : runs.length ≤ runs.flatten.length := by
    clear writes writesItems reads each
    induction written with
    | nil => exact Nat.le_refl _
    | @cons given run items runs first others ih =>
        have some : 0 < run.length := by
          apply List.length_pos_of_ne_nil
          rintro rfl
          exact nonempty given first
        rw [List.flatten_cons, List.length_append, List.length_cons]
        omega
  intro rest
  apply reads_untilNoneWithin reads (ending tail writesMark)
  rw [List.length_append, List.length_append]
  omega

end ReadBack

end DfeClickhouse.Library
