import Mathlib

/-!
# Writers that may fail

A writer appends tokens to a buffer and then succeeds or fails.  A failed writer
keeps what it wrote before the failure, as a buffer passed by reference does.
-/

namespace DfeClickhouse.Library

/-- The tokens appended, and the result or the error after them. -/
structure Writer (τ ε α : Type) where
  written : List τ
  result : Except ε α

namespace Writer

variable {τ ε α β : Type}

instance : Monad (Writer τ ε) where
  pure value := ⟨[], .ok value⟩
  bind writer next :=
    match writer.result with
    | .ok value => ⟨writer.written ++ (next value).written, (next value).result⟩
    | .error error => ⟨writer.written, .error error⟩

/-- Append tokens. -/
def put (tokens : List τ) : Writer τ ε Unit :=
  ⟨tokens, .ok ()⟩

/-- Fail without writing. -/
def fail (error : ε) : Writer τ ε α :=
  ⟨[], .error error⟩

/-- Lift a computation that writes nothing. -/
def ofExcept (outcome : Except ε α) : Writer τ ε α :=
  ⟨[], outcome⟩

/-- Write every item in order, up to the first failure. -/
def each (writer : α → Writer τ ε Unit) : List α → Writer τ ε Unit
  | [] => pure ()
  | item :: items => do
      writer item
      each writer items

theorem bind_assoc {γ : Type} (writer : Writer τ ε α) (first : α → Writer τ ε β)
    (second : β → Writer τ ε γ) :
    writer >>= first >>= second = writer >>= fun value => first value >>= second := by
  obtain ⟨written, result⟩ := writer
  cases result with
  | error error => rfl
  | ok value =>
      show (Writer.mk (written ++ (first value).written) (first value).result >>= second) = _
      cases same : (first value).result with
      | error error => simp [bind, same]
      | ok next => simp [bind, same]

@[simp] theorem each_singleton (writer : α → Writer τ ε Unit) (item : α) :
    each writer [item] = writer item := by
  show (writer item >>= fun _ => pure ()) = writer item
  obtain ⟨written, result⟩ := writer item
  cases result with
  | error error => rfl
  | ok value =>
      show Writer.mk (written ++ []) _ = _
      rw [List.append_nil]
      rfl

@[simp] theorem each_append (writer : α → Writer τ ε Unit) (front back : List α) :
    each writer (front ++ back) = each writer front >>= fun _ => each writer back := by
  induction front with
  | nil => rfl
  | cons item front ih =>
      rw [List.cons_append, each, each, ih, bind_assoc]

theorem each_flatMap (writer : β → Writer τ ε Unit) (spread : α → List β) (items : List α) :
    each writer (items.flatMap spread) = each (fun item => each writer (spread item)) items := by
  induction items with
  | nil => rfl
  | cons item items ih => rw [List.flatMap_cons, each_append, each, ih]

/-- The writer succeeds with exactly these tokens. -/
def Writes (writer : Writer τ ε α) (tokens : List τ) : Prop :=
  writer.written = tokens ∧ ∃ value, writer.result = .ok value

@[simp, grind =] theorem writes_pure_iff {value : α} {tokens : List τ} :
    Writes (pure value : Writer τ ε α) tokens ↔ tokens = [] := by
  constructor
  · intro writes
    exact writes.1.symm
  · rintro rfl
    exact ⟨rfl, value, rfl⟩

@[simp, grind =] theorem writes_put_iff {tokens written : List τ} :
    Writes (put written : Writer τ ε Unit) tokens ↔ tokens = written := by
  constructor
  · intro writes
    exact writes.1.symm
  · rintro rfl
    exact ⟨rfl, (), rfl⟩

theorem not_writes_fail {error : ε} {tokens : List τ} :
    ¬ Writes (fail error : Writer τ ε α) tokens := by
  rintro ⟨_, value, succeeded⟩
  cases succeeded

theorem result_bind (writer : Writer τ ε α) (next : α → Writer τ ε β) :
    (writer >>= next).result =
      match writer.result with
      | .ok value => (next value).result
      | .error error => .error error := by
  obtain ⟨written, result⟩ := writer
  cases result <;> rfl

/-- A bound writer succeeds exactly when both of its parts do, one after the other. -/
theorem writes_bind_iff {writer : Writer τ ε α} {next : α → Writer τ ε β} {tokens : List τ} :
    Writes (writer >>= next) tokens ↔
      ∃ value first second, writer = ⟨first, .ok value⟩ ∧ Writes (next value) second ∧
        tokens = first ++ second := by
  obtain ⟨written, result⟩ := writer
  cases result with
  | error error =>
      constructor
      · rintro ⟨_, value, succeeded⟩
        cases succeeded
      · rintro ⟨_, _, _, same, _⟩
        cases same
  | ok value =>
      constructor
      · rintro ⟨same, result⟩
        exact ⟨value, written, (next value).written, rfl, ⟨rfl, result⟩, same.symm⟩
      · rintro ⟨_, _, _, same, ⟨rfl, result⟩, rfl⟩
        cases same
        exact ⟨rfl, result⟩

@[simp] theorem writes_ofExcept_bind_iff {outcome : Except ε α} {next : α → Writer τ ε β}
    {tokens : List τ} :
    Writes (ofExcept outcome >>= next) tokens ↔
      ∃ value, outcome = .ok value ∧ Writes (next value) tokens := by
  rw [writes_bind_iff]
  constructor
  · rintro ⟨value, first, second, same, writes, rfl⟩
    cases same
    exact ⟨value, rfl, writes⟩
  · rintro ⟨value, rfl, writes⟩
    exact ⟨value, [], tokens, rfl, writes, rfl⟩

@[simp] theorem writes_put_bind_iff {written : List τ} {next : Unit → Writer τ ε β}
    {tokens : List τ} :
    Writes (put written >>= next) tokens ↔
      ∃ rest, Writes (next ()) rest ∧ tokens = written ++ rest := by
  rw [writes_bind_iff]
  constructor
  · rintro ⟨_, _, rest, same, writes, rfl⟩
    cases same
    exact ⟨rest, writes, rfl⟩
  · rintro ⟨rest, writes, rfl⟩
    exact ⟨(), written, rest, rfl, writes, rfl⟩

theorem writes_unit_bind_iff {writer : Writer τ ε Unit} {next : Unit → Writer τ ε β}
    {tokens : List τ} :
    Writes (writer >>= next) tokens ↔
      ∃ first second, Writes writer first ∧ Writes (next ()) second ∧
        tokens = first ++ second := by
  rw [writes_bind_iff]
  constructor
  · rintro ⟨_, first, second, rfl, writes, rfl⟩
    exact ⟨first, second, ⟨rfl, _, rfl⟩, writes, rfl⟩
  · rintro ⟨first, second, ⟨rfl, _, succeeded⟩, writes, rfl⟩
    refine ⟨(), writer.written, second, ?_, writes, rfl⟩
    rw [← succeeded]

/-- Writing every item succeeds with one run of tokens per item. -/
theorem writes_each_iff {writer : α → Writer τ ε Unit} {items : List α} {tokens : List τ} :
    Writes (each writer items) tokens ↔
      ∃ runs, List.Forall₂ (fun item run => Writes (writer item) run) items runs ∧
        tokens = runs.flatten := by
  induction items generalizing tokens with
  | nil =>
      rw [each, writes_pure_iff]
      constructor
      · rintro rfl
        exact ⟨[], .nil, rfl⟩
      · rintro ⟨_, none, rfl⟩
        cases none
        rfl
  | cons item items ih =>
      rw [each, writes_unit_bind_iff]
      constructor
      · rintro ⟨first, second, head, tail, rfl⟩
        obtain ⟨runs, each, rfl⟩ := ih.mp tail
        exact ⟨first :: runs, .cons head each, rfl⟩
      · rintro ⟨_, pointwise, rfl⟩
        cases pointwise with
        | cons head tail =>
            exact ⟨_, _, head, ih.mpr ⟨_, tail, rfl⟩, rfl⟩

/-- Every run of tokens is the run of an item. -/
theorem exists_of_mem_runs {writer : α → Writer τ ε Unit} {items : List α}
    {runs : List (List τ)}
    (parts : List.Forall₂ (fun item run => Writes (writer item) run) items runs)
    {run : List τ} (member : run ∈ runs) : ∃ item ∈ items, Writes (writer item) run := by
  induction parts with
  | nil => cases member
  | @cons item first items runs head _ ih =>
      rcases List.mem_cons.mp member with rfl | member
      · exact ⟨item, by simp, head⟩
      · obtain ⟨item, found, writes⟩ := ih member
        exact ⟨item, by simp [found], writes⟩

/-- An item that was written succeeded with its own run. -/
theorem writes_of_mem_each {writer : α → Writer τ ε Unit} {items : List α} {tokens : List τ}
    (writes : Writes (each writer items) tokens) {item : α} (member : item ∈ items) :
    Writes (writer item) (writer item).written := by
  induction items generalizing tokens with
  | nil => cases member
  | cons first items ih =>
      rw [each, writes_unit_bind_iff] at writes
      obtain ⟨_, _, head, tail, _⟩ := writes
      rcases List.mem_cons.mp member with rfl | later
      · exact ⟨rfl, head.2⟩
      · exact ih tail later

theorem mem_each_iff {writer : α → Writer τ ε Unit} {items : List α} {tokens : List τ}
    (writes : Writes (each writer items) tokens) {token : τ} :
    token ∈ tokens ↔ ∃ item ∈ items, token ∈ (writer item).written := by
  induction items generalizing tokens with
  | nil =>
      rw [each, writes_pure_iff] at writes
      simp [writes]
  | cons first items ih =>
      rw [each, writes_unit_bind_iff] at writes
      obtain ⟨head, rest, headWrites, tail, rfl⟩ := writes
      rw [List.mem_append, ih tail, List.exists_mem_cons_iff, headWrites.1]

section Spell

variable {σ : Type} {spelling : τ → List σ}

/-- Write every token as the tokens it is spelled with. -/
def spell (spelling : τ → List σ) (writer : Writer τ ε α) : Writer σ ε α :=
  ⟨writer.written.flatMap spelling, writer.result⟩

@[simp] theorem spell_put (tokens : List τ) :
    (put tokens : Writer τ ε Unit).spell spelling = put (tokens.flatMap spelling) := rfl

theorem spell_bind (writer : Writer τ ε α) (next : α → Writer τ ε β) :
    (writer >>= next).spell spelling =
      writer.spell spelling >>= fun value => (next value).spell spelling := by
  obtain ⟨written, result⟩ := writer
  cases result with
  | ok value =>
      show Writer.mk ((written ++ (next value).written).flatMap spelling) _ = _
      rw [List.flatMap_append]
      rfl
  | error error => rfl

theorem spell_each (writer : α → Writer τ ε Unit) (items : List α) :
    (each writer items).spell spelling = each (fun item => (writer item).spell spelling) items := by
  induction items with
  | nil => rfl
  | cons item items ih => rw [each, each, spell_bind, ih]

/-- A spelled writer succeeds exactly when the writer does. -/
theorem writes_spell_iff {writer : Writer τ ε α} {tokens : List σ} :
    Writes (writer.spell spelling) tokens ↔
      Writes writer writer.written ∧ writer.written.flatMap spelling = tokens := by
  constructor
  · intro writes
    exact ⟨⟨rfl, writes.2⟩, writes.1⟩
  · intro both
    exact ⟨both.2, both.1.2⟩

end Spell

end Writer

end DfeClickhouse.Library
