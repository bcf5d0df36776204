import DfeClickhouse.Library.Script

/-!
# Methods

A method works on an object, may wait for events from outside, and returns or fails.
What it did to its object stays when it fails.
-/

namespace DfeClickhouse.Library

/-- A method of an object. -/
def Method (ε σ δ α : Type) := σ → Script ε (Except δ α × σ)

namespace Method

variable {ε σ τ δ δ' α β : Type}

instance : Monad (Method ε σ δ) where
  pure value := fun object => pure (.ok value, object)
  bind method next := fun object => do
    match ← method object with
    | (.ok value, object) => next value object
    | (.error error, object) => return (.error error, object)

/-- Fail. -/
def throw (error : δ) : Method ε σ δ α :=
  fun object => pure (.error error, object)

/-- The object as it is. -/
def get : Method ε σ δ σ :=
  fun object => pure (.ok object, object)

/-- Change the object. -/
def modify (change : σ → σ) : Method ε σ δ Unit :=
  fun object => pure (.ok (), change object)

/-- Return or fail as an outcome says. -/
def ofExcept : Except δ α → Method ε σ δ α
  | .ok value => pure value
  | .error error => throw error

/-- Take one event, if the method is ready for it. -/
def await (ready : ε → Option α) : Method ε σ δ α := fun object => do
  let value ← Script.await ready
  return (.ok value, object)

/-- A method of a part of the object. -/
def focus (view : σ → τ) (put : σ → τ → σ) (method : Method ε τ δ α) : Method ε σ δ α :=
  fun object => do
    let (result, part) ← method (view object)
    return (result, put object part)

/-- A method whose failure is looked at. -/
def attempt (method : Method ε σ δ α) : Method ε σ δ' (Except δ α) := fun object => do
  let (result, object) ← method object
  return (.ok result, object)

/-- One method after the other on an object, whether or not they fail: their outcomes. -/
def outcomes (methods : α → Method ε σ δ β) : List α → σ → Script ε (List (Except δ β) × σ)
  | [], object => pure ([], object)
  | item :: items, object => do
      let (result, object) ← methods item object
      let (results, object) ← outcomes methods items object
      return (result :: results, object)

/-- Every item meets a condition on the object it is worked on. -/
def Meets (methods : α → Method ε σ δ β) (condition : σ → α → Prop) :
    List α → σ → List ε → Prop
  | [], _, _ => True
  | item :: items, object, events =>
      condition object item ∧ ∀ result after rest,
        (methods item object).run events = .done (result, after) rest →
          Meets methods condition items after rest

variable {events rest : List ε} {object after : σ}

@[simp] theorem run_pure_iff {value : α} {result : Except δ α} :
    ((pure value : Method ε σ δ α) object).run events = .done (result, after) rest ↔
      result = .ok value ∧ after = object ∧ rest = events := by
  constructor
  · rintro ⟨⟩
    exact ⟨rfl, rfl, rfl⟩
  · rintro ⟨rfl, rfl, rfl⟩
    rfl

theorem run_throw_iff {error : δ} {result : Except δ α} :
    ((throw error : Method ε σ δ α) object).run events = .done (result, after) rest ↔
      result = .error error ∧ after = object ∧ rest = events := by
  constructor
  · rintro ⟨⟩
    exact ⟨rfl, rfl, rfl⟩
  · rintro ⟨rfl, rfl, rfl⟩
    rfl

theorem run_modify_iff {change : σ → σ} {result : Except δ Unit} :
    ((modify change : Method ε σ δ Unit) object).run events = .done (result, after) rest ↔
      result = .ok () ∧ after = change object ∧ rest = events := by
  constructor
  · rintro ⟨⟩
    exact ⟨rfl, rfl, rfl⟩
  · rintro ⟨rfl, rfl, rfl⟩
    rfl

theorem run_ofExcept_iff {outcome result : Except δ α} :
    ((ofExcept outcome : Method ε σ δ α) object).run events = .done (result, after) rest ↔
      result = outcome ∧ after = object ∧ rest = events := by
  cases outcome with
  | ok value => exact run_pure_iff
  | error error => exact run_throw_iff

/-- One event is taken. -/
theorem run_await_iff {ready : ε → Option α} {result : Except δ α} :
    ((await ready : Method ε σ δ α) object).run events = .done (result, after) rest ↔
      ∃ event value, events = event :: rest ∧ ready event = some value ∧ result = .ok value ∧
        after = object := by
  rw [await, Script.run_bind_iff]
  simp only [Script.run_await_iff, Script.run_pure_iff, Prod.mk.injEq]
  constructor
  · rintro ⟨value, _, ⟨event, rfl, taken⟩, ⟨rfl, rfl⟩, rfl⟩
    exact ⟨event, value, rfl, taken, rfl, rfl⟩
  · rintro ⟨event, value, rfl, taken, rfl, rfl⟩
    exact ⟨value, rest, ⟨event, rfl, taken⟩, ⟨rfl, rfl⟩, rfl⟩

/-- A failure ends the run; a value goes to the next method. -/
theorem run_bind_iff {method : Method ε σ δ α} {next : α → Method ε σ δ β}
    {result : Except δ β} :
    ((method >>= next) object).run events = .done (result, after) rest ↔
      (∃ error, (method object).run events = .done (.error error, after) rest ∧
        result = .error error) ∨
      ∃ value middle left, (method object).run events = .done (.ok value, middle) left ∧
        (next value middle).run left = .done (result, after) rest := by
  refine Script.run_bind_iff.trans ?_
  constructor
  · rintro ⟨⟨outcome, middle⟩, left, first, ran⟩
    cases outcome with
    | ok value => exact .inr ⟨value, middle, left, first, ran⟩
    | error error =>
        cases ran
        exact .inl ⟨error, first, rfl⟩
  · rintro (⟨error, first, rfl⟩ | ⟨value, middle, left, first, ran⟩)
    · exact ⟨_, _, first, rfl⟩
    · exact ⟨_, _, first, ran⟩

/-- An event is taken and the next method goes on with it. -/
theorem run_await_bind_iff {ready : ε → Option α} {next : α → Method ε σ δ β}
    {result : Except δ β} :
    (((await ready : Method ε σ δ α) >>= next) object).run events = .done (result, after) rest ↔
      ∃ event value left, events = event :: left ∧ ready event = some value ∧
        (next value object).run left = .done (result, after) rest := by
  rw [run_bind_iff]
  constructor
  · rintro (⟨error, taken, _⟩ | ⟨value, middle, left, taken, ran⟩)
    · obtain ⟨_, _, _, _, ⟨⟩, _⟩ := run_await_iff.mp taken
    · obtain ⟨event, _, rfl, found, ⟨⟩, rfl⟩ := run_await_iff.mp taken
      exact ⟨event, value, left, rfl, found, ran⟩
  · rintro ⟨event, value, left, rfl, found, ran⟩
    exact .inr ⟨value, object, left, run_await_iff.mpr ⟨event, value, rfl, found, rfl, rfl⟩, ran⟩

@[simp] theorem run_get_bind {next : σ → Method ε σ δ β} :
    (((get : Method ε σ δ σ) >>= next) object).run events = (next object object).run events :=
  rfl

@[simp] theorem run_modify_bind {change : σ → σ} {next : Unit → Method ε σ δ β} :
    (((modify change : Method ε σ δ Unit) >>= next) object).run events =
      (next () (change object)).run events :=
  rfl

theorem run_focus_iff {view : σ → τ} {put : σ → τ → σ} {method : Method ε τ δ α}
    {result : Except δ α} :
    ((focus view put method) object).run events = .done (result, after) rest ↔
      ∃ part, (method (view object)).run events = .done (result, part) rest ∧
        after = put object part := by
  rw [focus, Script.run_bind_iff]
  constructor
  · rintro ⟨⟨outcome, part⟩, left, first, ran⟩
    cases ran
    exact ⟨part, first, rfl⟩
  · rintro ⟨part, first, rfl⟩
    exact ⟨_, _, first, rfl⟩

theorem run_attempt_iff {method : Method ε σ δ α} {result : Except δ' (Except δ α)} :
    ((attempt method : Method ε σ δ' (Except δ α)) object).run events =
        .done (result, after) rest ↔
      ∃ outcome, (method object).run events = .done (outcome, after) rest ∧
        result = .ok outcome := by
  rw [attempt, Script.run_bind_iff]
  constructor
  · rintro ⟨⟨outcome, middle⟩, left, first, ran⟩
    cases ran
    exact ⟨outcome, first, rfl⟩
  · rintro ⟨outcome, first, rfl⟩
    exact ⟨_, _, first, rfl⟩

/-- What each method keeps under the condition of its item, of the items so far, their
outcomes, the events and the object, all of them keep. -/
theorem outcomes_keeps_meeting {methods : α → Method ε σ δ β} {condition : σ → α → Prop}
    {holds : List α → List (Except δ β) → List ε → σ → Prop}
    (each : ∀ items results history object item used rest result after,
      holds items results history object → condition object item →
      (methods item object).run (used ++ rest) = .done (result, after) rest →
      holds (items ++ [item]) (results ++ [result]) (history ++ used) after)
    {before items : List α} {earlier results : List (Except δ β)} {history used rest : List ε}
    {object after : σ} (start : holds before earlier history object)
    (meets : Meets methods condition items object (used ++ rest))
    (ran : (outcomes methods items object).run (used ++ rest) = .done (results, after) rest) :
    holds (before ++ items) (earlier ++ results) (history ++ used) after := by
  induction items generalizing before earlier history used object results with
  | nil =>
      cases used with
      | nil =>
          cases ran
          simpa using start
      | cons event used =>
          have lengths := congrArg List.length (Progress.done.inj ran).2
          simp at lengths
          omega
  | cons item items ih =>
      rw [outcomes, Script.run_bind_iff] at ran
      obtain ⟨⟨result, middle⟩, left, first, ran⟩ := ran
      obtain ⟨⟨others, final⟩, left', later, ran⟩ := Script.run_bind_iff.mp ran
      cases ran
      obtain ⟨head, split⟩ := (methods item object).suffix first
      obtain ⟨tail, rfl⟩ := (outcomes methods items middle).suffix later
      obtain rfl : used = head ++ tail := by
        apply @List.append_cancel_right _ _ rest _
        rw [← split, List.append_assoc]
      have going := meets.2 result middle (tail ++ rest) first
      rw [List.append_assoc] at first
      have kept := each before earlier history object item head (tail ++ rest) result middle
        start meets.1 first
      have whole := ih kept going later
      simpa [List.append_assoc] using whole

theorem meets_always (methods : α → Method ε σ δ β) (items : List α) (object : σ)
    (events : List ε) : Meets methods (fun _ _ => True) items object events := by
  induction items generalizing object events with
  | nil => trivial
  | cons item items ih =>
      refine ⟨trivial, ?_⟩
      intro result after rest _
      exact ih after rest

/-- What each method keeps, of the items so far, their outcomes, the events and the object,
all of them keep. -/
theorem outcomes_keeps {methods : α → Method ε σ δ β}
    {holds : List α → List (Except δ β) → List ε → σ → Prop}
    (each : ∀ items results history object item used rest result after,
      holds items results history object →
      (methods item object).run (used ++ rest) = .done (result, after) rest →
      holds (items ++ [item]) (results ++ [result]) (history ++ used) after)
    {before items : List α} {earlier results : List (Except δ β)} {history used rest : List ε}
    {object after : σ} (start : holds before earlier history object)
    (ran : (outcomes methods items object).run (used ++ rest) = .done (results, after) rest) :
    holds (before ++ items) (earlier ++ results) (history ++ used) after := by
  apply outcomes_keeps_meeting _ start (meets_always methods items object _) ran
  intro items results history object item used rest result after held _ ran
  exact each items results history object item used rest result after held ran

end Method

end DfeClickhouse.Library
