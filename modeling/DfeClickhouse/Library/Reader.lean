import Mathlib

/-!
# Sequential readers

A reader consumes a list of tokens from the front and either fails or returns a
value with the unread rest.  Two judgements carry the proofs about readers:
`Reads` says which tokens a reader consumes and what it returns whatever follows
them, and `Agree` says that two readers succeed on the same inputs, leave the
same rest and return related values.
-/

namespace DfeClickhouse.Library

variable {τ ε ε' α β γ δ : Type}

/-- A reader of tokens `τ` that fails with `ε` or returns an `α`. -/
abbrev Reader (τ ε α : Type) := StateT (List τ) (Except ε) α

namespace Reader

/-- Stop reading with an error. -/
def fail (error : ε) : Reader τ ε α := fun _ => .error error

/-- Continue only under `condition`. -/
def require (condition : Prop) [Decidable condition] (error : ε) :
    Reader τ ε Unit :=
  if condition then pure () else fail error

/-- Exactly `count` tokens, or the error `eof` when the input is shorter. -/
def take (eof : ε) (count : Nat) : Reader τ ε (List τ) := fun input =>
  if count ≤ input.length then
    .ok (input.take count, input.drop count)
  else
    .error eof

/-- Run a reader `count` times and collect its values in order. -/
def times (reader : Reader τ ε α) : Nat → Reader τ ε (List α)
  | 0 => pure []
  | count + 1 => do
      let value ← reader
      let values ← times reader count
      pure (value :: values)

/-- Run one reader for each list element, in order. -/
def each (reader : α → Reader τ ε β) : List α → Reader τ ε (List β)
  | [] => pure []
  | head :: tail => do
      let value ← reader head
      let values ← each reader tail
      pure (value :: values)

/-- The tokens a reader takes from the front of the input. -/
def consumed (reader : Reader τ ε α) : Reader τ ε (List τ) := fun input =>
  match reader input with
  | .ok (_, rest) => .ok (input.take (input.length - rest.length), rest)
  | .error error => .error error

/-- Lift a computation that reads nothing. -/
def ofExcept : Except ε α → Reader τ ε α
  | .ok value => pure value
  | .error error => fail error

/-! ## Running the combinators -/

theorem mapM_ok {step : α → Except ε β} {value : α → β} {items : List α}
    (each : ∀ item ∈ items, step item = .ok (value item)) :
    items.mapM step = .ok (items.map value) := by
  induction items with
  | nil => rfl
  | cons head tail ih =>
      rw [List.mapM_cons, each head (by simp), ih fun item member => each item (by simp [member])]
      rfl

/-- A list is mapped exactly when every item is. -/
theorem mapM_ok_iff {step : α → Except ε β} {items : List α} {results : List β} :
    items.mapM step = .ok results ↔
      List.Forall₂ (fun item result => step item = .ok result) items results := by
  induction items generalizing results with
  | nil =>
      constructor
      · rintro ⟨⟩
        exact .nil
      · intro each
        cases each
        rfl
  | cons head tail ih =>
      rw [List.mapM_cons]
      constructor
      · intro mapped
        cases first : step head with
        | error error =>
            rw [first] at mapped
            cases mapped
        | ok result =>
            rw [first] at mapped
            cases rest : tail.mapM step with
            | error error =>
                rw [rest] at mapped
                cases mapped
            | ok others =>
                rw [rest] at mapped
                cases mapped
                exact .cons first (ih.mp rest)
      · intro each
        cases each with
        | cons first others =>
            rw [first, ih.mpr others]
            rfl

/-- An outcome that is used comes back where both parts do. -/
theorem ok_bind_iff {outcome : Except ε α} {next : α → Except ε β} {result : β} :
    (outcome >>= next) = .ok result ↔ ∃ value, outcome = .ok value ∧ next value = .ok result := by
  cases outcome with
  | error error =>
      constructor
      · intro impossible
        cases impossible
      · rintro ⟨_, ⟨⟩, _⟩
  | ok value =>
      constructor
      · intro used
        exact ⟨value, rfl, used⟩
      · rintro ⟨_, ⟨⟩, used⟩
        exact used

/-- Where a list is mapped, the start of it is mapped to the start of the result. -/
theorem mapM_append_ok {step : α → Except ε β} {first second : List α} {results : List β}
    (mapped : (first ++ second).mapM step = .ok results) :
    ∃ before after, first.mapM step = .ok before ∧ results = before ++ after := by
  rw [List.mapM_append] at mapped
  obtain ⟨before, start, mapped⟩ := ok_bind_iff.mp mapped
  obtain ⟨after, _, same⟩ := ok_bind_iff.mp mapped
  cases same
  exact ⟨before, after, start, rfl⟩

theorem mapM_error {step : α → Except ε β} {items : List α} {item : α} {error : ε}
    (member : item ∈ items) (fails : step item = .error error) :
    ∃ error, items.mapM step = .error error := by
  induction items with
  | nil => cases member
  | cons head tail ih =>
      rw [List.mapM_cons]
      cases first : step head with
      | error error => exact ⟨error, rfl⟩
      | ok value =>
          have later : item ∈ tail := by
            rcases List.mem_cons.mp member with rfl | later
            · rw [fails] at first
              cases first
            · exact later
          obtain ⟨error, failed⟩ := ih later
          exact ⟨error, by rw [failed]; rfl⟩

@[simp] theorem pure_run (value : α) (input : List τ) :
    (pure value : Reader τ ε α) input = .ok (value, input) :=
  rfl

@[simp] theorem fail_run (error : ε) (input : List τ) :
    (fail error : Reader τ ε α) input = .error error :=
  rfl

theorem bind_run (reader : Reader τ ε α) (next : α → Reader τ ε β)
    (input : List τ) :
    (reader >>= next) input =
      match reader input with
      | .ok (value, rest) => next value rest
      | .error error => .error error := by
  cases result : reader input <;> simp [bind, StateT.bind, result, Except.bind]

theorem map_run (change : α → β) (reader : Reader τ ε α) (input : List τ) :
    (change <$> reader) input =
      match reader input with
      | .ok (value, rest) => .ok (change value, rest)
      | .error error => .error error := by
  cases result : reader input <;>
    simp [Functor.map, StateT.map, bind, pure, Except.bind, Except.pure, result]

/-- A bound reader succeeds exactly when both of its parts do. -/
theorem bind_ok_iff {reader : Reader τ ε α} {next : α → Reader τ ε β}
    {input rest : List τ} {value : β} :
    (reader >>= next) input = .ok (value, rest) ↔
      ∃ first middle, reader input = .ok (first, middle) ∧
        next first middle = .ok (value, rest) := by
  rw [bind_run]
  cases result : reader input with
  | error error => simp
  | ok pair =>
      obtain ⟨first, middle⟩ := pair
      simp only [Except.ok.injEq, Prod.mk.injEq]
      constructor
      · intro continued
        exact ⟨first, middle, ⟨rfl, rfl⟩, continued⟩
      · rintro ⟨_, _, ⟨rfl, rfl⟩, continued⟩
        exact continued

theorem bind_of_ok {reader : Reader τ ε α} {next : α → Reader τ ε β}
    {input rest : List τ} {value : α}
    (first : reader input = .ok (value, rest)) :
    (reader >>= next) input = next value rest := by
  rw [bind_run, first]

theorem bind_of_error {reader : Reader τ ε α} {next : α → Reader τ ε β}
    {input : List τ} {error : ε}
    (first : reader input = .error error) :
    (reader >>= next) input = .error error := by
  rw [bind_run, first]

theorem require_of_holds {condition : Prop} [Decidable condition]
    (holds : condition) (error : ε) :
    (require condition error : Reader τ ε Unit) = pure () := by
  simp [require, holds]

theorem require_of_not {condition : Prop} [Decidable condition]
    (refused : ¬ condition) (error : ε) :
    (require condition error : Reader τ ε Unit) = fail error := by
  simp [require, refused]

@[simp] theorem require_ok_iff {condition : Prop} [Decidable condition] {error : ε}
    {input rest : List τ} {value : Unit} :
    (require condition error : Reader τ ε Unit) input = .ok (value, rest) ↔
      condition ∧ input = rest := by
  by_cases holds : condition
  · rw [require_of_holds holds, and_iff_right holds]
    exact ⟨fun same => (Prod.mk.inj (Except.ok.inj same)).2, fun same => same ▸ rfl⟩
  · rw [require_of_not holds]
    refine iff_of_false ?_ fun both => holds both.1
    intro same
    cases same

@[simp, grind =] theorem take_ok_iff {eof : ε} {count : Nat} {input rest tokens : List τ} :
    take eof count input = .ok (tokens, rest) ↔
      input = tokens ++ rest ∧ tokens.length = count := by
  unfold take
  split
  · rename_i enough
    simp only [Except.ok.injEq, Prod.mk.injEq]
    constructor
    · rintro ⟨rfl, rfl⟩
      simp [enough]
    · rintro ⟨rfl, rfl⟩
      simp
  · rename_i short
    simp only [reduceCtorEq, false_iff]
    rintro ⟨rfl, rfl⟩
    simp at short

/-- `reader` consumes exactly `used` and returns `value`, whatever follows. -/
def Reads (reader : Reader τ ε α) (used : List τ) (value : α) : Prop :=
  ∀ rest, reader (used ++ rest) = .ok (value, rest)

namespace Reads

theorem pure (value : α) : Reads (pure value : Reader τ ε α) [] value :=
  fun _ => rfl

/-- A reader that takes nothing and never fails. -/
theorem eq_pure {reader : Reader τ ε α} {value : α} (reads : Reads reader [] value) :
    reader = Pure.pure value :=
  funext fun rest => reads rest

theorem bind {reader : Reader τ ε α} {next : α → Reader τ ε β}
    {used used' : List τ} {first : α} {value : β}
    (head : Reads reader used first) (tail : Reads (next first) used' value) :
    Reads (reader >>= next) (used ++ used') value := by
  intro rest
  rw [List.append_assoc, bind_of_ok (head _)]
  exact tail rest

/-- A bind whose continuation reads nothing. -/
theorem bind_pure {reader : Reader τ ε α} {change : α → β}
    {used : List τ} {first : α} (head : Reads reader used first) :
    Reads (reader >>= fun value => Pure.pure (change value)) used (change first) := by
  intro rest
  rw [bind_of_ok (head _), pure_run]

theorem map {reader : Reader τ ε α} {used : List τ} {value : α} (change : α → β)
    (reads : Reads reader used value) : Reads (change <$> reader) used (change value) := by
  intro rest
  rw [map_run, reads rest]

/-- A bind whose continuation checks the value and reads nothing. -/
theorem bind_ofExcept {reader : Reader τ ε α} {check : α → Except ε β} {used : List τ}
    {first : α} {value : β} (head : Reads reader used first)
    (passes : check first = .ok value) :
    Reads (reader >>= fun value => ofExcept (check value)) used value := by
  intro rest
  rw [bind_of_ok (head _), passes]
  rfl

theorem require {condition : Prop} [Decidable condition] (holds : condition)
    (error : ε) :
    Reads (Reader.require condition error : Reader τ ε Unit) [] () := by
  rw [require_of_holds holds]
  exact Reads.pure ()

/-- A check that reads nothing, followed by more reading. -/
theorem require_bind {condition : Prop} [Decidable condition] {error : ε}
    {next : Unit → Reader τ ε β} {used : List τ} {value : β}
    (holds : condition) (tail : Reads (next ()) used value) :
    Reads (Reader.require condition error >>= next) used value :=
  (Reads.require holds error).bind tail

theorem take (eof : ε) {count : Nat} {used : List τ} (sized : used.length = count) :
    Reads (Reader.take eof count) used used :=
  fun _ => take_ok_iff.mpr ⟨rfl, sized⟩

theorem consumed {reader : Reader τ ε α} {used : List τ} {value : α}
    (reads : Reads reader used value) : Reads (Reader.consumed reader) used used := by
  intro rest
  rw [Reader.consumed, reads rest]
  simp

theorem times {reader : Reader τ ε α} {chunks : List (List τ)} {values : List α}
    (parts : List.Forall₂ (Reads reader) chunks values) :
    Reads (Reader.times reader values.length) chunks.flatten values := by
  induction parts with
  | nil => exact Reads.pure []
  | cons head _ ih =>
      simp only [List.length_cons, List.flatten_cons, Reader.times]
      exact head.bind (ih.bind_pure)

/-- Reading one item after the other, each from its own tokens. -/
theorem times_map {reader : Reader τ ε β} {used : α → List τ} {value : α → β}
    {items : List α} (each : ∀ item ∈ items, Reads reader (used item) (value item)) :
    Reads (Reader.times reader items.length) (items.map used).flatten (items.map value) := by
  have parts : List.Forall₂ (Reads reader) (items.map used) (items.map value) := by
    rw [List.forall₂_map_left_iff, List.forall₂_map_right_iff, List.forall₂_same]
    exact each
  have run := Reads.times parts
  rwa [List.length_map] at run

theorem each {step : α → Reader τ ε β} {used : α → List τ} {value : α → β} {items : List α}
    (parts : ∀ item ∈ items, Reads (step item) (used item) (value item)) :
    Reads (Reader.each step items) (items.map used).flatten (items.map value) := by
  induction items with
  | nil => exact Reads.pure []
  | cons head tail ih =>
      have later := ih fun item member => parts item (by simp [member])
      exact (parts head (by simp)).bind later.bind_pure

end Reads

theorem each_congr {step step' : α → Reader τ ε β} {items : List α}
    (same : ∀ item ∈ items, step item = step' item) : each step items = each step' items := by
  induction items with
  | nil => rfl
  | cons head tail ih =>
      rw [each, each, same head (by simp), ih fun item member => same item (by simp [member])]

/-! ## Consumption -/

/-- A reader never leaves more than it was given. -/
def Shrinks (reader : Reader τ ε α) : Prop :=
  ∀ input value rest, reader input = .ok (value, rest) → rest.length ≤ input.length

namespace Shrinks

theorem pure (value : α) : Shrinks (pure value : Reader τ ε α) := by
  intro input _ rest succeeded
  cases succeeded
  exact Nat.le_refl _

theorem fail (error : ε) : Shrinks (fail error : Reader τ ε α) := by
  intro input _ rest succeeded
  cases succeeded

theorem bind {reader : Reader τ ε α} {next : α → Reader τ ε β}
    (head : Shrinks reader) (tail : ∀ value, Shrinks (next value)) :
    Shrinks (reader >>= next) := by
  intro input value rest succeeded
  obtain ⟨first, middle, headRead, tailRead⟩ := bind_ok_iff.mp succeeded
  exact Nat.le_trans (tail first middle value rest tailRead)
    (head input first middle headRead)

theorem ofExcept (outcome : Except ε α) : Shrinks (ofExcept outcome : Reader τ ε α) := by
  cases outcome with
  | ok value => exact Shrinks.pure value
  | error error => exact Shrinks.fail error

theorem take (eof : ε) (count : Nat) : Shrinks (take eof count : Reader τ ε (List τ)) := by
  intro input tokens rest succeeded
  obtain ⟨rfl, _⟩ := take_ok_iff.mp succeeded
  simp

end Shrinks

/-! ## Agreement of two readers -/

/-- Two outcomes on one input: both fail, or both succeed with one rest. -/
inductive Match (related : α → β → Prop) (input : List τ) :
    Except ε (α × List τ) → Except ε' (β × List τ) → Prop
  | ok {left : α} {right : β} {rest : List τ}
      (values : related left right) (shrinks : rest.length ≤ input.length) :
      Match related input (.ok (left, rest)) (.ok (right, rest))
  | error {left : ε} {right : ε'} : Match related input (.error left) (.error right)

/-- On every input shorter than `limit` the readers have matching outcomes. -/
def Agree (limit : Nat) (related : α → β → Prop)
    (left : Reader τ ε α) (right : Reader τ ε' β) : Prop :=
  ∀ input, input.length < limit → Match related input (left input) (right input)

namespace Agree

variable {limit : Nat} {related : α → β → Prop}

theorem pure {left : α} {right : β} (values : related left right) :
    Agree limit related (pure left : Reader τ ε α) (pure right : Reader τ ε' β) :=
  fun _ _ => .ok values (Nat.le_refl _)

theorem fail (left : ε) (right : ε') :
    Agree limit related (fail left : Reader τ ε α) (fail right : Reader τ ε' β) :=
  fun _ _ => .error

theorem bind {related' : γ → δ → Prop} {left : Reader τ ε α} {right : Reader τ ε' β}
    {leftNext : α → Reader τ ε γ} {rightNext : β → Reader τ ε' δ}
    (head : Agree limit related left right)
    (tail : ∀ first second, related first second →
      Agree limit related' (leftNext first) (rightNext second)) :
    Agree limit related' (left >>= leftNext) (right >>= rightNext) := by
  intro input bounded
  rw [bind_run, bind_run]
  have outcome := head input bounded
  generalize left input = leftOutcome at outcome ⊢
  generalize right input = rightOutcome at outcome ⊢
  cases outcome with
  | error => exact .error
  | @ok first second rest values shrinks =>
      have continued :=
        tail first second values rest (Nat.lt_of_le_of_lt shrinks bounded)
      change Match related' input (leftNext first rest) (rightNext second rest)
      generalize leftNext first rest = leftOutcome at continued ⊢
      generalize rightNext second rest = rightOutcome at continued ⊢
      cases continued with
      | error => exact .error
      | ok values' shrinks' => exact .ok values' (Nat.le_trans shrinks' shrinks)

theorem mono {related' : α → β → Prop} {left : Reader τ ε α} {right : Reader τ ε' β}
    (weaker : ∀ first second, related first second → related' first second)
    (agree : Agree limit related left right) : Agree limit related' left right := by
  intro input bounded
  have outcome := agree input bounded
  generalize left input = leftOutcome at outcome ⊢
  generalize right input = rightOutcome at outcome ⊢
  cases outcome with
  | error => exact .error
  | ok values shrinks => exact .ok (weaker _ _ values) shrinks

/-- The right result may be mapped. -/
theorem map_right {related' : α → γ → Prop} {left : Reader τ ε α} {right : Reader τ ε' β}
    {change : β → γ} (agree : Agree limit related left right)
    (values : ∀ first second, related first second → related' first (change second)) :
    Agree limit related' left (change <$> right) := by
  intro input bounded
  rw [map_run]
  have outcome := agree input bounded
  generalize left input = leftOutcome at outcome ⊢
  generalize right input = rightOutcome at outcome ⊢
  cases outcome with
  | error => exact .error
  | ok holds shrinks => exact .ok (values _ _ holds) shrinks

/-- The left result may be mapped. -/
theorem bind_pure_left {related' : γ → β → Prop} {left : Reader τ ε α}
    {right : Reader τ ε' β} {change : α → γ} (agree : Agree limit related left right)
    (values : ∀ first second, related first second → related' (change first) second) :
    Agree limit related' (left >>= fun first => Pure.pure (change first)) right := by
  intro input bounded
  rw [bind_run]
  have outcome := agree input bounded
  generalize left input = leftOutcome at outcome ⊢
  generalize right input = rightOutcome at outcome ⊢
  cases outcome with
  | error => exact .error
  | ok holds shrinks => exact .ok (values _ _ holds) shrinks

theorem require {condition : Prop} [Decidable condition] (left : ε) (right : ε') :
    Agree limit (fun _ _ => condition)
      (Reader.require condition left : Reader τ ε Unit)
      (Reader.require condition right : Reader τ ε' Unit) := by
  by_cases holds : condition
  · rw [require_of_holds holds, require_of_holds holds]
    exact Agree.pure holds
  · rw [require_of_not holds, require_of_not holds]
    exact Agree.fail left right

theorem take (left : ε) (right : ε') (count : Nat) :
    Agree limit (fun first second => first = second ∧ first.length = count)
      (Reader.take left count : Reader τ ε (List τ)) (Reader.take right count) := by
  intro input _
  unfold Reader.take
  split
  · rename_i enough
    exact .ok ⟨rfl, by simp [enough]⟩ (by simp)
  · exact .error

theorem times {left : Reader τ ε α} {right : Reader τ ε' β}
    (agree : Agree limit related left right) (count : Nat) :
    Agree limit (fun firsts seconds => List.Forall₂ related firsts seconds ∧
        firsts.length = count)
      (Reader.times left count) (Reader.times right count) := by
  induction count with
  | zero => exact Agree.pure ⟨.nil, rfl⟩
  | succ count ih =>
      refine agree.bind fun first second values => ?_
      refine ih.bind fun firsts seconds valuesTail => ?_
      exact Agree.pure ⟨.cons values valuesTail.1, by simp [valuesTail.2]⟩

/-- The left reader's success is matched by the right one. -/
theorem ok_of_left_ok {left : Reader τ ε α} {right : Reader τ ε' β}
    (agree : Agree limit related left right) {input rest : List τ} {first : α}
    (bounded : input.length < limit) (succeeded : left input = .ok (first, rest)) :
    ∃ second, right input = .ok (second, rest) ∧ related first second := by
  have outcome := agree input bounded
  rw [succeeded] at outcome
  generalize right input = rightOutcome at outcome
  cases outcome with
  | ok values _ => exact ⟨_, rfl, values⟩

/-- A reader agrees with itself. -/
theorem refl {reader : Reader τ ε α} (shrinks : Shrinks reader) :
    Agree limit (fun first second => first = second) reader reader := by
  intro input _
  cases outcome : reader input with
  | error => exact .error
  | ok result =>
      obtain ⟨value, rest⟩ := result
      exact .ok rfl (shrinks input value rest outcome)

end Agree

/-! ## Agreement up to refusals

The left reader may check more than the right one: it may refuse what the right
one accepts, but only when the accepted value is `bad`. -/

/-- Two outcomes on one input, where the left one may refuse a bad value. -/
inductive MatchUnless (bad : β → Prop) (related : α → β → Prop) (input : List τ) :
    Except ε (α × List τ) → Except ε' (β × List τ) → Prop
  | ok {left : α} {right : β} {rest : List τ}
      (values : related left right) (shrinks : rest.length ≤ input.length) :
      MatchUnless bad related input (.ok (left, rest)) (.ok (right, rest))
  | refused {left : ε} {right : β} {rest : List τ} (isBad : bad right) :
      MatchUnless bad related input (.error left) (.ok (right, rest))
  | error {left : ε} {right : ε'} :
      MatchUnless bad related input (.error left) (.error right)

/-- The readers have matching outcomes on every input shorter than `limit`, except
that the left one may refuse bad values. -/
def AgreeUnless (limit : Nat) (bad : β → Prop) (related : α → β → Prop)
    (left : Reader τ ε α) (right : Reader τ ε' β) : Prop :=
  ∀ input, input.length < limit →
    MatchUnless bad related input (left input) (right input)

theorem Agree.unless {limit : Nat} {related : α → β → Prop} {left : Reader τ ε α}
    {right : Reader τ ε' β} (agree : Agree limit related left right) (bad : β → Prop) :
    AgreeUnless limit bad related left right := by
  intro input bounded
  have outcome := agree input bounded
  generalize left input = leftOutcome at outcome ⊢
  generalize right input = rightOutcome at outcome ⊢
  cases outcome with
  | ok values shrinks => exact .ok values shrinks
  | error => exact .error

namespace AgreeUnless

variable {limit : Nat} {bad : β → Prop} {related : α → β → Prop}
variable {bad' : δ → Prop} {related' : γ → δ → Prop}

theorem pure {left : α} {right : β} (values : related left right) :
    AgreeUnless limit bad related (pure left : Reader τ ε α)
      (pure right : Reader τ ε' β) :=
  (Agree.pure values).unless bad

/-- A continuation that carries a bad first value into its result may follow. -/
theorem bind {left : Reader τ ε α} {right : Reader τ ε' β}
    {leftNext : α → Reader τ ε γ} {rightNext : β → Reader τ ε' δ}
    (head : AgreeUnless limit bad related left right)
    (tail : ∀ first second, related first second →
      AgreeUnless limit bad' related' (leftNext first) (rightNext second))
    (carried : ∀ second, bad second → ∀ input value rest,
      rightNext second input = .ok (value, rest) → bad' value) :
    AgreeUnless limit bad' related' (left >>= leftNext) (right >>= rightNext) := by
  intro input bounded
  rw [bind_run, bind_run]
  have outcome := head input bounded
  generalize left input = leftOutcome at outcome ⊢
  generalize right input = rightOutcome at outcome ⊢
  cases outcome with
  | error => exact .error
  | @refused _ second rest isBad =>
      change MatchUnless bad' related' input _ (rightNext second rest)
      cases continued : rightNext second rest with
      | error => exact .error
      | ok result =>
          obtain ⟨value, rest'⟩ := result
          exact .refused (carried second isBad rest value rest' continued)
  | @ok first second rest values shrinks =>
      have continued :=
        tail first second values rest (Nat.lt_of_le_of_lt shrinks bounded)
      change MatchUnless bad' related' input (leftNext first rest) (rightNext second rest)
      generalize leftNext first rest = leftOutcome at continued ⊢
      generalize rightNext second rest = rightOutcome at continued ⊢
      cases continued with
      | error => exact .error
      | refused isBad => exact .refused isBad
      | ok values' shrinks' => exact .ok values' (Nat.le_trans shrinks' shrinks)

/-- A plain agreement may come first. -/
theorem bind_agree {left : Reader τ ε α} {right : Reader τ ε' β}
    {leftNext : α → Reader τ ε γ} {rightNext : β → Reader τ ε' δ}
    (head : Agree limit related left right)
    (tail : ∀ first second, related first second →
      AgreeUnless limit bad' related' (leftNext first) (rightNext second)) :
    AgreeUnless limit bad' related' (left >>= leftNext) (right >>= rightNext) :=
  (head.unless fun _ => False).bind tail fun _ impossible => impossible.elim

/-- The results may be mapped on both sides. -/
theorem bind_pure {left : Reader τ ε α} {right : Reader τ ε' β}
    {leftChange : α → γ} {rightChange : β → δ}
    (head : AgreeUnless limit bad related left right)
    (values : ∀ first second, related first second →
      related' (leftChange first) (rightChange second))
    (carried : ∀ second, bad second → bad' (rightChange second)) :
    AgreeUnless limit bad' related' (left >>= fun first => Pure.pure (leftChange first))
      (right >>= fun second => Pure.pure (rightChange second)) := by
  refine head.bind (fun first second holds => pure (values first second holds)) ?_
  intro second isBad input value rest succeeded
  cases succeeded
  exact carried second isBad

/-- The right result may be mapped. -/
theorem bind_pure_right {related'' : α → δ → Prop} {left : Reader τ ε α}
    {right : Reader τ ε' β} {change : β → δ}
    (agree : AgreeUnless limit bad related left right)
    (values : ∀ first second, related first second → related'' first (change second))
    (carried : ∀ second, bad second → bad' (change second)) :
    AgreeUnless limit bad' related'' left
      (right >>= fun second => Pure.pure (change second)) := by
  intro input bounded
  rw [bind_run]
  have outcome := agree input bounded
  generalize left input = leftOutcome at outcome ⊢
  generalize right input = rightOutcome at outcome ⊢
  cases outcome with
  | error => exact .error
  | refused isBad => exact .refused (carried _ isBad)
  | ok holds shrinks => exact .ok (values _ _ holds) shrinks

/-- The left reader's success is matched by the right one. -/
theorem ok_of_left_ok {left : Reader τ ε α} {right : Reader τ ε' β}
    (agree : AgreeUnless limit bad related left right) {input rest : List τ} {first : α}
    (bounded : input.length < limit) (succeeded : left input = .ok (first, rest)) :
    ∃ second, right input = .ok (second, rest) ∧ related first second := by
  have outcome := agree input bounded
  rw [succeeded] at outcome
  generalize right input = rightOutcome at outcome
  cases outcome with
  | ok values _ => exact ⟨_, rfl, values⟩

/-- The right reader's success is matched by the left one unless it is bad. -/
theorem ok_of_right_ok {left : Reader τ ε α} {right : Reader τ ε' β}
    (agree : AgreeUnless limit bad related left right) {input rest : List τ} {second : β}
    (bounded : input.length < limit) (succeeded : right input = .ok (second, rest))
    (good : ¬ bad second) :
    ∃ first, left input = .ok (first, rest) ∧ related first second := by
  have outcome := agree input bounded
  rw [succeeded] at outcome
  generalize left input = leftOutcome at outcome
  cases outcome with
  | ok values _ => exact ⟨_, rfl, values⟩
  | refused isBad => exact absurd isBad good

/-- A plain agreement may be appended on the right. -/
theorem trans_agree {left : Reader τ ε α} {middle : Reader τ ε' β} {right : Reader τ ε' δ}
    {related' : β → δ → Prop} (first : AgreeUnless limit bad related left middle)
    (second : Agree limit related' middle right) :
    AgreeUnless limit (fun value => ∃ between, bad between ∧ related' between value)
      (fun start value => ∃ between, related start between ∧ related' between value)
      left right := by
  intro input bounded
  have outcome := first input bounded
  have outcome' := second input bounded
  generalize left input = leftOutcome at outcome ⊢
  generalize middle input = middleOutcome at outcome outcome'
  generalize right input = rightOutcome at outcome' ⊢
  cases outcome with
  | error =>
      cases outcome'
      exact .error
  | refused isBad =>
      cases outcome' with
      | ok values' shrinks' => exact .refused ⟨_, isBad, values'⟩
  | ok values shrinks =>
      cases outcome' with
      | ok values' shrinks' => exact .ok ⟨_, values, values'⟩ shrinks

end AgreeUnless

/-- Mapping every value as it is read is mapping the list afterwards. -/
theorem times_bind_pure (reader : Reader τ ε α) (change : α → β) (count : Nat) :
    times (do
      let value ← reader
      pure (change value)) count =
      (do
        let values ← times reader count
        pure (values.map change)) := by
  induction count with
  | zero => rfl
  | succ count ih => simp only [times, ih, bind_assoc, pure_bind, List.map_cons]

/-- Checking every value as it is read refuses exactly the runs whose values do
not all pass the check. -/
theorem agreeUnless_times_check {limit : Nat} {reader : Reader τ ε α}
    (shrinks : Shrinks reader) (check : α → Except ε β) (count : Nat) :
    AgreeUnless limit (fun values => ∃ value ∈ values, ∃ error, check value = .error error)
      (fun checked values =>
        List.Forall₂ (fun result value => check value = .ok result) checked values ∧
          values.length = count)
      (times (do
        let value ← reader
        ofExcept (check value)) count)
      (times reader count) := by
  induction count with
  | zero => exact AgreeUnless.pure ⟨.nil, rfl⟩
  | succ count ih =>
      have single : AgreeUnless limit (fun value => ∃ error, check value = .error error)
          (fun result value => check value = .ok result)
          (do
            let value ← reader
            ofExcept (check value)) reader := by
        intro input bounded
        rw [bind_run]
        cases outcome : reader input with
        | error => exact .error
        | ok pair =>
            obtain ⟨value, rest⟩ := pair
            simp only
            cases checked : check value with
            | error error => exact .refused ⟨error, checked⟩
            | ok result => exact .ok checked (shrinks input value rest outcome)
      rw [times, times]
      refine single.bind (fun result value passed => ?_) ?_
      · refine ih.bind_pure ?_ ?_
        · rintro results values ⟨passedAll, sized⟩
          exact ⟨.cons passed passedAll, by simp [sized]⟩
        · rintro values ⟨other, member, refused⟩
          exact ⟨other, List.mem_cons_of_mem _ member, refused⟩
      · rintro value refused input values rest succeeded
        obtain ⟨others, middle, _, finished⟩ := bind_ok_iff.mp succeeded
        cases finished
        exact ⟨value, List.mem_cons_self, refused⟩

end Reader

end DfeClickhouse.Library
