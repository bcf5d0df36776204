import Mathlib

/-!
# Scripted programs

A program that waits for events from outside is run on a script of them.  It may take
some events and return, still wait when the script is over, or get stuck on an event
it is not ready for.  Triples relate what it returns to a world that moves along with
the events it takes.
-/

namespace DfeClickhouse.Library

/-- What a script brings a program to. -/
inductive Progress (ε α : Type)
  | done (value : α) (rest : List ε)
  | waiting
  | stuck
  deriving DecidableEq

/-- A program run on scripts.  What it leaves of a script is the end of it. -/
structure Script (ε α : Type) where
  run : List ε → Progress ε α
  suffix : ∀ {events value rest}, run events = .done value rest → rest <:+ events

/-- Whether a loop goes on after an event. -/
inductive Verdict (σ α : Type)
  | again (state : σ)
  | stop (value : α)

/-- What is required of a loop's next state, and of the value it stops with. -/
def Verdict.Meets {σ α : Type} (going : σ → Prop) (stopped : α → Prop) : Verdict σ α → Prop
  | .again state => going state
  | .stop value => stopped value

namespace Script

variable {ε α β σ W : Type}

/-- Take one event, if the program is ready for it. -/
def await (ready : ε → Option α) : Script ε α where
  run
    | [] => .waiting
    | event :: rest =>
        match ready event with
        | some value => .done value rest
        | none => .stuck
  suffix {events value rest} done := by
    cases events with
    | nil => cases done
    | cons event events =>
        dsimp only at done
        split at done
        · cases done
          exact List.suffix_cons event _
        · cases done

/-- Take events until the verdict is to stop. -/
def loopRun (on : σ → ε → Option (Verdict σ α)) : σ → List ε → Progress ε α
  | _, [] => .waiting
  | state, event :: rest =>
      match on state event with
      | some (.again state) => loopRun on state rest
      | some (.stop value) => .done value rest
      | none => .stuck

def loop (on : σ → ε → Option (Verdict σ α)) (state : σ) : Script ε α where
  run := loopRun on state
  suffix {events value rest} done := by
    induction events generalizing state with
    | nil => cases done
    | cons event events ih =>
        rw [loopRun] at done
        split at done
        · exact (ih _ done).trans (List.suffix_cons event events)
        · cases done
          exact List.suffix_cons event _
        · cases done

/-- The state of a loop after the events it has gone on with. -/
def loopReached (on : σ → ε → Option (Verdict σ α)) : σ → List ε → σ
  | state, [] => state
  | state, event :: rest =>
      match on state event with
      | some (.again state) => loopReached on state rest
      | _ => state

theorem loopReached_keeps {on : σ → ε → Option (Verdict σ α)} {inv : σ → Prop}
    (each : ∀ state event later, inv state → on state event = some (.again later) → inv later)
    {state : σ} (start : inv state) (events : List ε) : inv (loopReached on state events) := by
  induction events generalizing state with
  | nil => exact start
  | cons event events ih =>
      rw [loopReached]
      split
      · rename_i later taken
        exact ih (each state event later start taken)
      · exact start

/-- One program after the other. -/
def andThen (program : Script ε α) (next : α → Script ε β) : Script ε β where
  run events :=
    match program.run events with
    | .done value rest => (next value).run rest
    | .waiting => .waiting
    | .stuck => .stuck
  suffix {events value rest} done := by
    split at done
    · rename_i first middle ran
      exact ((next first).suffix done).trans (program.suffix ran)
    · cases done
    · cases done

instance : Monad (Script ε) where
  pure value :=
    { run := fun events => .done value events
      suffix := by
        rintro _ _ _ ⟨⟩
        exact List.suffix_rfl }
  bind := andThen

/-- Where the first program has returned, the second goes on. -/
theorem run_bind {program : Script ε α} {next : α → Script ε β} {events rest : List ε} {value : α}
    (ran : program.run events = .done value rest) :
    (program >>= next).run events = (next value).run rest := by
  change (match program.run events with
    | .done value rest => (next value).run rest
    | .waiting => .waiting
    | .stuck => .stuck) = _
  rw [ran]

/-- A composed program returns where both of its parts do. -/
theorem run_bind_iff {program : Script ε α} {next : α → Script ε β} {events rest : List ε}
    {value : β} :
    (program >>= next).run events = .done value rest ↔
      ∃ first middle, program.run events = .done first middle ∧
        (next first).run middle = .done value rest := by
  constructor
  · intro ran
    change (match program.run events with
      | .done value rest => (next value).run rest
      | .waiting => .waiting
      | .stuck => .stuck) = _ at ran
    split at ran
    · rename_i first middle before
      exact ⟨first, middle, before, ran⟩
    · cases ran
    · cases ran
  · rintro ⟨first, middle, before, ran⟩
    rw [run_bind before]
    exact ran

@[simp] theorem run_pure_iff {value result : α} {events rest : List ε} :
    (pure value : Script ε α).run events = .done result rest ↔ result = value ∧ rest = events := by
  constructor
  · rintro ⟨⟩
    exact ⟨rfl, rfl⟩
  · rintro ⟨rfl, rfl⟩
    rfl

theorem run_await_iff {ready : ε → Option α} {value : α} {events rest : List ε} :
    (await ready).run events = .done value rest ↔
      ∃ event, events = event :: rest ∧ ready event = some value := by
  cases events with
  | nil =>
      constructor
      · intro ran
        cases ran
      · rintro ⟨_, ⟨⟩, _⟩
  | cons event events =>
      have unfolded : (await ready).run (event :: events) =
          match ready event with
          | some value => .done value events
          | none => .stuck := rfl
      rw [unfolded]
      cases taken : ready event with
      | none =>
          constructor
          · intro ran
            cases ran
          · rintro ⟨_, ⟨⟩, found⟩
            rw [taken] at found
            cases found
      | some found =>
          constructor
          · rintro ⟨⟩
            exact ⟨event, rfl, taken⟩
          · rintro ⟨_, ⟨⟩, same⟩
            rw [taken] at same
            cases same
            rfl

/-- The program takes all of a script: it returns with its last event, or still waits. -/
def Takes (program : Script ε α) (events : List ε) : Prop :=
  program.run events = .waiting ∨ ∃ value, program.run events = .done value []

/-- The world moves along with a list of events. -/
def Runs (moves : W → ε → W → Prop) : W → List ε → W → Prop
  | world, [], final => final = world
  | world, event :: events, final => ∃ next, moves world event next ∧ Runs moves next events final

theorem runs_append_iff {moves : W → ε → W → Prop} {world final : W} {first second : List ε} :
    Runs moves world (first ++ second) final ↔
      ∃ middle, Runs moves world first middle ∧ Runs moves middle second final := by
  induction first generalizing world with
  | nil => simp [Runs]
  | cons event first ih =>
      simp only [List.cons_append, Runs, ih]
      constructor
      · rintro ⟨next, moved, middle, before, after⟩
        exact ⟨middle, ⟨next, moved, before⟩, after⟩
      · rintro ⟨middle, ⟨next, moved, before⟩, after⟩
        exact ⟨next, moved, middle, before, after⟩

/-- What every move keeps, of the world and the events so far, every run keeps. -/
theorem Runs.keeps {moves : W → ε → W → Prop} {holds : List ε → W → Prop}
    (each : ∀ history world event next, holds history world → moves world event next →
      holds (history ++ [event]) next) {history events : List ε} {world final : W}
    (start : holds history world) (runs : Runs moves world events final) :
    holds (history ++ events) final := by
  induction events generalizing history world with
  | nil =>
      cases runs
      rw [List.append_nil]
      exact start
  | cons event events ih =>
      obtain ⟨next, moved, runs⟩ := runs
      have kept := ih (each history world event next start moved) runs
      rw [List.append_assoc] at kept
      exact kept

/-- From a world with the precondition, the world is safe wherever the program waits,
and has the postcondition where it returns. -/
def Ensures (moves : W → ε → W → Prop) (pre : W → Prop) (program : Script ε α)
    (safe : W → Prop) (post : α → W → Prop) : Prop :=
  ∀ world events, pre world →
    (∀ value used rest, events = used ++ rest → program.run events = .done value rest →
      ∀ final, Runs moves world used final → post value final) ∧
    (program.run events = .waiting → ∀ final, Runs moves world events final → safe final)

namespace Ensures

variable {moves : W → ε → W → Prop} {pre safe : W → Prop}

theorem pure {value : α} {post : α → W → Prop} (holds : ∀ world, pre world → post value world) :
    Ensures moves pre (pure value) safe post := by
  intro world events start
  constructor
  · rintro result used rest split ⟨⟩ final runs
    obtain rfl : used = [] := by simpa using split
    cases runs
    exact holds world start
  · intro waiting
    cases waiting

theorem bind {program : Script ε α} {next : α → Script ε β} {mid : α → W → Prop}
    {post : β → W → Prop} (first : Ensures moves pre program safe mid)
    (second : ∀ value, Ensures moves (mid value) (next value) safe post) :
    Ensures moves pre (program >>= next) safe post := by
  intro world events start
  obtain ⟨returns, waits⟩ := first world events start
  have unfolded : (program >>= next).run events =
      match program.run events with
      | .done value rest => (next value).run rest
      | .waiting => .waiting
      | .stuck => .stuck := rfl
  rw [unfolded]
  cases ran : program.run events with
  | stuck =>
      constructor
      · intro _ _ _ _ impossible
        cases impossible
      · intro impossible
        cases impossible
  | waiting =>
      constructor
      · intro _ _ _ _ impossible
        cases impossible
      · intro _
        exact waits ran
  | done value middle =>
      obtain ⟨before, rfl⟩ := program.suffix ran
      constructor
      · intro result used rest split finished final runs
        obtain ⟨after, rfl⟩ := (next value).suffix finished
        obtain rfl : used = before ++ after := by
          apply @List.append_cancel_right _ _ rest _
          rw [← split, List.append_assoc]
        obtain ⟨between, start', runs⟩ := runs_append_iff.mp runs
        have reached := returns value before (after ++ rest) rfl ran between start'
        exact (second value between (after ++ rest) reached).1 result after rest rfl finished
          final runs
      · intro waiting final runs
        obtain ⟨between, start', runs⟩ := runs_append_iff.mp runs
        have reached := returns value before middle rfl ran between start'
        exact (second value between middle reached).2 waiting final runs

theorem await {ready : ε → Option α} {post : α → W → Prop}
    (holds : ∀ world, pre world → safe world)
    (each : ∀ world event next value, pre world → moves world event next →
      ready event = some value → post value next) :
    Ensures moves pre (Script.await ready) safe post := by
  intro world events start
  cases events with
  | nil =>
      constructor
      · intro _ _ _ _ impossible
        cases impossible
      · rintro _ _ rfl
        exact holds _ start
  | cons event events =>
      have unfolded : (Script.await ready).run (event :: events) =
          match ready event with
          | some value => .done value events
          | none => .stuck := rfl
      rw [unfolded]
      cases taken : ready event with
      | none =>
          constructor
          · intro _ _ _ _ impossible
            cases impossible
          · intro impossible
            cases impossible
      | some value =>
          constructor
          · rintro result used rest split ⟨⟩ final runs
            obtain rfl : used = [event] :=
              @List.append_cancel_right _ _ events _ (by simpa using split.symm)
            obtain ⟨next, moved, rfl⟩ := runs
            exact each world event _ value start moved taken
          · intro impossible
            cases impossible

theorem loop {on : σ → ε → Option (Verdict σ α)} {inv : σ → W → Prop} {post : α → W → Prop}
    (holds : ∀ state world, inv state world → safe world)
    (each : ∀ state world event next verdict, inv state world → moves world event next →
      on state event = some verdict →
      verdict.Meets (inv · next) (post · next)) (state : σ) :
    Ensures moves (inv state) (Script.loop on state) safe post := by
  intro world events start
  change (∀ value used rest, _ → loopRun on state events = _ → _) ∧
    (loopRun on state events = _ → _)
  induction events generalizing state world with
  | nil =>
      constructor
      · intro _ _ _ _ impossible
        cases impossible
      · rintro _ _ rfl
        exact holds _ _ start
  | cons event events ih =>
      rw [loopRun]
      cases taken : on state event with
      | none =>
          constructor
          · intro _ _ _ _ impossible
            cases impossible
          · intro impossible
            cases impossible
      | some verdict =>
          cases verdict with
          | stop value =>
              constructor
              · rintro result used rest split ⟨⟩ final runs
                obtain rfl : used = [event] :=
                  @List.append_cancel_right _ _ events _ (by simpa using split.symm)
                obtain ⟨next, moved, rfl⟩ := runs
                exact each state world event _ _ start moved taken
              · intro impossible
                cases impossible
          | again later =>
              constructor
              · intro result used rest split finished final runs
                obtain ⟨used', rfl⟩ := (Script.loop on later).suffix finished
                obtain rfl : used = event :: used' := by
                  apply @List.append_cancel_right _ _ rest _
                  rw [← split, List.cons_append]
                obtain ⟨next, moved, runs⟩ := runs
                have kept := each state world event next _ start moved taken
                exact (ih later next kept).1 result used' rest rfl finished final runs
              · intro waiting final runs
                obtain ⟨next, moved, runs⟩ := runs
                have kept := each state world event next _ start moved taken
                exact (ih later next kept).2 waiting final runs

/-- A stronger precondition and a weaker postcondition. -/
theorem consequence {program : Script ε α} {pre' : W → Prop} {post post' : α → W → Prop}
    (ensures : Ensures moves pre program safe post) (before : ∀ world, pre' world → pre world)
    (after : ∀ value world, post value world → post' value world) :
    Ensures moves pre' program safe post' := by
  intro world events start
  obtain ⟨returns, waits⟩ := ensures world events (before world start)
  constructor
  · intro value used rest split ran final runs
    exact after value final (returns value used rest split ran final runs)
  · exact waits

theorem strengthen {program : Script ε α} {pre' : W → Prop} {post : α → W → Prop}
    (ensures : Ensures moves pre program safe post) (before : ∀ world, pre' world → pre world) :
    Ensures moves pre' program safe post :=
  ensures.consequence before fun _ _ kept => kept

/-- What every move keeps, every program keeps. -/
theorem stable {program : Script ε α} {holds : W → Prop}
    (each : ∀ world event next, holds world → moves world event next → holds next) :
    Ensures moves holds program holds fun _ => holds := by
  intro world events start
  have kept : ∀ events final, Runs moves world events final → holds final := by
    intro events final runs
    apply @Runs.keeps _ _ moves (fun _ => holds) _ [] events world final start runs
    intro _
    exact each
  constructor
  · intro value used rest split ran final runs
    exact kept used final runs
  · intro waits final runs
    exact kept events final runs

/-- A weaker condition where it waits. -/
theorem waiting {program : Script ε α} {safe' : W → Prop} {post : α → W → Prop}
    (ensures : Ensures moves pre program safe post) (safer : ∀ world, safe world → safe' world) :
    Ensures moves pre program safe' post := by
  intro world events start
  obtain ⟨returns, waits⟩ := ensures world events start
  constructor
  · exact returns
  · intro waiting final runs
    exact safer final (waits waiting final runs)

end Ensures

/-- The world that records the events. -/
def record (history : List ε) (event : ε) (next : List ε) : Prop :=
  next = history ++ [event]

@[simp, grind =] theorem runs_record_iff {history events final : List ε} :
    Runs record history events final ↔ final = history ++ events := by
  induction events generalizing history with
  | nil => simp [Runs]
  | cons event events ih => simp [Runs, record, ih]

/-- What a program ensures of the events it has taken. -/
theorem Ensures.of_run {program : Script ε α} {safe : List ε → Prop} {post : α → List ε → Prop}
    (ensures : Ensures record (· = []) program safe post) {used rest : List ε} {value : α}
    (ran : program.run (used ++ rest) = .done value rest) : post value used :=
  (ensures [] (used ++ rest) rfl).1 value used rest rfl ran used (runs_record_iff.mpr rfl)

theorem Ensures.of_done {program : Script ε α} {safe : List ε → Prop} {post : α → List ε → Prop}
    (ensures : Ensures record (· = []) program safe post) {events : List ε} {value : α}
    (ran : program.run events = .done value []) : post value events := by
  apply ensures.of_run
  rw [List.append_nil]
  exact ran

/-- What a program ensures of the events it has taken, where nothing is enough to start. -/
theorem Ensures.of_start {program : Script ε α} {pre safe : List ε → Prop}
    {post : α → List ε → Prop} (ensures : Ensures record pre program safe post) (start : pre [])
    {events : List ε} {value : α} (ran : program.run events = .done value []) :
    post value events :=
  (ensures [] events start).1 value events [] (by simp) ran events (runs_record_iff.mpr rfl)

/-- What holds where a program waits and where it returns holds of all it takes. -/
theorem Ensures.of_takes {program : Script ε α} {holds : List ε → Prop}
    {post : α → List ε → Prop} (ensures : Ensures record (· = []) program holds post)
    (implies : ∀ value history, post value history → holds history) {events : List ε}
    (taken : program.Takes events) : holds events := by
  rcases taken with waits | ⟨value, ran⟩
  · exact (ensures [] events rfl).2 waits events (runs_record_iff.mpr rfl)
  · exact implies value events (ensures.of_done ran)

theorem Ensures.of_waiting {program : Script ε α} {safe : List ε → Prop}
    {post : α → List ε → Prop} (ensures : Ensures record (· = []) program safe post)
    {events : List ε} (waits : program.run events = .waiting) : safe events :=
  (ensures [] events rfl).2 waits events (runs_record_iff.mpr rfl)

end Script

end DfeClickhouse.Library
