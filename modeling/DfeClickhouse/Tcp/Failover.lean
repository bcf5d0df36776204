import DfeClickhouse.Error

/-!
# Connect failover

One pass of the pool's manager over its endpoints, from the one the cursor points at.
Each attempt gets a slice of what is left of the budget, so the slices depend on the time
that earlier attempts took.  Durations are in nanoseconds, and no time passes between
attempts.
-/

namespace DfeClickhouse.Tcp

/-- Smallest slice of the budget one endpoint gets: a second. -/
def minEndpointSlice : Nat := 10 ^ 9

/-- The share of `remaining` one attempt may spend.  A `Duration` is divided by a `u32`. -/
def endpointSlice (remaining endpointsLeft : Nat) : Nat :=
  let left := max endpointsLeft 1
  let divisor := if left < 2 ^ 32 then left else 2 ^ 32 - 1
  min (max (remaining / divisor) minEndpointSlice) remaining

/-- How long a connect takes when nothing cuts it short, and its result. -/
structure Attempt where
  time : Nat
  outcome : Except Error Unit

/-- Why a pass has no connection. -/
inductive CreateError
  /-- There is no endpoint, or the budget was spent before the first attempt. -/
  | untried (error : Error)
  | failed (error : Error)
  /-- The endpoint did not answer within its slice. -/
  | silent (endpoint : String) (slice : Nat)

/-- An endpoint that was tried: its position in the list, the slice, the time spent and
whether it connected. -/
structure Tried where
  position : Nat
  slice : Nat
  spent : Nat
  connected : Bool

/-- A pass: the endpoints it tried in order, and its result. -/
structure Pass where
  tried : List Tried
  outcome : Except CreateError Unit

namespace Pass

/-- An attempt comes before the rest of a pass. -/
def after (tried : Tried) (pass : Pass) : Pass :=
  { pass with tried := tried :: pass.tried }

end Pass

/-- A connect under a timeout; a connect that is done at the deadline counts. -/
def timeout (slice : Nat) (endpoint : String) (attempt : Attempt) : Nat × Except CreateError Unit :=
  if attempt.time ≤ slice then (attempt.time, attempt.outcome.mapError .failed)
  else (slice, .error (.silent endpoint slice))

/-- The error of a manager without endpoints. -/
def noEndpoints : Error := .connect "tcp: no endpoints configured for this pool"

/-- The error of a pass that had no time for its first attempt. -/
def budgetSpent : Error :=
  .connect "tcp: create timeout spent before any endpoint was tried"

/-- The loop with `left` endpoints still to try, `elapsed` into the pass. -/
def createFrom (endpoints : List String) (start total : Nat) (attempts : Nat → Attempt) :
    Nat → Nat → CreateError → Pass
  | 0, _, lastErr => ⟨[], .error lastErr⟩
  | left + 1, elapsed, lastErr =>
      let i := endpoints.length - (left + 1)
      let position := (start + i) % endpoints.length
      let remaining := total - elapsed
      if remaining = 0 then
        ⟨[], .error lastErr⟩
      else
        let slice := endpointSlice remaining (left + 1)
        match timeout slice (endpoints.getD position "") (attempts i) with
        | (spent, .ok ()) => ⟨[⟨position, slice, spent, true⟩], .ok ()⟩
        | (spent, .error error) =>
            (createFrom endpoints start total attempts left (elapsed + spent) error).after
              ⟨position, slice, spent, false⟩

/-- `create` under a budget.  The cursor is only used modulo the endpoint count. -/
def create (endpoints : List String) (cursor total : Nat) (attempts : Nat → Attempt) : Pass :=
  if endpoints.length = 0 then
    ⟨[], .error (.untried noEndpoints)⟩
  else
    createFrom endpoints (cursor % endpoints.length) total attempts endpoints.length 0
      (.untried budgetSpent)

theorem endpointSlice_le (remaining endpointsLeft : Nat) :
    endpointSlice remaining endpointsLeft ≤ remaining :=
  Nat.min_le_right _ _

/-- The attempt makes its connection before its slice is over. -/
def Attempt.ConnectsWithin (attempt : Attempt) (slice : Nat) : Prop :=
  attempt.time ≤ slice ∧ attempt.outcome = .ok ()

@[simp] theorem timeout_spent (slice : Nat) (endpoint : String) (attempt : Attempt) :
    (timeout slice endpoint attempt).1 = min attempt.time slice := by
  rw [timeout]
  by_cases inTime : attempt.time ≤ slice
  · rw [if_pos inTime, Nat.min_eq_left inTime]
  · rw [if_neg inTime, Nat.min_eq_right (Nat.le_of_not_le inTime)]

@[simp] theorem timeout_ok_iff (slice : Nat) (endpoint : String) (attempt : Attempt) :
    (timeout slice endpoint attempt).2 = .ok () ↔ attempt.ConnectsWithin slice := by
  rw [timeout, Attempt.ConnectsWithin]
  by_cases inTime : attempt.time ≤ slice
  · rw [if_pos inTime]
    cases attempt.outcome with
    | ok value => exact ⟨fun _ => ⟨inTime, rfl⟩, fun _ => rfl⟩
    | error error =>
        constructor
        · intro connects
          cases connects
        · intro connects
          cases connects.2
  · rw [if_neg inTime]
    constructor
    · intro connects
      cases connects
    · intro connects
      exact absurd connects.1 inTime

/-- With a second for each endpoint that is left, the slice is a second at least and leaves
a second for each of the others. -/
theorem endpointSlice_fair {remaining left : Nat} (few : left + 1 < 2 ^ 32)
    (enough : (left + 1) * minEndpointSlice ≤ remaining) :
    minEndpointSlice ≤ endpointSlice remaining (left + 1) ∧
      left * minEndpointSlice ≤ remaining - endpointSlice remaining (left + 1) := by
  have share : minEndpointSlice ≤ remaining / (left + 1) := by
    rw [Nat.le_div_iff_mul_le (Nat.succ_pos left), Nat.mul_comm]
    exact enough
  have whole : remaining / (left + 1) ≤ remaining := Nat.div_le_self _ _
  have slice : endpointSlice remaining (left + 1) = remaining / (left + 1) := by
    simp only [endpointSlice]
    rw [Nat.max_eq_left (Nat.succ_pos left), if_pos few, Nat.max_eq_left share,
      Nat.min_eq_left whole]
  have others : left * (remaining / (left + 1)) ≤ remaining - remaining / (left + 1) := by
    apply Nat.le_sub_of_add_le
    calc
      left * (remaining / (left + 1)) + remaining / (left + 1)
          = remaining / (left + 1) * (left + 1) := by rw [Nat.mul_succ, Nat.mul_comm left]
      _ ≤ remaining := Nat.div_mul_le_self _ _
  rw [slice]
  constructor
  · exact share
  · exact Nat.le_trans (Nat.mul_le_mul_left left share) others

section Loop

variable {endpoints : List String} {start total : Nat} {attempts : Nat → Attempt}

/-- What one round of the loop does: stop without an attempt when the budget is spent, stop
with the connection of an attempt that makes one in its slice, or go on after the others. -/
theorem createFrom_cases (left elapsed : Nat) (lastErr : CreateError) :
    let i := endpoints.length - (left + 1)
    let slice := endpointSlice (total - elapsed) (left + 1)
    let tried := Tried.mk ((start + i) % endpoints.length) slice (min (attempts i).time slice)
    let pass := createFrom endpoints start total attempts (left + 1) elapsed lastErr
    (total - elapsed = 0 ∧ pass = ⟨[], .error lastErr⟩) ∨
      ((attempts i).ConnectsWithin slice ∧ pass = ⟨[tried true], .ok ()⟩) ∨
      (¬(attempts i).ConnectsWithin slice ∧ ∃ error,
        pass = (createFrom endpoints start total attempts left (elapsed + (tried false).spent)
          error).after (tried false)) := by
  dsimp only
  rw [createFrom]
  by_cases spentAll : total - elapsed = 0
  · left
    rw [if_pos spentAll]
    exact ⟨spentAll, rfl⟩
  · right
    rw [if_neg spentAll]
    dsimp only
    generalize endpointSlice (total - elapsed) (left + 1) = slice
    generalize endpoints.getD _ "" = endpoint
    have connects := timeout_ok_iff slice endpoint (attempts (endpoints.length - (left + 1)))
    have spent := timeout_spent slice endpoint (attempts (endpoints.length - (left + 1)))
    generalize timeout slice endpoint _ = attempted at connects spent
    obtain ⟨time, outcome⟩ := attempted
    cases spent
    cases outcome with
    | ok value =>
        left
        exact ⟨connects.mp rfl, rfl⟩
    | error error =>
        right
        constructor
        · intro within
          cases connects.mpr within
        · exact ⟨error, rfl⟩

/-- A pass that stops at its first success, which is its result. -/
def Pass.StopsAtSuccess (pass : Pass) : Prop :=
  match pass.outcome with
  | .ok () => ∃ failed last, pass.tried = failed ++ [last] ∧ last.connected = true ∧
      ∀ tried ∈ failed, tried.connected = false
  | .error _ => ∀ tried ∈ pass.tried, tried.connected = false

theorem Pass.StopsAtSuccess.after {pass : Pass} {tried : Tried} (stops : pass.StopsAtSuccess)
    (refused : tried.connected = false) : (pass.after tried).StopsAtSuccess := by
  obtain ⟨others, outcome⟩ := pass
  cases outcome with
  | ok value =>
      obtain ⟨failed, last, split, connects, failedAll⟩ := stops
      refine ⟨tried :: failed, last, ?_, connects, ?_⟩
      · exact congrArg (tried :: ·) split
      · intro other member
        cases member with
        | head => exact refused
        | tail _ member => exact failedAll other member
  | error error =>
      intro other member
      cases member with
      | head => exact refused
      | tail _ member => exact stops other member

theorem createFrom_stopsAtSuccess (left elapsed : Nat) (lastErr : CreateError) :
    (createFrom endpoints start total attempts left elapsed lastErr).StopsAtSuccess := by
  induction left generalizing elapsed lastErr with
  | zero =>
      intro tried member
      cases member
  | succ left ih =>
      obtain ⟨_, pass⟩ | ⟨_, pass⟩ | ⟨_, error, pass⟩ :=
        @createFrom_cases endpoints start total attempts left elapsed lastErr
      · rw [pass]
        intro tried member
        cases member
      · rw [pass]
        exact ⟨[], _, rfl, rfl, fun tried member => absurd member List.not_mem_nil⟩
      · rw [pass]
        exact (ih _ _).after rfl

theorem length_createFrom_le (left elapsed : Nat) (lastErr : CreateError) :
    (createFrom endpoints start total attempts left elapsed lastErr).tried.length ≤ left := by
  induction left generalizing elapsed lastErr with
  | zero => exact Nat.le_refl 0
  | succ left ih =>
      obtain ⟨_, pass⟩ | ⟨_, pass⟩ | ⟨_, error, pass⟩ :=
        @createFrom_cases endpoints start total attempts left elapsed lastErr
      · rw [pass]
        exact Nat.zero_le _
      · rw [pass]
        exact Nat.succ_le_succ (Nat.zero_le left)
      · rw [pass]
        exact Nat.succ_le_succ (ih _ _)

/-- The entry of attempt `i`: its place in the rotation, the share of what the attempts
before it have left, the time it takes of that, and its own result. -/
structure Tried.Follows (endpoints : List String) (cursor remaining left : Nat)
    (attempt : Attempt) (tried : Tried) : Prop where
  position : tried.position = cursor % endpoints.length
  slice : tried.slice = endpointSlice remaining left
  spent : tried.spent = min attempt.time tried.slice
  connected : tried.connected = true ↔ attempt.ConnectsWithin tried.slice

/-- Every entry is that of its attempt. -/
theorem createFrom_follows {left elapsed : Nat} (fits : left ≤ endpoints.length)
    (lastErr : CreateError) {i : Nat} {tried : Tried} :
    let pass := createFrom endpoints start total attempts left elapsed lastErr
    pass.tried[i]? = some tried →
      tried.Follows endpoints (start + (endpoints.length - left + i))
        (total - (elapsed + ((pass.tried.take i).map Tried.spent).sum)) (left - i)
        (attempts (endpoints.length - left + i)) := by
  dsimp only
  induction left generalizing elapsed lastErr i with
  | zero =>
      intro found
      cases found
  | succ left ih =>
      obtain ⟨_, pass⟩ | ⟨within, pass⟩ | ⟨refused, error, pass⟩ :=
        @createFrom_cases endpoints start total attempts left elapsed lastErr
      · rw [pass]
        intro found
        cases found
      · rw [pass]
        cases i with
        | zero =>
            intro found
            cases found
            exact ⟨rfl, rfl, rfl, ⟨fun _ => within, fun _ => rfl⟩⟩
        | succ i =>
            intro found
            cases found
      · rw [pass]
        cases i with
        | zero =>
            intro found
            cases found
            refine ⟨rfl, rfl, rfl, ?_⟩
            constructor
            · intro connects
              cases connects
            · intro within
              exact absurd within refused
        | succ i =>
            intro found
            have rest := ih (Nat.le_of_succ_le fits) error found
            have next : endpoints.length - (left + 1) + (i + 1) = endpoints.length - left + i := by
              omega
            rw [next, Nat.add_sub_add_right]
            simp only [Pass.after, List.take_succ_cons, List.map_cons, List.sum_cons]
            rw [← Nat.add_assoc elapsed]
            exact rest

/-- No more is spent than is left of the budget. -/
theorem spent_createFrom_le (left elapsed : Nat) (lastErr : CreateError) :
    ((createFrom endpoints start total attempts left elapsed lastErr).tried.map
      Tried.spent).sum ≤ total - elapsed := by
  induction left generalizing elapsed lastErr with
  | zero => exact Nat.zero_le _
  | succ left ih =>
      have inBudget (time : Nat) :
          min time (endpointSlice (total - elapsed) (left + 1)) ≤ total - elapsed :=
        Nat.le_trans (Nat.min_le_right _ _) (endpointSlice_le _ _)
      obtain ⟨_, pass⟩ | ⟨_, pass⟩ | ⟨_, error, pass⟩ :=
        @createFrom_cases endpoints start total attempts left elapsed lastErr
      · rw [pass]
        exact Nat.zero_le _
      · rw [pass]
        exact inBudget _
      · have first := inBudget (attempts (endpoints.length - (left + 1))).time
        have rest := ih (elapsed + min (attempts (endpoints.length - (left + 1))).time
          (endpointSlice (total - elapsed) (left + 1))) error
        rw [pass, Pass.after, List.map_cons, List.sum_cons]
        dsimp only at rest ⊢
        omega

/-- A pass ends without a connection only when every endpoint was tried or the budget is
spent. -/
theorem createFrom_exhausts (left elapsed : Nat) (lastErr : CreateError)
    (unanswered : (createFrom endpoints start total attempts left elapsed lastErr).outcome
      ≠ .ok ()) :
    let tried := (createFrom endpoints start total attempts left elapsed lastErr).tried
    tried.length = left ∨ total ≤ elapsed + (tried.map Tried.spent).sum := by
  dsimp only
  induction left generalizing elapsed lastErr with
  | zero =>
      left
      rfl
  | succ left ih =>
      obtain ⟨spentAll, pass⟩ | ⟨_, pass⟩ | ⟨_, error, pass⟩ :=
        @createFrom_cases endpoints start total attempts left elapsed lastErr
      · right
        omega
      · rw [pass] at unanswered
        exact absurd rfl unanswered
      · rw [pass] at unanswered ⊢
        obtain every | spentAll := ih _ error unanswered
        · left
          exact congrArg (· + 1) every
        · right
          rw [Nat.add_assoc] at spentAll
          exact spentAll

/-- With a second for each endpoint that is left, a pass without a connection tries them
all, each for a second at least if need be. -/
theorem createFrom_fair {left elapsed : Nat} (few : left < 2 ^ 32)
    (enough : left * minEndpointSlice ≤ total - elapsed) (lastErr : CreateError)
    (refused : ∀ tried ∈
      (createFrom endpoints start total attempts left elapsed lastErr).tried,
      tried.connected = false) :
    (createFrom endpoints start total attempts left elapsed lastErr).tried.length = left ∧
      ∀ tried ∈ (createFrom endpoints start total attempts left elapsed lastErr).tried,
        minEndpointSlice ≤ tried.slice := by
  induction left generalizing elapsed lastErr with
  | zero => exact ⟨rfl, fun tried member => absurd member List.not_mem_nil⟩
  | succ left ih =>
      have second := endpointSlice_fair few enough
      obtain ⟨spentAll, _⟩ | ⟨_, pass⟩ | ⟨_, error, pass⟩ :=
        @createFrom_cases endpoints start total attempts left elapsed lastErr
      · have positive : 0 < (left + 1) * minEndpointSlice :=
          Nat.mul_pos (Nat.succ_pos left) (by decide)
        omega
      · rw [pass] at refused
        cases refused _ List.mem_cons_self
      · rw [pass] at refused ⊢
        have inTime := Nat.min_le_right (attempts (endpoints.length - (left + 1))).time
          (endpointSlice (total - elapsed) (left + 1))
        have others : left * minEndpointSlice ≤ total - (elapsed +
            min (attempts (endpoints.length - (left + 1))).time
              (endpointSlice (total - elapsed) (left + 1))) := by omega
        obtain ⟨every, slices⟩ := ih (Nat.lt_of_succ_lt few) others error
          fun tried member => refused tried (List.mem_cons_of_mem _ member)
        constructor
        · exact congrArg (· + 1) every
        · intro tried member
          cases member with
          | head => exact second.1
          | tail _ member => exact slices tried member

end Loop

/-- What a pass over the endpoints keeps to under a budget, whose attempts take their time
and end as `attempts` says. -/
structure KeepsToBudget (endpoints : List String) (cursor total : Nat) (attempts : Nat → Attempt)
    (pass : Pass) : Prop where
  /-- The entries are those of the attempts in rotation order, each under its slice of what
  the attempts before it left of the budget. -/
  follows : ∀ {i : Nat} {tried : Tried}, pass.tried[i]? = some tried →
    tried.Follows endpoints (cursor + i)
      (total - ((pass.tried.take i).map Tried.spent).sum) (endpoints.length - i) (attempts i)
  once : (pass.tried.map Tried.position).Nodup
  bounded : pass.tried.length ≤ endpoints.length
  stops : pass.StopsAtSuccess
  budget : (pass.tried.map Tried.spent).sum ≤ total
  /-- Only a connection or a spent budget ends the pass before every endpoint was tried. -/
  exhausts : pass.outcome ≠ .ok () →
    pass.tried.length = endpoints.length ∨ (pass.tried.map Tried.spent).sum = total
  /-- With a second for each endpoint, a pass whose attempts all fail tries them all, each
  for a second at least if need be. -/
  fair : endpoints.length * minEndpointSlice ≤ total →
    (∀ {i : Nat} {tried : Tried}, pass.tried[i]? = some tried →
      ¬(attempts i).ConnectsWithin tried.slice) →
      pass.tried.length = endpoints.length ∧
        ∀ tried ∈ pass.tried, minEndpointSlice ≤ tried.slice

/-- Positions in rotation order are distinct, as long as there are no more of them than
endpoints. -/
theorem nodup_rotation {count length : Nat} (fits : count ≤ length) (cursor : Nat) :
    ((List.range count).map fun i => (cursor + i) % length).Nodup := by
  apply List.Nodup.map_on ?_ List.nodup_range
  intro first memberFirst second memberSecond same
  have small : first < length := Nat.lt_of_lt_of_le (List.mem_range.mp memberFirst) fits
  have small' : second < length := Nat.lt_of_lt_of_le (List.mem_range.mp memberSecond) fits
  have congruent : first ≡ second [MOD length] := Nat.ModEq.add_left_cancel' cursor same
  rwa [Nat.ModEq, Nat.mod_eq_of_lt small, Nat.mod_eq_of_lt small'] at congruent

/-- For every list of fewer than 2³² endpoints, every cursor, budget and choice of attempts,
a pass tries distinct endpoints in rotation order, stops at its first success, stays within
the budget and starves none. -/
theorem create_keepsToBudget {endpoints : List String} (few : endpoints.length < 2 ^ 32)
    (cursor total : Nat) (attempts : Nat → Attempt) :
    KeepsToBudget endpoints cursor total attempts (create endpoints cursor total attempts) := by
  by_cases none : endpoints.length = 0
  · rw [create, if_pos none]
    constructor
    · intro i tried found
      cases found
    · exact List.nodup_nil
    · exact Nat.zero_le _
    · intro tried member
      cases member
    · exact Nat.zero_le _
    · intro _
      left
      exact none.symm
    · intro _ _
      exact ⟨none.symm, fun tried member => absurd member List.not_mem_nil⟩
  · rw [create, if_neg none]
    have bounded := @length_createFrom_le endpoints (cursor % endpoints.length) total attempts
      endpoints.length 0 (.untried budgetSpent)
    have spent := @spent_createFrom_le endpoints (cursor % endpoints.length) total attempts
      endpoints.length 0 (.untried budgetSpent)
    have follows {i : Nat} {tried : Tried} :=
      @createFrom_follows endpoints (cursor % endpoints.length) total attempts
        endpoints.length 0 (Nat.le_refl _) (.untried budgetSpent) i tried
    have exhausts := @createFrom_exhausts endpoints (cursor % endpoints.length) total attempts
      endpoints.length 0 (.untried budgetSpent)
    generalize passed : createFrom _ _ _ _ _ _ _ = pass at bounded spent follows exhausts ⊢
    simp only [Nat.sub_self, Nat.zero_add] at follows exhausts
    have entries {i : Nat} {tried : Tried} (found : pass.tried[i]? = some tried) :
        tried.Follows endpoints (cursor + i)
          (total - ((pass.tried.take i).map Tried.spent).sum) (endpoints.length - i)
          (attempts i) := by
      have entry := follows found
      exact { entry with position := entry.position.trans (Nat.mod_add_mod _ _ _) }
    have rotation : pass.tried.map Tried.position =
        (List.range pass.tried.length).map fun i => (cursor + i) % endpoints.length := by
      apply List.ext_getElem
      · simp only [List.length_map, List.length_range]
      · intro i small _
        simp only [List.getElem_map, List.getElem_range]
        rw [List.length_map] at small
        exact (entries (List.getElem?_eq_getElem small)).position
    constructor
    · exact entries
    · rw [rotation]
      exact nodup_rotation bounded cursor
    · exact bounded
    · rw [← passed]
      exact createFrom_stopsAtSuccess _ _ _
    · exact spent
    · intro unanswered
      obtain every | spentAll := exhausts unanswered
      · left
        exact every
      · right
        exact Nat.le_antisymm spent spentAll
    · intro enough fails
      have refused : ∀ tried ∈ pass.tried, tried.connected = false := by
        intro tried member
        obtain ⟨i, found⟩ := List.getElem?_of_mem member
        have connected := (entries found).connected
        cases connects : tried.connected with
        | false => rfl
        | true => exact absurd (connected.mp connects) (fails found)
      rw [← passed] at refused ⊢
      exact createFrom_fair few enough _ refused

/-- Three endpoints under ten seconds, of which the second alone answers in time. -/
theorem create_keepsToBudget_second :
    let attempts := fun i => Attempt.mk (if i = 1 then 10 ^ 9 else 60 * 10 ^ 9) (.ok ())
    (create ["a:9000", "b:9000", "c:9000"] 4 (10 * 10 ^ 9) attempts).tried.map Tried.connected
        = [false, true] ∧
      KeepsToBudget ["a:9000", "b:9000", "c:9000"] 4 (10 * 10 ^ 9) attempts
        (create ["a:9000", "b:9000", "c:9000"] 4 (10 * 10 ^ 9) attempts) :=
  ⟨rfl, create_keepsToBudget (by decide) 4 _ _⟩

end DfeClickhouse.Tcp
