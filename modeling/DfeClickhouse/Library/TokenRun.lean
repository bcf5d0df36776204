import DfeClickhouse.Library.Reader

/-!
# Readers on a run of one token

What a reader does on a long run of one token is often simple: it fails, or it takes a
number of tokens that does not depend on the length of the run.  `OnRun` states that,
and its rules follow the combinators.  A reader that takes a fixed number of tokens
from a run cannot accept more and more of them in front of an input and still leave
the same rest.
-/

namespace DfeClickhouse.Library.Reader

variable {τ ε α β : Type}

/-- On a run of `token` that is at least `margin` longer than `used`, the reader fails,
or it takes `used` tokens and returns a value with `post`. -/
def OnRun (token : τ) (margin : Nat) (reader : Reader τ ε α) (used : Nat) (post : α → Prop) :
    Prop :=
  ∀ more tail value rest, margin ≤ more →
    reader (List.replicate (used + more) token ++ tail) = .ok (value, rest) →
      rest = List.replicate more token ++ tail ∧ post value

namespace OnRun

variable {token : τ} {margin used used' : Nat} {post : α → Prop} {post' : β → Prop}
variable {reader : Reader τ ε α}

theorem mono {weaker : α → Prop} (onRun : OnRun token margin reader used post)
    (implies : ∀ value, post value → weaker value) : OnRun token margin reader used weaker := by
  intro more tail value rest enough read
  obtain ⟨left, holds⟩ := onRun more tail value rest enough read
  exact ⟨left, implies value holds⟩

/-- A reader of known tokens that are all the same. -/
theorem of_reads {value : α} (reads : Reads reader (List.replicate used token) value) :
    OnRun token margin reader used (· = value) := by
  intro more tail result rest _ read
  rw [List.replicate_add, List.append_assoc, reads] at read
  cases read
  exact ⟨rfl, rfl⟩

/-- A reader that fails on every long enough run. -/
theorem of_fails
    (fails : ∀ more tail, margin ≤ more →
      ∃ error, reader (List.replicate more token ++ tail) = .error error) :
    OnRun token margin reader used post := by
  intro more tail value rest enough read
  obtain ⟨error, failed⟩ := fails (used + more) tail (Nat.le_trans enough (Nat.le_add_left _ _))
  rw [failed] at read
  cases read

theorem pure (value : α) : OnRun token margin (Pure.pure value : Reader τ ε α) 0 (· = value) :=
  of_reads (Reads.pure value)

theorem fail (error : ε) : OnRun token margin (Reader.fail error) used post :=
  of_fails fun _ _ _ => ⟨error, rfl⟩

theorem ofExcept (outcome : Except ε α) :
    OnRun token margin (Reader.ofExcept outcome : Reader τ ε α) 0 fun _ => True := by
  cases outcome with
  | ok value => exact (pure value).mono fun _ _ => trivial
  | error error => exact fail error

theorem require (condition : Prop) [Decidable condition] (error : ε) :
    OnRun token margin (Reader.require condition error : Reader τ ε Unit) 0 fun _ => True := by
  by_cases holds : condition
  · rw [require_of_holds holds]
    exact (pure ()).mono fun _ _ => trivial
  · rw [require_of_not holds]
    exact fail error

theorem take (eof : ε) (count : Nat) :
    OnRun token margin (Reader.take eof count) count (· = List.replicate count token) :=
  of_reads (Reads.take eof List.length_replicate)

theorem bind {next : α → Reader τ ε β} (head : OnRun token margin reader used post)
    (tail : ∀ value, post value → OnRun token margin (next value) used' post') :
    OnRun token margin (reader >>= next) (used + used') post' := by
  intro more after value rest enough read
  obtain ⟨first, middle, headRead, tailRead⟩ := bind_ok_iff.mp read
  rw [Nat.add_assoc] at headRead
  obtain ⟨rfl, holds⟩ := head (used' + more) after first middle
    (Nat.le_trans enough (Nat.le_add_left _ _)) headRead
  exact tail first holds more after value rest enough tailRead

/-- A bind whose continuation takes nothing. -/
theorem bind_idle {next : α → Reader τ ε β} (head : OnRun token margin reader used post)
    (tail : ∀ value, post value → OnRun token margin (next value) 0 post') :
    OnRun token margin (reader >>= next) used post' :=
  head.bind tail

/-- A check before more reading. -/
theorem require_bind {condition : Prop} [Decidable condition] {error : ε}
    {next : Unit → Reader τ ε β} (tail : OnRun token margin (next ()) used' post') :
    OnRun token margin (Reader.require condition error >>= next) used' post' := by
  have run : OnRun token margin (Reader.require condition error >>= next) (0 + used') post' :=
    (OnRun.require condition error).bind fun _ _ => tail
  rwa [Nat.zero_add] at run

theorem times (onRun : OnRun token margin reader used post) (count : Nat) :
    OnRun token margin (Reader.times reader count) (count * used)
      fun values => values.length = count ∧ ∀ value ∈ values, post value := by
  induction count with
  | zero =>
      rw [Nat.zero_mul]
      exact (pure []).mono fun values same => by simp [same]
  | succ count ih =>
      rw [Nat.succ_mul, Nat.add_comm (count * used)]
      apply onRun.bind
      intro value holds
      apply ih.bind_idle
      intro values allHold
      apply (pure (value :: values)).mono
      intro result same
      rw [same]
      simpa [allHold.1] using And.intro holds allHold.2

theorem each {step : α → Reader τ ε β} {width : α → Nat} {items : List α}
    (onRun : ∀ item ∈ items, OnRun token margin (step item) (width item) post') :
    OnRun token margin (Reader.each step items) (items.map width).sum fun _ => True := by
  induction items with
  | nil => exact (pure []).mono fun _ _ => trivial
  | cons head tail ih =>
      rw [List.map_cons, List.sum_cons]
      apply (onRun head (by simp)).bind
      intro _ _
      apply (ih fun item member => onRun item (by simp [member])).bind_idle
      intro _ _
      exact (pure _).mono fun _ _ => trivial

/-- A reader that accepts some input does not accept every input with a fixed number of
tokens more in front of it for the same value and rest. -/
theorem not_absorbs (onRun : OnRun token margin reader used post) {extra : Nat}
    {input rest : List τ} {value : α} (reads : reader input = .ok (value, rest)) :
    ¬ ∀ longer, reader longer = .ok (value, rest) →
      reader (List.replicate (extra + 1) token ++ longer) = .ok (value, rest) := by
  intro absorbs
  have pumped : ∀ times, reader (List.replicate (times * (extra + 1)) token ++ input) =
      .ok (value, rest) := by
    intro times
    induction times with
    | zero => simpa using reads
    | succ times ih =>
        rw [Nat.succ_mul, Nat.add_comm, List.replicate_add, List.append_assoc]
        exact absorbs _ ih
  have left : ∀ times, used + margin ≤ times →
      rest.length = times * (extra + 1) - used + input.length := by
    intro times enough
    have long : times ≤ times * (extra + 1) := Nat.le_mul_of_pos_right _ (Nat.succ_pos _)
    have run := pumped times
    rw [show times * (extra + 1) = used + (times * (extra + 1) - used) by omega] at run
    have taken := (onRun _ _ _ _ (by omega) run).1
    rw [taken, List.length_append, List.length_replicate]
  have short := left (used + margin) (Nat.le_refl _)
  have long := left (used + margin + 1) (Nat.le_succ _)
  rw [Nat.succ_mul] at long
  have reached : used + margin ≤ (used + margin) * (extra + 1) :=
    Nat.le_mul_of_pos_right _ (Nat.succ_pos _)
  omega

end OnRun

end DfeClickhouse.Library.Reader
