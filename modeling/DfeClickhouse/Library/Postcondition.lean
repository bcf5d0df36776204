import DfeClickhouse.Library.Reader

/-!
# Postconditions of readers

`Yields` says what holds of every value a reader returns, whatever it was given to
read.  There is one rule for each combinator.
-/

namespace DfeClickhouse.Library.Reader

variable {τ ε α β : Type}

theorem exists_left_of_mem {related : α → β → Prop} {first : List α} {second : List β}
    (each : List.Forall₂ related first second) {right : β} (member : right ∈ second) :
    ∃ left ∈ first, related left right := by
  induction each with
  | nil => cases member
  | @cons left right' first second holds _ ih =>
      rcases List.mem_cons.mp member with rfl | member
      · exact ⟨left, by simp, holds⟩
      · obtain ⟨found, inside, holds⟩ := ih member
        exact ⟨found, by simp [inside], holds⟩

/-- Every value the reader returns satisfies `post`. -/
def Yields (reader : Reader τ ε α) (post : α → Prop) : Prop :=
  ∀ input value rest, reader input = .ok (value, rest) → post value

namespace Yields

theorem pure {value : α} {post : α → Prop} (holds : post value) :
    Yields (pure value : Reader τ ε α) post := by
  intro input result rest succeeded
  cases succeeded
  exact holds

theorem fail (error : ε) (post : α → Prop) : Yields (fail error : Reader τ ε α) post := by
  intro input value rest succeeded
  cases succeeded

theorem mono {reader : Reader τ ε α} {post post' : α → Prop} (yields : Yields reader post)
    (weaker : ∀ value, post value → post' value) : Yields reader post' := by
  intro input value rest succeeded
  exact weaker value (yields input value rest succeeded)

theorem trivial (reader : Reader τ ε α) : Yields reader fun _ => True := by
  intro input value rest succeeded
  exact True.intro

/-- What a reader returns, it returned on some input. -/
theorem returned (reader : Reader τ ε α) :
    Yields reader fun value => ∃ input rest, reader input = .ok (value, rest) := by
  intro input value rest succeeded
  exact ⟨input, rest, succeeded⟩

theorem bind {reader : Reader τ ε α} {next : α → Reader τ ε β} {middle : α → Prop}
    {post : β → Prop} (first : Yields reader middle)
    (second : ∀ value, middle value → Yields (next value) post) :
    Yields (reader >>= next) post := by
  intro input result rest succeeded
  obtain ⟨value, left, firstRun, secondRun⟩ := bind_ok_iff.mp succeeded
  exact second value (first input value left firstRun) left result rest secondRun

/-- A first part nothing is known of. -/
theorem after {reader : Reader τ ε α} {next : α → Reader τ ε β} {post : β → Prop}
    (second : ∀ value, Yields (next value) post) : Yields (reader >>= next) post :=
  (trivial reader).bind fun value _ => second value

theorem map {reader : Reader τ ε α} {change : α → β} {post : β → Prop}
    (yields : Yields reader fun value => post (change value)) :
    Yields (change <$> reader) post := by
  rw [map_eq_pure_bind]
  exact yields.bind fun value holds => Yields.pure holds

theorem require {condition : Prop} [Decidable condition] (error : ε) :
    Yields (require condition error : Reader τ ε Unit) fun _ => condition := by
  intro input value rest succeeded
  by_cases holds : condition
  · exact holds
  · rw [require_of_not holds] at succeeded
    cases succeeded

theorem ofExcept {outcome : Except ε α} {post : α → Prop}
    (holds : ∀ value, outcome = .ok value → post value) :
    Yields (ofExcept outcome : Reader τ ε α) post := by
  intro input value rest succeeded
  cases outcome with
  | error error => cases succeeded
  | ok result =>
      cases succeeded
      exact holds value rfl

theorem take (eof : ε) (count : Nat) :
    Yields (take eof count : Reader τ ε (List τ)) fun tokens => tokens.length = count := by
  intro input tokens rest succeeded
  exact (take_ok_iff.mp succeeded).2

theorem times {reader : Reader τ ε α} {post : α → Prop} (yields : Yields reader post)
    (count : Nat) :
    Yields (times reader count) fun values =>
      values.length = count ∧ ∀ value ∈ values, post value := by
  induction count with
  | zero =>
      apply Yields.pure
      simp
  | succ count ih =>
      rw [Reader.times]
      refine yields.bind fun value holds => ih.bind ?_
      rintro values ⟨counted, each⟩
      apply Yields.pure
      constructor
      · rw [List.length_cons, counted]
      · intro member listed
        rcases List.mem_cons.mp listed with rfl | listed
        · exact holds
        · exact each member listed

theorem times_length (reader : Reader τ ε α) (count : Nat) :
    Yields (Reader.times reader count) fun values => values.length = count :=
  ((Yields.trivial reader).times count).mono fun _ ⟨counted, _⟩ => counted

theorem each {reader : α → Reader τ ε β} {post : α → β → Prop} {items : List α}
    (yields : ∀ item ∈ items, Yields (reader item) (post item)) :
    Yields (Reader.each reader items) (List.Forall₂ post items) := by
  induction items with
  | nil => exact Yields.pure .nil
  | cons item items ih =>
      rw [Reader.each]
      have later := ih fun item member => yields item (by simp [member])
      refine (yields item (by simp)).bind fun value holds => later.bind fun values rest => ?_
      exact Yields.pure (.cons holds rest)

end Yields

end DfeClickhouse.Library.Reader
