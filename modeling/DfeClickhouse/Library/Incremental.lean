import DfeClickhouse.Library.ReadBack

/-!
# Incremental readers

What an incremental reader takes from an input it takes from every longer one.  A cut
input is then never read as something else: the reader fails, or had all it takes.
Frames that follow one another to the end of the input are then told apart from a cut
inside one of them.
-/

namespace DfeClickhouse.Library.Reader

variable {τ ε α β : Type}

/-- A success does not depend on what follows. -/
class Incremental (reader : Reader τ ε α) : Prop where
  extend {input rest : List τ} {value : α} (read : reader input = .ok (value, rest))
    (more : List τ) : reader (input ++ more) = .ok (value, rest ++ more)

namespace Incremental

instance pure (value : α) : Incremental (pure value : Reader τ ε α) where
  extend read more := by
    cases read
    rfl

instance fail (error : ε) : Incremental (fail error : Reader τ ε α) where
  extend read more := by cases read

instance bind (reader : Reader τ ε α) (next : α → Reader τ ε β) [Incremental reader]
    [∀ value, Incremental (next value)] : Incremental (reader >>= next) where
  extend read more := by
    obtain ⟨first, middle, head, tail⟩ := bind_ok_iff.mp read
    rw [bind_of_ok (extend head more)]
    exact extend tail more

theorem andThen {reader : Reader τ ε α} {next : α → Reader τ ε β} [Incremental reader]
    (each : ∀ value, Incremental (next value)) : Incremental (reader >>= next) :=
  bind reader next

instance map (change : α → β) (reader : Reader τ ε α) [Incremental reader] :
    Incremental (change <$> reader) where
  extend := by
    intro input rest value read more
    rw [map_run] at read ⊢
    cases found : reader input with
    | error error =>
        rw [found] at read
        cases read
    | ok result =>
        rw [found] at read
        cases read
        rw [extend found more]

instance require (condition : Prop) [Decidable condition] (error : ε) :
    Incremental (Reader.require condition error : Reader τ ε Unit) := by
  by_cases holds : condition
  · rw [require_of_holds holds]
    infer_instance
  · rw [require_of_not holds]
    infer_instance

instance ofExcept (outcome : Except ε α) :
    Incremental (Reader.ofExcept outcome : Reader τ ε α) := by
  cases outcome with
  | ok value => exact pure value
  | error error => exact fail error

instance ite (condition : Prop) [Decidable condition] (first second : Reader τ ε α)
    [Incremental first] [Incremental second] :
    Incremental (if condition then first else second) := by
  split <;> infer_instance

instance onlyIf (condition : Prop) [Decidable condition] (reader : Reader τ ε Unit)
    [Incremental reader] : Incremental (Reader.onlyIf condition reader) := by
  unfold Reader.onlyIf
  infer_instance

instance onlyIfOr (condition : Prop) [Decidable condition] (absent : α) (reader : Reader τ ε α)
    [Incremental reader] : Incremental (Reader.onlyIfOr condition absent reader) := by
  unfold Reader.onlyIfOr
  infer_instance

instance take (eof : ε) (count : Nat) :
    Incremental (Reader.take eof count : Reader τ ε (List τ)) where
  extend read more := by
    obtain ⟨rfl, sized⟩ := take_ok_iff.mp read
    rw [List.append_assoc]
    exact take_ok_iff.mpr ⟨rfl, sized⟩

instance times (reader : Reader τ ε α) [Incremental reader] (count : Nat) :
    Incremental (Reader.times reader count) := by
  induction count with
  | zero => exact pure []
  | succ count ih =>
      rw [Reader.times]
      infer_instance

instance each (reader : α → Reader τ ε β) [∀ item, Incremental (reader item)] (items : List α) :
    Incremental (Reader.each reader items) := by
  induction items with
  | nil => exact pure []
  | cons item items ih =>
      rw [Reader.each]
      infer_instance

/-- Where a whole input is read from its front, a cut of it is read only if the cut is
behind that front. -/
theorem front_of_ok {reader : Reader τ ε α} [Incremental reader]
    {front suffix cut rest more : List τ}
    {value value' : α} (whole : reader (front ++ suffix) = .ok (value, suffix))
    (read : reader cut = .ok (value', rest)) (split : cut ++ more = front ++ suffix) :
    cut = front ++ rest ∧ suffix = rest ++ more ∧ value' = value := by
  have extended := extend read more
  rw [split, whole] at extended
  cases extended
  refine ⟨?_, rfl, rfl⟩
  rw [← List.append_assoc] at split
  exact List.append_cancel_right split

/-- What is read with nothing behind it is read whatever follows. -/
theorem reads {reader : Reader τ ε α} [Incremental reader] {used : List τ} {value : α}
    (read : reader used = .ok (value, [])) : Reads reader used value := by
  intro rest
  rw [extend read rest, List.nil_append]

end Incremental

/-- Read, or find that the input has ended. -/
def unlessEnd (reader : Reader τ ε α) : Reader τ ε (Option α)
  | [] => .ok (none, [])
  | token :: rest => (some <$> reader) (token :: rest)

theorem unlessEnd_of_ne_nil {reader : Reader τ ε α} {input : List τ} (some : input ≠ []) :
    unlessEnd reader input = (Option.some <$> reader) input := by
  cases input with
  | nil => exact absurd rfl some
  | cons token rest => rfl

variable {reader : Reader τ ε α} {frames : List (List τ)} {values : List α} {eof : ε}

/-- Frames are read to the end of the input, with room for them. -/
theorem untilNoneWithin_frames (each : List.Forall₂ (Reads reader) frames values)
    (nonempty : ∀ frame ∈ frames, frame ≠ []) {room : Nat} (enough : frames.length < room) :
    untilNoneWithin eof (unlessEnd reader) room frames.flatten = .ok (values, []) := by
  induction each generalizing room with
  | nil =>
      cases room with
      | zero => cases enough
      | succ room => rfl
  | @cons frame value frames values head _ ih =>
      cases room with
      | zero => cases enough
      | succ room =>
          have some : frame ++ frames.flatten ≠ [] := by
            intro empty
            exact nonempty frame (by simp) (List.append_eq_nil_iff.mp empty).1
          have first : unlessEnd reader (frame ++ frames.flatten) =
              .ok (Option.some value, frames.flatten) := by
            rw [unlessEnd_of_ne_nil some, map_run, head frames.flatten]
          have later := ih (fun frame member => nonempty frame (by simp [member]))
            (Nat.lt_of_succ_lt_succ enough)
          rw [List.flatten_cons, untilNoneWithin, bind_of_ok first]
          dsimp only
          rw [bind_of_ok later]
          rfl

theorem length_le_flatten (nonempty : ∀ frame ∈ frames, frame ≠ []) :
    frames.length ≤ frames.flatten.length := by
  induction frames with
  | nil => exact Nat.le_refl _
  | cons frame frames ih =>
      have some : 0 < frame.length := List.length_pos_of_ne_nil (nonempty frame (by simp))
      have others := ih fun frame member => nonempty frame (by simp [member])
      rw [List.length_cons, List.flatten_cons, List.length_append]
      omega

/-- Frames are read to the end of the input. -/
theorem untilNone_frames (each : List.Forall₂ (Reads reader) frames values)
    (nonempty : ∀ frame ∈ frames, frame ≠ []) :
    untilNone eof (unlessEnd reader) frames.flatten = .ok (values, []) := by
  apply untilNoneWithin_frames each nonempty
  exact Nat.lt_succ_of_le (length_le_flatten nonempty)

/-- Frames are read to the mark behind them. -/
theorem reads_untilNone {item : Reader τ ε (Option α)} {mark : List τ}
    (each : List.Forall₂ (fun frame value => Reads item frame (some value)) frames values)
    (nonempty : ∀ frame ∈ frames, frame ≠ []) (ending : Reads item mark none) :
    Reads (untilNone eof item) (frames.flatten ++ mark) values := by
  have short := length_le_flatten nonempty
  intro rest
  apply ReadBack.reads_untilNoneWithin each ending
  rw [List.length_append, List.length_append]
  omega

/-- Read item after item, at most so many; a failure is the last. -/
def rounds (reader : Reader τ ε α) : Nat → List τ → List (Except ε α)
  | 0, _ => []
  | count + 1, input =>
      match reader input with
      | .ok (value, rest) => .ok value :: rounds reader count rest
      | .error error => [.error error]

/-- Every cut of a run of frames is some whole frames and a part on which the reader
fails. -/
theorem exists_part_of_cut [Incremental reader] (each : List.Forall₂ (Reads reader) frames values)
    (ends : ∃ error, reader [] = .error error) {cut : List τ} (inside : cut <+: frames.flatten) :
    ∃ count part error, count ≤ frames.length ∧ cut = (frames.take count).flatten ++ part ∧
      reader part = .error error := by
  induction each generalizing cut with
  | nil =>
      obtain ⟨error, failed⟩ := ends
      have empty : cut = [] := List.prefix_nil.mp inside
      exact ⟨0, [], error, Nat.le_refl 0, by simpa using empty, failed⟩
  | @cons frame value frames values head _ ih =>
      rw [List.flatten_cons] at inside
      rcases List.prefix_or_prefix_of_prefix inside (List.prefix_append frame _) with short | long
      · cases read : reader cut with
        | error error => exact ⟨0, cut, error, Nat.zero_le _, rfl, read⟩
        | ok result =>
            obtain ⟨more, split⟩ := inside
            obtain ⟨value', rest⟩ := result
            obtain ⟨front, suffix, _⟩ := Incremental.front_of_ok (head frames.flatten) read split
            obtain ⟨count, part, error, within, parted, failed⟩ := ih ⟨more, suffix.symm⟩
            refine ⟨count + 1, part, error, Nat.succ_le_succ within, ?_, failed⟩
            rw [front, parted, List.take_succ_cons, List.flatten_cons, List.append_assoc]
      · obtain ⟨rest, rfl⟩ := long
        obtain ⟨count, part, error, within, parted, failed⟩ :=
          ih ((List.prefix_append_right_inj frame).mp inside)
        refine ⟨count + 1, part, error, Nat.succ_le_succ within, ?_, failed⟩
        rw [parted, List.take_succ_cons, List.flatten_cons, List.append_assoc]

/-- Whole frames and a part on which the reader fails, round by round. -/
theorem rounds_frames (each : List.Forall₂ (Reads reader) frames values) {part : List τ} {error : ε}
    (failed : reader part = .error error) (count : Nat) :
    rounds reader count (frames.flatten ++ part) =
      (values.map Except.ok ++ [Except.error error]).take count := by
  induction each generalizing count with
  | nil =>
      cases count with
      | zero => rfl
      | succ count => simp [rounds, failed]
  | cons head _ ih =>
      cases count with
      | zero => rfl
      | succ count =>
          rw [List.flatten_cons, List.append_assoc, rounds, head]
          dsimp only
          rw [ih]
          rfl

/-- A frame that is whole in a cut is read from it. -/
theorem le_of_failed [Incremental reader] (each : List.Forall₂ (Reads reader) frames values)
    {count more : Nat} {part : List τ} {error : ε} (failed : reader part = .error error)
    (within : more ≤ frames.length)
    (whole : (frames.take more).flatten <+: (frames.take count).flatten ++ part) :
      more ≤ count := by
  by_contra beyond
  have split : frames.take more = frames.take count ++ (frames.take more).drop count := by
    have front : (frames.take more).take count = frames.take count := by
      rw [List.take_take, Nat.min_eq_left (by omega)]
    rw [← front, List.take_append_drop]
  have inside : count < frames.length := by omega
  have next : (frames.take more).drop count = frames[count] ::
      (frames.take more).drop (count + 1) := by
    have present : count < (frames.take more).length := by
      rw [List.length_take]
      omega
    rw [List.drop_eq_getElem_cons present, List.getElem_take]
  rw [split, next, List.flatten_append, List.flatten_cons,
    List.prefix_append_right_inj] at whole
  obtain ⟨behind, same⟩ := whole
  have pair := (List.forall₂_iff_get.mp each).2 count inside
    ((List.forall₂_iff_get.mp each).1 ▸ inside)
  have read := pair ((frames.take more).drop (count + 1)).flatten
  have extended := Incremental.extend read behind
  rw [List.get_eq_getElem, same, failed] at extended
  cases extended

/-- A cut that is read to its end lies between two frames. -/
theorem untilNoneWithin_cut [Incremental reader]
    (each : List.Forall₂ (Reads reader) frames values) {cut rest : List τ} {read : List α}
    (inside : cut <+: frames.flatten) {room : Nat}
    (ended : untilNoneWithin eof (unlessEnd reader) room cut = .ok (read, rest)) :
    ∃ count, cut = (frames.take count).flatten := by
  induction room generalizing frames values cut read rest with
  | zero => cases ended
  | succ room ih =>
      obtain ⟨more, split⟩ := inside
      cases cut with
      | nil => exact ⟨0, rfl⟩
      | cons token cut =>
          cases each with
          | nil => cases split
          | @cons frame value frames values head others =>
              rw [untilNoneWithin] at ended
              obtain ⟨found, behind, first, ended⟩ := bind_ok_iff.mp ended
              rw [unlessEnd_of_ne_nil (by simp), map_run] at first
              cases taken : reader (token :: cut) with
              | error error =>
                  rw [taken] at first
                  cases first
              | ok result =>
                  obtain ⟨value', rest'⟩ := result
                  rw [taken] at first
                  cases first
                  obtain ⟨front, suffix, _⟩ :=
                    Incremental.front_of_ok (head frames.flatten) taken split
                  dsimp only at ended
                  obtain ⟨_, _, later, _⟩ := bind_ok_iff.mp ended
                  obtain ⟨count, boundary⟩ := ih others ⟨more, suffix.symm⟩ later
                  refine ⟨count + 1, ?_⟩
                  rw [front, boundary, List.take_succ_cons, List.flatten_cons]

/-- A cut inside a frame is an error. -/
theorem untilNone_cut_error [Incremental reader]
    (each : List.Forall₂ (Reads reader) frames values) {cut : List τ}
    (inside : cut <+: frames.flatten) (apart : ∀ count, cut ≠ (frames.take count).flatten) :
    ∃ error, untilNone eof (unlessEnd reader) cut = .error error := by
  cases ended : untilNone eof (unlessEnd reader) cut with
  | error error => exact ⟨error, rfl⟩
  | ok result =>
      obtain ⟨count, boundary⟩ := untilNoneWithin_cut each inside ended
      exact absurd boundary (apart count)

end DfeClickhouse.Library.Reader
