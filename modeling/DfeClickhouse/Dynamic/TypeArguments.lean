import DfeClickhouse.Dynamic.TypeAgreement

/-!
# Argument lists

Where the native parser cuts a list of type arguments, and the depth it counts in a part of
a text.  It knows parentheses but no quotes, so the characters of a quoted label count as
well.
-/

namespace DfeClickhouse.Dynamic

open Library Native

theorem parenDepthAfter_mono {depth deeper : Nat} (below : depth ≤ deeper) (char : Char) :
    parenDepthAfter depth char ≤ parenDepthAfter deeper char := by
  unfold parenDepthAfter
  split
  · exact Nat.succ_le_succ below
  · split
    · exact Nat.sub_le_sub_right below 1
    · exact below

theorem maxParenDepthFrom_mono {depth deeper deepest higher : Nat} (below : depth ≤ deeper)
    (lower : deepest ≤ higher) (text : Text) :
    maxParenDepthFrom depth deepest text ≤ maxParenDepthFrom deeper higher text := by
  induction text generalizing depth deeper deepest higher with
  | nil => exact lower
  | cons char text ih =>
      have next := parenDepthAfter_mono below char
      exact ih next (by omega)

theorem maxParenDepthFrom_append (depth deepest : Nat) (front back : Text) :
    maxParenDepthFrom depth deepest (front ++ back) =
      maxParenDepthFrom (front.foldl parenDepthAfter depth)
        (maxParenDepthFrom depth deepest front) back := by
  induction front generalizing depth deepest with
  | nil => rfl
  | cons char front ih => exact ih _ _

/-- A part of a text is no deeper than the text. -/
theorem maxParenDepth_le_of_isInfix {part text : Text} (inside : part <:+: text) :
    maxParenDepth part ≤ maxParenDepth text := by
  obtain ⟨front, back, rfl⟩ := inside
  rw [maxParenDepth, maxParenDepth, maxParenDepthFrom_append, maxParenDepthFrom_append]
  calc
    maxParenDepthFrom 0 0 part
        ≤ maxParenDepthFrom (front.foldl parenDepthAfter 0) (maxParenDepthFrom 0 0 front) part :=
      maxParenDepthFrom_mono (Nat.zero_le _) (Nat.zero_le _) part
    _ ≤ _ := le_maxParenDepthFrom ..

/-- The depth at the end of a text. -/
def closingDepth (text : Text) : Nat :=
  text.foldl parenDepthAfter 0

theorem findFirstCommaFrom_eq_none {text : Text} (absent : ',' ∉ text) (depth index : Nat) :
    findFirstCommaFrom depth index text = none := by
  induction text generalizing depth index with
  | nil => rfl
  | cons char text ih =>
      rw [List.mem_cons, not_or] at absent
      rw [findFirstCommaFrom, if_neg fun both => absent.1 both.1.symm]
      exact ih absent.2 _ _

/-- A text without commas whose parentheses are closed is not cut. -/
theorem Level.uncut {text : Text} (level : Level text) :
    findFirstCommaAtDepth0 text = none ∧ closingDepth text = 0 :=
  ⟨findFirstCommaFrom_eq_none level.plain 0 0, level.closed 0⟩

theorem findFirstCommaFrom_append {depth index : Nat} {before : Text}
    (uncut : findFirstCommaFrom depth index before = none)
    (closed : before.foldl parenDepthAfter depth = 0) (after : Text) :
    findFirstCommaFrom depth index (before ++ ',' :: after) = some (index + before.length) := by
  induction before generalizing depth index with
  | nil => exact if_pos ⟨rfl, closed⟩
  | cons char before ih =>
      rw [findFirstCommaFrom] at uncut
      split at uncut
      · cases uncut
      · rename_i other
        rw [List.cons_append, findFirstCommaFrom, if_neg other, ih uncut closed, List.length_cons,
          Nat.add_assoc, Nat.add_comm 1]

/-- The text before a comma that is found holds none. -/
theorem exists_cut {depth index found : Nat} {text : Text}
    (cut : findFirstCommaFrom depth index text = some found) :
    ∃ before after, text = before ++ ',' :: after ∧
      findFirstCommaFrom depth index before = none ∧
      before.foldl parenDepthAfter depth = 0 := by
  induction text generalizing depth index with
  | nil => cases cut
  | cons char text ih =>
      rw [findFirstCommaFrom] at cut
      split at cut
      · rename_i here
        obtain ⟨rfl, rfl⟩ := here
        exact ⟨[], text, rfl, rfl, rfl⟩
      · rename_i other
        obtain ⟨before, after, rfl, uncut, closed⟩ := ih cut
        refine ⟨char :: before, after, rfl, ?_, closed⟩
        rw [findFirstCommaFrom, if_neg other]
        exact uncut

/-- Characters that hold no comma to cut at are collected. -/
theorem splitTypeArgsFrom_uncut {depth index : Nat} {before : Text}
    (uncut : findFirstCommaFrom depth index before = none) (current rest : Text) :
    Native.splitTypeArgsFrom depth current (before ++ rest) =
      Native.splitTypeArgsFrom (before.foldl parenDepthAfter depth) (before.reverse ++ current)
        rest := by
  induction before generalizing depth index current with
  | nil => rfl
  | cons char before ih =>
      rw [findFirstCommaFrom] at uncut
      split at uncut
      · cases uncut
      · rename_i other
        rw [List.cons_append, Native.splitTypeArgsFrom, if_neg other, ih uncut,
          List.reverse_cons, List.append_assoc]
        rfl

/-- The first argument begins with what is collected. -/
theorem exists_of_splitTypeArgsFrom {depth : Nat} {current text first : Text}
    {others : List Text} (split : Native.splitTypeArgsFrom depth current text = first :: others) :
    ∃ tail, first = trim (current.reverse ++ tail) := by
  induction text generalizing depth current with
  | nil =>
      rw [Native.splitTypeArgsFrom] at split
      split at split
      · cases split
      · cases split
        exact ⟨[], by rw [List.append_nil]⟩
  | cons char text ih =>
      rw [Native.splitTypeArgsFrom] at split
      split at split
      · cases split
        exact ⟨[], by rw [List.append_nil]⟩
      · obtain ⟨tail, rfl⟩ := ih split
        exact ⟨char :: tail, by rw [List.reverse_cons, List.append_assoc]; rfl⟩

@[simp] theorem trim_blank (text : Text) : trim (' ' :: text) = trim text := rfl

/-- A blank before an argument is no part of it. -/
theorem splitTypeArgsFrom_blank (depth : Nat) (current text : Text) :
    Native.splitTypeArgsFrom depth (current ++ [' ']) text =
      Native.splitTypeArgsFrom depth current text := by
  have blank (current : Text) : trim (current ++ [' ']).reverse = trim current.reverse := by
    rw [List.reverse_append]
    exact trim_blank _
  induction text generalizing depth current with
  | nil => rw [Native.splitTypeArgsFrom, Native.splitTypeArgsFrom, blank]
  | cons char text ih =>
      rw [Native.splitTypeArgsFrom, Native.splitTypeArgsFrom, blank]
      split
      · rfl
      · exact ih _ (char :: current)

@[simp] theorem splitTypeArgs_blank (text : Text) :
    Native.splitTypeArgs (' ' :: text) = Native.splitTypeArgs text :=
  splitTypeArgsFrom_blank 0 [] text

/-- A list of arguments in writing. -/
def joined (arguments : List Text) : Text :=
  [',', ' '].intercalate arguments

@[simp] theorem joined_cons (argument next : Text) (rest : List Text) :
    joined (argument :: next :: rest) = argument ++ ',' :: ' ' :: joined (next :: rest) := by
  rw [joined, List.intercalate_cons_cons, List.append_assoc]
  rfl

/-- No comma in an argument is at depth zero, as the parser counts, and every argument but
the last ends at depth zero. -/
def ArgumentsApart : List Text → Prop
  | [] => True
  | argument :: rest =>
      findFirstCommaAtDepth0 argument = none ∧ (rest ≠ [] → closingDepth argument = 0) ∧
        ArgumentsApart rest

/-- What is cut off inside a text is not the text. -/
theorem trim_ne (before after : Text) : trim before ≠ before ++ ',' :: after := by
  intro same
  have shorter := length_trim_le before
  rw [same, List.length_append, List.length_cons] at shorter
  omega

/-- Text, and no blanks around it. -/
structure Solid (text : Text) : Prop where
  present : text ≠ []
  trimmed : trim text = text

namespace Solid

variable {text : Text}

theorem of_ends {first : Char} {middle back : Text} (visible : isWhitespace first = false)
    (nonempty : back ≠ []) (visibleBack : ∀ char ∈ back, isWhitespace char = false) :
    Solid (first :: middle ++ back) where
  present := by simp
  trimmed := trim_eq_self_of_ends visible nonempty visibleBack

theorem of_visible (present : text ≠ []) (visible : ∀ char ∈ text, isWhitespace char = false) :
    Solid text where
  present := present
  trimmed := trim_eq_self visible

theorem visible {first : Char} {rest : Text} (solid : Solid (first :: rest)) :
    isWhitespace first = false := by
  have kept := dropWhile_trim (first :: rest)
  rw [solid.trimmed, List.dropWhile_cons] at kept
  cases blank : isWhitespace first with
  | false => rfl
  | true =>
      rw [blank, if_pos rfl] at kept
      have shorter := (List.dropWhile_suffix isWhitespace (l := rest)).length_le
      rw [kept, List.length_cons] at shorter
      exact absurd shorter (Nat.not_succ_le_self _)

/-- A text in front of a visible one is kept by trimming. -/
theorem append (solid : Solid text) {back : Text} (nonempty : back ≠ [])
    (visibleBack : ∀ char ∈ back, isWhitespace char = false) : Solid (text ++ back) := by
  cases text with
  | nil => exact absurd rfl solid.present
  | cons first rest => exact of_ends solid.visible nonempty visibleBack

/-- An argument is the first one, and cut off where it ends, exactly when it is not cut
before and ends at depth zero. -/
theorem splitTypeArgs_eq_cons_iff (solid : Solid text) {rest : Text} {others : List Text} :
    Native.splitTypeArgs (text ++ ',' :: rest) = text :: others ↔
      findFirstCommaAtDepth0 text = none ∧ closingDepth text = 0 ∧
        Native.splitTypeArgs rest = others := by
  cases search : findFirstCommaAtDepth0 text with
  | some found =>
      constructor
      · intro split
        obtain ⟨before, after, rfl, uncut, closed⟩ := exists_cut search
        rw [List.append_assoc, Native.splitTypeArgs, splitTypeArgsFrom_uncut uncut, closed,
          List.cons_append, splitTypeArgsFrom_comma, List.append_nil, List.reverse_reverse] at split
        exact absurd (List.cons.inj split).1 (trim_ne before after)
      · intro both
        cases both.1
  | none =>
      rw [Native.splitTypeArgs, splitTypeArgsFrom_uncut search, List.append_nil]
      by_cases closed : closingDepth text = 0
      · rw [show text.foldl parenDepthAfter 0 = 0 from closed, splitTypeArgsFrom_comma,
          List.reverse_reverse, solid.trimmed, List.cons_eq_cons]
        exact ⟨fun both => ⟨rfl, closed, both.2⟩, fun all => ⟨rfl, all.2.2⟩⟩
      · have open' : ¬ (',' = ',' ∧ text.foldl parenDepthAfter 0 = 0) := fun both => closed both.2
        rw [Native.splitTypeArgsFrom, if_neg open']
        constructor
        · intro split
          obtain ⟨tail, same⟩ := exists_of_splitTypeArgsFrom split
          have ended := solid.append (show [','] ≠ [] by simp) (by simp [isWhitespace])
          have nonempty : trim (text ++ [',']) ≠ [] := by
            rw [ended.trimmed]
            exact ended.present
          obtain ⟨kept, longer, _⟩ := exists_trim_append nonempty tail
          rw [List.reverse_cons, List.reverse_reverse, longer, ended.trimmed] at same
          have lengths := congrArg List.length same
          simp only [List.length_append, List.length_singleton] at lengths
          omega
        · intro all
          exact absurd all.2.1 closed

theorem splitTypeArgs_eq_singleton_iff (solid : Solid text) :
    Native.splitTypeArgs text = [text] ↔ findFirstCommaAtDepth0 text = none := by
  cases search : findFirstCommaAtDepth0 text with
  | some found =>
      constructor
      · intro split
        obtain ⟨before, after, rfl, uncut, closed⟩ := exists_cut search
        rw [Native.splitTypeArgs, splitTypeArgsFrom_uncut uncut, closed,
          splitTypeArgsFrom_comma, List.append_nil, List.reverse_reverse] at split
        exact absurd (List.cons.inj split).1 (trim_ne before after)
      · intro none
        cases none
  | none =>
      have whole := splitTypeArgsFrom_uncut search [] []
      have present : (trim text).isEmpty = false := by
        rw [solid.trimmed]
        exact List.isEmpty_eq_false_iff.mpr solid.present
      rw [List.append_nil, List.append_nil, Native.splitTypeArgsFrom] at whole
      simp only [List.reverse_reverse, present, Bool.false_eq_true, if_false] at whole
      rw [solid.trimmed] at whole
      exact ⟨fun _ => rfl, fun _ => whole⟩

end Solid

/-- Arguments are cut apart as they are written exactly when they are apart. -/
theorem splitTypeArgs_joined_iff {arguments : List Text}
    (solid : ∀ argument ∈ arguments, Solid argument) :
    Native.splitTypeArgs (joined arguments) = arguments ↔ ArgumentsApart arguments := by
  induction arguments with
  | nil => exact ⟨fun _ => trivial, fun _ => rfl⟩
  | cons argument rest ih =>
      have ⟨here, later⟩ := List.forall_mem_cons.mp solid
      cases rest with
      | nil =>
          have alone : joined [argument] = argument := List.intercalate_singleton ..
          rw [alone, here.splitTypeArgs_eq_singleton_iff, ArgumentsApart, ArgumentsApart]
          exact ⟨fun uncut => ⟨uncut, fun other => absurd rfl other, trivial⟩, fun all => all.1⟩
      | cons next rest =>
          rw [joined_cons, here.splitTypeArgs_eq_cons_iff, splitTypeArgs_blank, ih later,
            ArgumentsApart]
          exact ⟨fun all => ⟨all.1, fun _ => all.2.1, all.2.2⟩,
            fun all => ⟨all.1, all.2.1 (by simp), all.2.2⟩⟩

theorem findFirstCommaFrom_append_eq_none {depth index : Nat} {front back : Text}
    (first : findFirstCommaFrom depth index front = none)
    (second : ∀ later, findFirstCommaFrom (front.foldl parenDepthAfter depth) later back = none) :
    findFirstCommaFrom depth index (front ++ back) = none := by
  induction front generalizing depth index with
  | nil => exact second index
  | cons char front ih =>
      rw [findFirstCommaFrom] at first
      split at first
      · cases first
      · rename_i other
        rw [List.cons_append, findFirstCommaFrom, if_neg other]
        exact ih first second

/-- A text whose parentheses are closed in it and nest to a depth.  Inside others no comma
of it is at depth zero. -/
structure Enclosed (nesting : Nat) (text : Text) : Prop where
  reaches : ∀ depth deepest, depth ≤ deepest →
    maxParenDepthFrom depth deepest text = max deepest (depth + nesting)
  closed : ∀ depth, text.foldl parenDepthAfter depth = depth
  uncut : ∀ depth index, 0 < depth → findFirstCommaFrom depth index text = none

namespace Enclosed

variable {nesting : Nat} {text : Text}

theorem of_plain (plain : ∀ char ∈ text, char ≠ '(' ∧ char ≠ ')') : Enclosed 0 text := by
  induction text with
  | nil =>
      constructor
      · intro depth deepest below
        exact (Nat.max_eq_left below).symm
      · exact fun _ => rfl
      · exact fun _ _ _ => rfl
  | cons char text ih =>
      obtain ⟨⟨notOpen, notClosed⟩, later⟩ := List.forall_mem_cons.mp plain
      have rest := ih later
      have same (depth : Nat) : parenDepthAfter depth char = depth := by
        rw [parenDepthAfter, if_neg notOpen, if_neg notClosed]
      constructor
      · intro depth deepest below
        rw [maxParenDepthFrom, same, Nat.max_eq_left below]
        exact rest.reaches depth deepest below
      · intro depth
        rw [List.foldl_cons, same]
        exact rest.closed depth
      · intro depth index inside
        rw [findFirstCommaFrom, if_neg fun both => Nat.ne_of_gt inside both.2, same]
        exact rest.uncut depth (index + 1) inside

theorem append {other : Nat} {back : Text} (left : Enclosed nesting text)
    (right : Enclosed other back) : Enclosed (max nesting other) (text ++ back) where
  reaches := by
    intro depth deepest below
    have deeper : depth ≤ max deepest (depth + nesting) := Nat.le_trans below (Nat.le_max_left ..)
    rw [maxParenDepthFrom_append, left.closed, left.reaches depth deepest below,
      right.reaches depth _ deeper]
    omega
  closed := by
    intro depth
    rw [List.foldl_append, left.closed, right.closed]
  uncut := by
    intro depth index inside
    apply findFirstCommaFrom_append_eq_none (left.uncut depth index inside)
    intro later
    rw [left.closed]
    exact right.uncut depth later inside

/-- Between parentheses no comma is at depth zero. -/
theorem uncut_parenthesized (inner : Enclosed nesting text) (depth index : Nat) :
    findFirstCommaFrom depth index ('(' :: (text ++ [')'])) = none := by
  have other : ¬ ('(' = ',' ∧ depth = 0) := by simp
  rw [findFirstCommaFrom, if_neg other]
  apply findFirstCommaFrom_append_eq_none (inner.uncut (depth + 1) _ (Nat.succ_pos depth))
  intro later
  exact findFirstCommaFrom_eq_none (by simp) _ _

theorem parenthesized (inner : Enclosed nesting text) :
    Enclosed (nesting + 1) ('(' :: (text ++ [')'])) where
  reaches := by
    intro depth deepest below
    have opened : maxParenDepthFrom depth deepest ('(' :: (text ++ [')'])) =
        maxParenDepthFrom (depth + 1) (max deepest (depth + 1)) (text ++ [')']) := rfl
    have ended (deepest : Nat) (above : depth ≤ deepest) :
        maxParenDepthFrom (depth + 1) deepest [')'] = deepest := Nat.max_eq_left above
    rw [opened, maxParenDepthFrom_append, inner.closed, inner.reaches _ _ (Nat.le_max_right ..),
      ended _ (by omega)]
    omega
  closed := by
    intro depth
    have opened : parenDepthAfter depth '(' = depth + 1 := rfl
    rw [List.foldl_cons, List.foldl_append, opened, inner.closed]
    rfl
  uncut := fun depth index _ => inner.uncut_parenthesized depth index

end Enclosed

end DfeClickhouse.Dynamic
