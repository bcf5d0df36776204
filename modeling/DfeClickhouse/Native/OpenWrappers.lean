import DfeClickhouse.Native.TypeNesting

/-!
# Open wrappers of a type name

A count of wrappers that bounds the parser's recursion, read off a name from left to right.
A wrapper opens where its name and parenthesis begin the name or an argument.  It counts as
open until the comma behind the argument it begins, also past its own closing parenthesis:
the branches of the parser look for commas at depth zero and for the last parenthesis, and
neither tells whether a wrapper is closed.
-/

namespace DfeClickhouse.Native

open Library

/-- How a wrapper takes the commas behind its opening parenthesis. -/
inductive WrapperKind
  /-- All of them belong to its one argument. -/
  | single
  /-- One at its own depth ends an argument. -/
  | list
  /-- The first one at its own depth ends the function's name, and the others belong to the
  type behind it. -/
  | aggregate
  deriving DecidableEq

/-- The names that make the parser call itself. -/
def wrapperKinds : List (Text × WrapperKind) :=
  [("Nullable".toList, .single), ("LowCardinality".toList, .single), ("Array".toList, .single),
    ("Tuple".toList, .list), ("Map".toList, .list), ("Variant".toList, .list),
    ("SimpleAggregateFunction".toList, .aggregate)]

/-- The wrapper a word opens. -/
def wrapperKind (word : Text) : Option WrapperKind :=
  (wrapperKinds.find? fun entry => entry.1 == word).map Prod.snd

/-- An open wrapper, with the parentheses open behind its own and whether its own is closed. -/
structure Wrapper where
  kind : WrapperKind
  depth : Nat
  closed : Bool

namespace Wrapper

/-- The wrapper behind one more character. -/
def after (wrapper : Wrapper) (char : Char) : Wrapper where
  kind := wrapper.kind
  depth := parenDepthAfter wrapper.depth char
  closed := wrapper.closed || (char == ')' && wrapper.depth == 0)

/-- The wrapper at its next argument. -/
def nextArgument (wrapper : Wrapper) : Wrapper :=
  { wrapper with kind := if wrapper.kind = .aggregate then .single else wrapper.kind }

end Wrapper

/-- The wrappers left open by a comma that ends an argument, innermost first: it is the
outermost wrapper with the comma at its own depth that decides. -/
def endArgument : List Wrapper → Option (List Wrapper)
  | [] => none
  | wrapper :: outer =>
      match endArgument outer with
      | some rest => some rest
      | none =>
          if wrapper.kind ≠ .single ∧ wrapper.depth = 0 then
            some (wrapper.nextArgument :: outer)
          else none

/-- A place in a name: the wrappers open there, innermost first, and the reversed word so far
at the front of an argument. -/
structure NameScan where
  wrappers : List Wrapper
  word : Option Text

namespace NameScan

/-- The beginning of a name. -/
def start : NameScan := ⟨[], some []⟩

/-- One character further. -/
def after (scan : NameScan) (char : Char) : NameScan :=
  if char = '(' then
    match scan.word.bind fun word => wrapperKind word.reverse with
    | some kind =>
        ⟨⟨kind, 0, false⟩ :: scan.wrappers.map (·.after char),
          if kind = .aggregate then none else some []⟩
    | none => ⟨scan.wrappers.map (·.after char), none⟩
  else if char = ')' then
    ⟨scan.wrappers.map (·.after char), none⟩
  else if char = ',' then
    match endArgument scan.wrappers with
    | some wrappers => ⟨wrappers, some []⟩
    | none => ⟨scan.wrappers, none⟩
  else
    ⟨scan.wrappers, scan.word.map fun word =>
      if word = [] ∧ isWhitespace char = true then [] else char :: word⟩

/-- The place behind a text. -/
def through (scan : NameScan) (text : Text) : NameScan :=
  text.foldl NameScan.after scan

end NameScan

/-- The most wrappers open at any place of a text. -/
def mostOpenFrom (scan : NameScan) : Text → Nat
  | [] => scan.wrappers.length
  | char :: rest => max scan.wrappers.length (mostOpenFrom (scan.after char) rest)

/-- The most wrappers open at any place of a name. -/
def mostWrappersOpen (name : Text) : Nat :=
  mostOpenFrom .start name

/-- A character that neither opens, closes nor separates. -/
def IsPlain (char : Char) : Prop :=
  char ≠ '(' ∧ char ≠ ')' ∧ char ≠ ','

theorem isPlain_of_isWhitespace {char : Char} (white : isWhitespace char = true) :
    IsPlain char := by
  refine ⟨?_, ?_, ?_⟩ <;>
    · rintro rfl
      exact absurd white (by decide)

theorem parenDepthAfter_plain {char : Char} (plain : char ≠ '(' ∧ char ≠ ')') (depth : Nat) :
    parenDepthAfter depth char = depth := by
  rw [parenDepthAfter, if_neg plain.1, if_neg plain.2]

theorem Wrapper.after_plain {char : Char} (plain : char ≠ '(' ∧ char ≠ ')') (wrapper : Wrapper) :
    wrapper.after char = wrapper := by
  have stays : (char == ')') = false := beq_eq_false_iff_ne.mpr plain.2
  rw [Wrapper.after, parenDepthAfter_plain plain, stays, Bool.false_and, Bool.or_false]

theorem Wrapper.map_after_plain {char : Char} (plain : char ≠ '(' ∧ char ≠ ')')
    (wrappers : List Wrapper) : wrappers.map (·.after char) = wrappers := by
  rw [List.map_congr_left fun wrapper _ => wrapper.after_plain plain, List.map_id']

namespace NameScan

theorem through_append (scan : NameScan) (front back : Text) :
    scan.through (front ++ back) = (scan.through front).through back :=
  List.foldl_append

theorem after_plain {char : Char} (plain : IsPlain char) (scan : NameScan) :
    scan.after char = ⟨scan.wrappers, scan.word.map fun word =>
      if word = [] ∧ isWhitespace char = true then [] else char :: word⟩ := by
  rw [after, if_neg plain.1, if_neg plain.2.1, if_neg plain.2.2]

/-- White space at the front of an argument changes nothing. -/
theorem through_space {space : Text} (white : ∀ char ∈ space, isWhitespace char = true)
    (wrappers : List Wrapper) :
    NameScan.through ⟨wrappers, some []⟩ space = ⟨wrappers, some []⟩ := by
  induction space with
  | nil => rfl
  | cons char rest ih =>
      have first := white char List.mem_cons_self
      have step : NameScan.after ⟨wrappers, some []⟩ char = ⟨wrappers, some []⟩ := by
        rw [after_plain (isPlain_of_isWhitespace first)]
        simp [first]
      rw [through, List.foldl_cons, step]
      exact ih fun other member => white other (List.mem_cons_of_mem _ member)

/-- A word at the front of an argument is kept. -/
theorem through_word {word : Text}
    (letters : ∀ char ∈ word, IsPlain char ∧ isWhitespace char = false)
    (wrappers : List Wrapper) (front : Text) :
    NameScan.through ⟨wrappers, some front⟩ word = ⟨wrappers, some (word.reverse ++ front)⟩ := by
  induction word generalizing front with
  | nil => rfl
  | cons char rest ih =>
      obtain ⟨plain, visible⟩ := letters char List.mem_cons_self
      have step : NameScan.after ⟨wrappers, some front⟩ char =
          ⟨wrappers, some (char :: front)⟩ := by
        rw [after_plain plain]
        simp [visible]
      rw [through, List.foldl_cons, step]
      have others := ih (fun other member => letters other (List.mem_cons_of_mem _ member))
        (char :: front)
      rw [List.reverse_cons, List.append_assoc]
      exact others

end NameScan

/-- The wrappers behind a text that leaves them all open. -/
def advance (text : Text) (wrappers : List Wrapper) : List Wrapper :=
  text.foldl (fun wrappers char => wrappers.map (·.after char)) wrappers

theorem advance_append (front back : Text) (wrappers : List Wrapper) :
    advance (front ++ back) wrappers = advance back (advance front wrappers) :=
  List.foldl_append

theorem length_advance (text : Text) (wrappers : List Wrapper) :
    (advance text wrappers).length = wrappers.length := by
  induction text generalizing wrappers with
  | nil => rfl
  | cons char rest ih => exact (ih _).trans (List.length_map _)

/-- A wrapper moves on beside those around it. -/
theorem advance_cons (text : Text) (wrapper : Wrapper) (outer : List Wrapper) :
    ∃ closed, advance text (wrapper :: outer) =
      ⟨wrapper.kind, text.foldl parenDepthAfter wrapper.depth, closed⟩ :: advance text outer := by
  induction text generalizing wrapper outer with
  | nil => exact ⟨wrapper.closed, rfl⟩
  | cons char rest ih => exact ih (wrapper.after char) (outer.map (·.after char))

theorem advance_space {space : Text} (white : ∀ char ∈ space, isWhitespace char = true)
    (wrappers : List Wrapper) : advance space wrappers = wrappers := by
  induction space with
  | nil => rfl
  | cons char rest ih =>
      obtain ⟨opens, closes, _⟩ := isPlain_of_isWhitespace (white char List.mem_cons_self)
      rw [advance, List.foldl_cons, Wrapper.map_after_plain ⟨opens, closes⟩]
      exact ih fun other member => white other (List.mem_cons_of_mem _ member)

theorem endArgument_append {outer : List Wrapper} (inner : List Wrapper)
    (goesOn : endArgument outer = none) :
    endArgument (inner ++ outer) = (endArgument inner).map (· ++ outer) := by
  induction inner with
  | nil => exact goesOn
  | cons wrapper inner ih =>
      rw [List.cons_append, endArgument, ih, endArgument]
      cases endArgument inner with
      | some rest => rfl
      | none =>
          by_cases ends : wrapper.kind ≠ .single ∧ wrapper.depth = 0
          · simp only [Option.map_none, if_pos ends]
            rfl
          · simp only [Option.map_none, if_neg ends]

theorem endArgument_append_of_some {outer rest : List Wrapper} (inner : List Wrapper)
    (ends : endArgument outer = some rest) : endArgument (inner ++ outer) = some rest := by
  induction inner with
  | nil => exact ends
  | cons wrapper inner ih => rw [List.cons_append, endArgument, ih]

/-- No comma of a text ends an argument of the wrappers around it. -/
def Undivided (wrappers : List Wrapper) (text : Text) : Prop :=
  ∀ front back : Text, text = front ++ ',' :: back →
    endArgument (advance front wrappers) = none

theorem Undivided.inside {wrappers : List Wrapper} {front text back : Text}
    (undivided : Undivided wrappers (front ++ text ++ back)) :
    Undivided (advance front wrappers) text := by
  intro before rest split
  rw [← advance_append]
  apply undivided (front ++ before) (rest ++ back)
  rw [split]
  simp

/-- Every comma of a text leaves the wrappers around it as they are. -/
def Kept (wrappers : List Wrapper) (text : Text) : Prop :=
  ∀ front back : Text, text = front ++ ',' :: back →
    endArgument (advance front wrappers) = none ∨
      endArgument (advance front wrappers) = some (advance front wrappers)

theorem Undivided.kept {wrappers : List Wrapper} {text : Text}
    (undivided : Undivided wrappers text) : Kept wrappers text := by
  intro front back split
  left
  exact undivided front back split

/-- Wrappers that a text keeps are below those it opens itself. -/
theorem through_kept {wrappers : List Wrapper} {text : Text} (kept : Kept wrappers text)
    (inner : List Wrapper) (word : Option Text) :
    ∃ inner' word', NameScan.through ⟨inner ++ wrappers, word⟩ text =
      ⟨inner' ++ advance text wrappers, word'⟩ := by
  induction text generalizing wrappers inner word with
  | nil => exact ⟨inner, word, rfl⟩
  | cons char rest ih =>
      have later : Kept (wrappers.map (·.after char)) rest := by
        intro front back split
        exact kept (char :: front) back (congrArg (char :: ·) split)
      suffices step : ∃ inner' word', NameScan.after ⟨inner ++ wrappers, word⟩ char =
          ⟨inner' ++ wrappers.map (·.after char), word'⟩ by
        obtain ⟨inner', word', step⟩ := step
        rw [NameScan.through, List.foldl_cons, step]
        exact ih later inner' word'
      by_cases opens : char = '('
      · rw [NameScan.after, if_pos opens, List.map_append]
        cases word.bind fun word => wrapperKind word.reverse with
        | some kind => exact ⟨⟨kind, 0, false⟩ :: inner.map (·.after char), _, rfl⟩
        | none => exact ⟨inner.map (·.after char), none, rfl⟩
      rw [NameScan.after, if_neg opens]
      by_cases closes : char = ')'
      · rw [if_pos closes, List.map_append]
        exact ⟨_, none, rfl⟩
      rw [if_neg closes, Wrapper.map_after_plain ⟨opens, closes⟩]
      by_cases comma : char = ','
      · subst comma
        rw [if_pos rfl]
        obtain goesOn | stays := kept [] rest rfl
        · have ended := endArgument_append inner goesOn
          change endArgument (inner ++ wrappers) = _ at ended
          rw [ended]
          cases endArgument inner with
          | some inner' => exact ⟨inner', some [], rfl⟩
          | none => exact ⟨inner, none, rfl⟩
        · have ended := endArgument_append_of_some inner stays
          change endArgument (inner ++ wrappers) = some wrappers at ended
          rw [ended]
          exact ⟨[], some [], rfl⟩
      · rw [if_neg comma]
        exact ⟨inner, _, rfl⟩

/-- The text has no comma at depth zero. -/
def Unsplit (text : Text) : Prop :=
  ∀ front back : Text, text = front ++ ',' :: back → front.foldl parenDepthAfter 0 ≠ 0

theorem Undivided.cons {wrapper : Wrapper} {outer : List Wrapper} {text : Text}
    (outside : Undivided outer text) (fresh : wrapper.depth = 0)
    (own : wrapper.kind = .single ∨ Unsplit text) : Undivided (wrapper :: outer) text := by
  intro front back split
  obtain ⟨closed, moved⟩ := advance_cons front wrapper outer
  rw [moved, endArgument, outside front back split]
  apply if_neg
  rintro ⟨splits, atZero⟩
  cases own with
  | inl single => exact splits single
  | inr unsplit =>
      rw [fresh] at atZero
      exact unsplit front back split atZero

/-- A list wrapper is back at its arguments after each of its commas. -/
theorem Undivided.kept_list {outer : List Wrapper} {text : Text}
    (outside : Undivided outer text) (closed : Bool) :
    Kept (⟨.list, 0, closed⟩ :: outer) text := by
  intro front back split
  obtain ⟨closed', moved⟩ := advance_cons front ⟨.list, 0, closed⟩ outer
  rw [moved, endArgument, outside front back split]
  by_cases atZero : front.foldl parenDepthAfter 0 = 0
  · right
    exact if_pos ⟨fun same => (nomatch same), atZero⟩
  · left
    exact if_neg fun ends => atZero ends.2

/-- An argument stands in a name, with these wrappers open around it. -/
def Reaches (name argument : Text) (wrappers : List Wrapper) : Prop :=
  Undivided wrappers argument ∧ ∃ front back : Text, name = front ++ argument ++ back ∧
    NameScan.start.through front = ⟨wrappers, some []⟩

theorem Reaches.inside {name argument : Text} {wrappers : List Wrapper}
    {space rest back : Text} (reached : Reaches name argument wrappers)
    (split : argument = space ++ rest ++ back)
    (white : ∀ char ∈ space, isWhitespace char = true) : Reaches name rest wrappers := by
  obtain ⟨undivided, before, behind, same, scanned⟩ := reached
  constructor
  · rw [split] at undivided
    have inside := undivided.inside
    rwa [advance_space white] at inside
  · refine ⟨before ++ space, back ++ behind, ?_, ?_⟩
    · rw [same, split]
      simp
    · rw [NameScan.through_append, scanned, NameScan.through_space white]

theorem Reaches.trimmed {name argument : Text} {wrappers : List Wrapper}
    (reached : Reaches name argument wrappers) : Reaches name (trim argument) wrappers := by
  obtain ⟨front, back, split, white, _⟩ := exists_trim_eq argument
  exact reached.inside split white

theorem isPlain_of_isAlpha {char : Char} (letter : char.isAlpha = true) :
    IsPlain char ∧ isWhitespace char = false := by
  constructor
  · refine ⟨?_, ?_, ?_⟩ <;>
      · rintro rfl
        exact absurd letter (by decide)
  · simp only [Char.isAlpha, Char.isUpper, Char.isLower, Bool.or_eq_true, Bool.and_eq_true,
      decide_eq_true_eq, ge_iff_le, UInt32.le_iff_toNat_le] at letter
    have code : (65 ≤ char.toNat ∧ char.toNat ≤ 90) ∨ (97 ≤ char.toNat ∧ char.toNat ≤ 122) :=
      letter
    simp only [isWhitespace, Bool.or_eq_false_iff, Bool.and_eq_false_iff, decide_eq_false_iff_not,
      beq_eq_false_iff_ne]
    omega

theorem isAlpha_of_wrapperKind {word : Text} {kind : WrapperKind}
    (opened : wrapperKind word = some kind) : ∀ char ∈ word, char.isAlpha = true := by
  obtain ⟨entry, found, rfl⟩ := Option.map_eq_some_iff.mp opened
  have letters : ∀ entry ∈ wrapperKinds, ∀ char ∈ entry.1, char.isAlpha = true := by
    simp [wrapperKinds]
  have matched := List.find?_some found
  have same : entry.1 = word := eq_of_beq matched
  rw [← same]
  exact letters entry (List.mem_of_find?_eq_some found)

/-- Behind the opening of a wrapper. -/
theorem Reaches.enter {name argument word rest : Text} {kind : WrapperKind}
    {wrappers : List Wrapper} (reached : Reaches name argument wrappers)
    (split : argument = word ++ '(' :: rest) (opened : wrapperKind word = some kind) :
    ∃ outer : List Wrapper, outer.length = wrappers.length ∧ Undivided outer rest ∧
      ∃ front back : Text, name = front ++ rest ++ back ∧
        NameScan.start.through front =
          ⟨⟨kind, 0, false⟩ :: outer, if kind = .aggregate then none else some []⟩ := by
  obtain ⟨undivided, before, behind, same, scanned⟩ := reached
  refine ⟨advance (word ++ ['(']) wrappers, length_advance _ _, ?_, before ++ (word ++ ['(']),
    behind, ?_, ?_⟩
  · have inside := @Undivided.inside wrappers (word ++ ['(']) rest []
    rw [split] at undivided
    simp only [List.append_assoc, List.singleton_append, List.append_nil] at inside
    exact inside undivided
  · rw [same, split]
    simp
  · have letters : ∀ char ∈ word, IsPlain char ∧ isWhitespace char = false :=
      fun char member => isPlain_of_isAlpha (isAlpha_of_wrapperKind opened char member)
    have unmoved : advance word wrappers = wrappers := by
      clear scanned undivided split opened
      induction word with
      | nil => rfl
      | cons char others ih =>
          obtain ⟨opens, closes, _⟩ := (letters char List.mem_cons_self).1
          rw [advance, List.foldl_cons, Wrapper.map_after_plain ⟨opens, closes⟩]
          exact ih fun other member => letters other (List.mem_cons_of_mem _ member)
    rw [NameScan.through_append, scanned, NameScan.through_append, NameScan.through_word letters,
      advance_append, unmoved]
    simp only [NameScan.through, List.foldl_cons, List.foldl_nil, NameScan.after, List.append_nil,
      List.reverse_reverse, Option.bind_some, opened, if_true]
    rfl

theorem stripOuter_eq {text inner : Text} {name : String}
    (stripped : stripOuter text name = some inner) :
    text = name.toList ++ '(' :: (inner ++ [')']) := by
  simp only [stripOuter, Option.bind_eq_bind, Option.bind_eq_some_iff,
    List.dropPrefix?_eq_some_iff, List.dropSuffix?_eq_some_iff] at stripped
  obtain ⟨rest, ⟨front, rfl, isName⟩, body, ⟨opening, rfl, isOpening⟩, closing, rfl, isClosing⟩ :=
    stripped
  rw [eq_of_beq isName, eq_of_beq isOpening, eq_of_beq isClosing]
  rfl

/-- The branches that hand on one argument less its last parenthesis. -/
theorem Reaches.single {name text inner : Text} {word : String} {wrappers : List Wrapper}
    (reached : Reaches name text wrappers) (stripped : stripOuter text word = some inner)
    (opened : wrapperKind word.toList = some .single) :
    ∃ wrapper outer, outer.length = wrappers.length ∧ Reaches name inner (wrapper :: outer) := by
  obtain ⟨outer, same, undivided, front, back, place, scanned⟩ :=
    reached.enter (stripOuter_eq stripped) opened
  refine ⟨⟨.single, 0, false⟩, outer, same, ?_, front, [')'] ++ back, ?_, scanned⟩
  · apply Undivided.cons ?_ rfl (.inl rfl)
    exact @Undivided.inside outer [] inner [')'] undivided
  · rw [place]
    simp

/-- Behind a comma that ends an argument of a wrapper. -/
theorem Reaches.behindComma {name text part rest : Text} {wrapper : Wrapper}
    {outer : List Wrapper} {word : Option Text} {before behind : Text}
    (place : name = before ++ text ++ behind)
    (scanned : NameScan.start.through before = ⟨wrapper :: outer, word⟩)
    (split : text = part ++ ',' :: rest) (kept : Kept (wrapper :: outer) part)
    (undivided : Undivided outer text) (splits : wrapper.kind ≠ .single)
    (atZero : part.foldl parenDepthAfter wrapper.depth = 0)
    {argument back : Text} {space : Text} (inside : rest = space ++ argument ++ back)
    (white : ∀ char ∈ space, isWhitespace char = true)
    (own : wrapper.kind = .aggregate ∨ Unsplit argument) :
    ∃ wrapper' outer', outer'.length = outer.length ∧
      Reaches name argument (wrapper' :: outer') := by
  obtain ⟨closed, moved⟩ := advance_cons part wrapper outer
  have ends : endArgument (advance part (wrapper :: outer)) =
      some ((Wrapper.mk wrapper.kind 0 closed).nextArgument :: advance part outer) := by
    rw [moved, endArgument, undivided part rest split, atZero]
    exact if_pos ⟨splits, rfl⟩
  obtain ⟨inner, word', through⟩ := through_kept kept [] word
  have comma : (NameScan.start.through before).through (part ++ [',']) =
      ⟨(Wrapper.mk wrapper.kind 0 closed).nextArgument :: advance part outer, some []⟩ := by
    rw [NameScan.through_append, scanned]
    change (NameScan.through ⟨[] ++ wrapper :: outer, word⟩ part).through [','] = _
    rw [through]
    change NameScan.after ⟨inner ++ advance part (wrapper :: outer), word'⟩ ',' = _
    have ended := endArgument_append_of_some inner ends
    rw [NameScan.after, if_neg (by decide), if_neg (by decide), if_pos rfl]
    dsimp only
    rw [ended]
  refine ⟨(Wrapper.mk wrapper.kind 0 closed).nextArgument, advance part outer,
    length_advance _ _, ?_, before ++ (part ++ [',']) ++ space, back ++ behind, ?_, ?_⟩
  · apply Undivided.cons ?_ rfl
    · obtain aggregate | unsplit := own
      · left
        simp only [Wrapper.nextArgument, aggregate, if_true]
      · right
        exact unsplit
    · rw [split, inside] at undivided
      have within := @Undivided.inside outer (part ++ ',' :: space) argument back
        (by simpa using undivided)
      have unmoved : advance (part ++ ',' :: space) outer = advance part outer := by
        rw [advance_append]
        change advance space ((advance part outer).map (·.after ',')) = advance part outer
        rw [Wrapper.map_after_plain (by decide), advance_space white]
      rwa [unmoved] at within
  · rw [place, split, inside]
    simp
  · rw [NameScan.through_append, NameScan.through_append, comma, NameScan.through_space white]

theorem parenDepthAfter_comma (depth : Nat) : parenDepthAfter depth ',' = depth :=
  parenDepthAfter_plain (by decide) depth

theorem Unsplit.concat {text : Text} {char : Char} (unsplit : Unsplit text)
    (deep : char = ',' → text.foldl parenDepthAfter 0 ≠ 0) : Unsplit (text ++ [char]) := by
  intro front back split
  obtain rfl | ⟨middle, last, rfl⟩ := List.eq_nil_or_concat back
  · obtain ⟨rfl, same⟩ := List.append_inj' split rfl
    exact deep (List.cons.inj same).1
  · have regroup : front ++ ',' :: (middle ++ [last]) = (front ++ ',' :: middle) ++ [last] := by
      simp
    rw [List.concat_eq_append, regroup] at split
    exact unsplit front middle (List.append_inj' split rfl).1

/-- An argument of a list is what stands between two commas at depth zero. -/
theorem exists_split_of_mem {depth : Nat} {current text argument : Text}
    (unsplit : Unsplit current.reverse)
    (reached : current.reverse.foldl parenDepthAfter 0 = depth)
    (member : argument ∈ splitTypeArgsFrom depth current text) :
    (∃ part back, current.reverse ++ text = part ++ back ∧ argument = trim part ∧ Unsplit part) ∨
      ∃ front part back, text = front ++ ',' :: (part ++ back) ∧ argument = trim part ∧
        Unsplit part ∧ (current.reverse ++ front).foldl parenDepthAfter 0 = 0 := by
  induction text generalizing depth current with
  | nil =>
      rw [splitTypeArgsFrom] at member
      by_cases empty : (trim current.reverse).isEmpty = true
      · rw [if_pos empty] at member
        cases member
      · rw [if_neg empty] at member
        left
        exact ⟨current.reverse, [], rfl, List.mem_singleton.mp member, unsplit⟩
  | cons char rest ih =>
      rw [splitTypeArgsFrom] at member
      by_cases separates : char = ',' ∧ depth = 0
      · rw [if_pos separates] at member
        obtain ⟨rfl, rfl⟩ := separates
        cases member with
        | head =>
            left
            exact ⟨current.reverse, ',' :: rest, rfl, rfl, unsplit⟩
        | tail _ member =>
            right
            have empty : Unsplit ([] : Text).reverse := by
              intro front back split
              cases front <;> cases split
            obtain ⟨part, back, split, same, whole⟩ |
              ⟨front, part, back, split, same, whole, zero⟩ :=
              ih empty rfl member
            · refine ⟨[], part, back, ?_, same, whole, ?_⟩
              · exact congrArg (',' :: ·) split
              · rw [List.append_nil]
                exact reached
            · refine ⟨',' :: front, part, back, ?_, same, whole, ?_⟩
              · exact congrArg (',' :: ·) split
              · rw [List.foldl_append, reached, List.foldl_cons, parenDepthAfter_comma]
                exact zero
      · rw [if_neg separates] at member
        have deeper : (char :: current).reverse.foldl parenDepthAfter 0 =
            parenDepthAfter depth char := by
          rw [List.reverse_cons, List.foldl_append, reached]
          rfl
        have whole : Unsplit (char :: current).reverse := by
          rw [List.reverse_cons]
          apply unsplit.concat
          intro comma
          rw [reached]
          exact fun atZero => separates ⟨comma, atZero⟩
        obtain ⟨part, back, split, same, whole⟩ | ⟨front, part, back, split, same, whole, zero⟩ :=
          ih whole deeper member
        · left
          refine ⟨part, back, ?_, same, whole⟩
          rw [← split]
          simp
        · right
          refine ⟨char :: front, part, back, congrArg (char :: ·) split, same, whole, ?_⟩
          rw [List.reverse_cons, List.append_assoc] at zero
          exact zero

/-- The first comma at depth zero, and what stands before it. -/
theorem exists_split_of_findFirstComma {depth index comma : Nat} {text : Text}
    (found : findFirstCommaFrom depth index text = some comma) :
    ∃ front back, text = front ++ ',' :: back ∧ comma = index + front.length ∧
      front.foldl parenDepthAfter depth = 0 ∧
      ∀ before rest : Text, front = before ++ ',' :: rest →
        before.foldl parenDepthAfter depth ≠ 0 := by
  induction text generalizing depth index with
  | nil => cases found
  | cons char rest ih =>
      rw [findFirstCommaFrom] at found
      by_cases separates : char = ',' ∧ depth = 0
      · rw [if_pos separates] at found
        obtain ⟨rfl, rfl⟩ := separates
        refine ⟨[], rest, rfl, (Option.some.inj found).symm, rfl, ?_⟩
        intro before after split
        cases before <;> cases split
      · rw [if_neg separates] at found
        obtain ⟨front, back, split, place, zero, first⟩ := ih found
        refine ⟨char :: front, back, congrArg (char :: ·) split, ?_, zero, ?_⟩
        · rw [place, List.length_cons]
          omega
        · intro before after same
          cases before with
          | nil =>
              intro atZero
              exact separates ⟨(List.cons.inj same).1, atZero⟩
          | cons other before =>
              obtain rfl := (List.cons.inj same).1
              exact first before after (List.cons.inj same).2

/-- The branches that hand on the arguments of a list. -/
theorem Reaches.listed {name text arguments argument : Text} {word : String}
    {wrappers : List Wrapper} (reached : Reaches name text wrappers)
    (stripped : stripOuter text word = some arguments)
    (opened : wrapperKind word.toList = some .list)
    (member : argument ∈ splitTypeArgs arguments) :
    ∃ wrapper outer, outer.length = wrappers.length ∧
      Reaches name argument (wrapper :: outer) := by
  obtain ⟨outer, same, undivided, front, back, place, scanned⟩ :=
    reached.enter (stripOuter_eq stripped) opened
  have unsplit : Unsplit ([] : Text).reverse := by
    intro before rest empty
    cases before <;> cases empty
  have inside : Undivided outer arguments :=
    @Undivided.inside outer [] arguments [')'] undivided
  obtain ⟨part, rest, parted, rfl, whole⟩ | ⟨before, part, rest, parted, rfl, whole, zero⟩ :=
    exists_split_of_mem unsplit rfl member
  · refine ⟨⟨.list, 0, false⟩, outer, same,
      Reaches.trimmed ⟨?_, front, rest ++ [')'] ++ back, ?_, scanned⟩⟩
    · apply Undivided.cons ?_ rfl (.inr whole)
      rw [show arguments = part ++ rest from parted] at inside
      exact @Undivided.inside outer [] part rest inside
    · rw [place, show arguments = part ++ rest from parted]
      simp
  · have kept : Kept (⟨.list, 0, false⟩ :: outer) before := by
      apply Undivided.kept_list
      rw [parted] at inside
      exact @Undivided.inside outer [] before (',' :: (part ++ rest)) inside
    have place' : name = front ++ arguments ++ ([')'] ++ back) := by
      rw [place]
      simp
    obtain ⟨wrapper, outer', length, behind⟩ :=
      @Reaches.behindComma _ _ _ _ _ _ _ _ _ place' scanned parted kept inside
        (by decide) zero part rest [] rfl (List.forall_mem_nil _)
        (.inr whole)
    exact ⟨wrapper, outer', length.trans same, behind.trimmed⟩

/-- The branch that hands on the type of an aggregate function. -/
theorem Reaches.aggregate {name text inner : Text} {wrappers : List Wrapper}
    (reached : Reaches name text wrappers) (found : simpleAggregateArgument text = some inner) :
    ∃ wrapper outer, outer.length = wrappers.length ∧ Reaches name inner (wrapper :: outer) := by
  simp only [simpleAggregateArgument, Option.bind_eq_bind, Option.bind_eq_some_iff,
    List.dropPrefix?_eq_some_iff, Option.pure_def, Option.some.injEq] at found
  obtain ⟨rest, ⟨opening, rfl, isOpening⟩, comma, search, rfl⟩ := found
  obtain rfl : opening = "SimpleAggregateFunction".toList ++ ['('] := eq_of_beq isOpening
  obtain ⟨part, behind, parted, rfl, zero, first⟩ := exists_split_of_findFirstComma search
  obtain ⟨outer, same, undivided, front, back, place, scanned⟩ :=
    @Reaches.enter _ _ "SimpleAggregateFunction".toList rest .aggregate _ reached
      (by simp) (by decide)
  have unsplit : Undivided (⟨.aggregate, 0, false⟩ :: outer) part := by
    apply Undivided.cons ?_ rfl (.inr first)
    rw [parted] at undivided
    exact @Undivided.inside outer [] part (',' :: behind) undivided
  have dropped : rest.drop (0 + part.length + 1) = behind := by
    rw [parted, Nat.zero_add]
    simp
  obtain ⟨space, after, spaced, white, _⟩ := exists_trim_eq behind
  have stands : ∃ wrapper outer', outer'.length = outer.length ∧
      Reaches name (trim behind) (wrapper :: outer') :=
    Reaches.behindComma place scanned parted unsplit.kept undivided (by decide) zero spaced white
      (.inl rfl)
  obtain ⟨wrapper, outer', length, behindComma⟩ := stands
  refine ⟨wrapper, outer', length.trans same, ?_⟩
  rw [dropped]
  cases closed : (trim behind).dropSuffix? [')'] with
  | none => exact behindComma
  | some body =>
      obtain ⟨tail, split, _⟩ := List.dropSuffix?_eq_some_iff.mp closed
      exact @Reaches.inside _ _ _ [] _ _ behindComma split (List.forall_mem_nil _)

/-- A property of every text that a form can hand to a nested call. -/
def TypeForm.ForCalls (property : Text → Prop) : TypeForm → Prop
  | done _ => True
  | wrapped _ inner => property inner
  | listed _ arguments => ∀ argument ∈ arguments, property argument
  | keyed key value => property key ∧ property value

theorem TypeForm.ForCalls.of_mem {property : Text → Prop} {form : TypeForm}
    {nested : Text → Option ColumnType} {argument : Text} (all : form.ForCalls property)
    (member : argument ∈ form.calls nested) : property argument := by
  cases form with
  | done result => cases member
  | wrapped build inner =>
      obtain rfl := List.mem_singleton.mp member
      exact all
  | listed build arguments => exact all argument member
  | keyed key value =>
      rw [TypeForm.calls] at member
      by_cases parsed : (nested key).isSome = true
      · rw [if_pos parsed] at member
        obtain rfl | rfl : argument = key ∨ argument = value := by simpa using member
        · exact all.1
        · exact all.2
      · rw [if_neg parsed] at member
        obtain rfl := List.mem_singleton.mp member
        exact all.1

/-- Every text that a nested call gets stands in the name with one wrapper more around it. -/
theorem Reaches.call {name text : Text} {wrappers : List Wrapper}
    (reached : Reaches name text wrappers) :
    (typeForm text).ForCalls fun argument => ∃ wrapper outer,
      outer.length = wrappers.length ∧ Reaches name argument (wrapper :: outer) := by
  unfold typeForm
  split
  · trivial
  split
  · exact reached.single ‹_› (by decide)
  split
  · exact reached.single ‹_› (by decide)
  iterate 11
    split
    · trivial
  split
  · exact reached.single ‹_› (by decide)
  split
  · exact fun _ member => reached.listed ‹_› (by decide) member
  split
  · rename_i arguments stripped
    split
    · rename_i key value split
      have every {argument : Text} (member : argument ∈ splitTypeArgs arguments) :=
        reached.listed stripped (by decide) member
      rw [split] at every
      exact ⟨every List.mem_cons_self, every (List.mem_cons_of_mem _ List.mem_cons_self)⟩
    · trivial
  split
  · split
    · rename_i found
      exact reached.aggregate found
    · trivial
  split
  · exact fun _ member => reached.listed ‹_› (by decide) member
  split
  · trivial
  · trivial

/-- As many wrappers are open around the last text of a chain as the chain has calls. -/
theorem Reaches.chain {name text : Text} {wrappers : List Wrapper} {chain : List Text}
    (reached : Reaches name (trim text) wrappers) (calls : CallChain text chain) :
    ∃ last wrappers', Reaches name last wrappers' ∧
      wrappers'.length = wrappers.length + chain.length := by
  induction chain generalizing text wrappers with
  | nil => exact ⟨trim text, wrappers, reached, rfl⟩
  | cons argument chain ih =>
      obtain ⟨member, rest⟩ := callChain_cons.mp calls
      obtain ⟨wrapper, outer, length, inner⟩ := reached.call.of_mem member
      obtain ⟨last, wrappers', reached', total⟩ := ih inner.trimmed rest
      refine ⟨last, wrappers', reached', ?_⟩
      rw [total, List.length_cons, List.length_cons, length]
      omega

/-- A comma begins an argument of a wrapper, or in one, whose parenthesis is closed. -/
def PassesClosed (scan : NameScan) (text : Text) : Prop :=
  ∃ (front back : Text) (wrappers : List Wrapper), text = front ++ ',' :: back ∧
    endArgument (scan.through front).wrappers = some wrappers ∧
      ∃ wrapper ∈ wrappers, wrapper.closed = true

theorem PassesClosed.cons {scan : NameScan} {char : Char} {rest : Text}
    (later : PassesClosed (scan.after char) rest) : PassesClosed scan (char :: rest) := by
  obtain ⟨front, back, wrappers, split, ends, wrapper⟩ := later
  exact ⟨char :: front, back, wrappers, congrArg (char :: ·) split, ends, wrapper⟩

/-- The wrappers that are not closed stand in each other, at a parenthesis depth; at the front
of an argument no wrapper is closed. -/
structure NestedAt (scan : NameScan) (depth : Nat) : Prop where
  front : scan.word ≠ none → ∀ wrapper ∈ scan.wrappers, wrapper.closed = false
  nested : scan.wrappers.Pairwise fun inner outer =>
    inner.closed = false → outer.closed = false → inner.depth < outer.depth
  below : ∀ wrapper ∈ scan.wrappers, wrapper.closed = false → wrapper.depth < depth

theorem length_le_of_nested {wrappers : List Wrapper} {low depth : Nat}
    (nested : wrappers.Pairwise fun inner outer => inner.depth < outer.depth)
    (above : ∀ wrapper ∈ wrappers, low ≤ wrapper.depth)
    (below : ∀ wrapper ∈ wrappers, wrapper.depth < depth) : wrappers.length ≤ depth - low := by
  induction wrappers generalizing low with
  | nil => exact Nat.zero_le _
  | cons wrapper outer ih =>
      obtain ⟨first, others⟩ := List.pairwise_cons.mp nested
      have rest := ih others first fun other member => below other (List.mem_cons_of_mem _ member)
      have lower := above wrapper List.mem_cons_self
      have upper := below wrapper List.mem_cons_self
      rw [List.length_cons]
      omega

/-- At the front of an argument there are no more wrappers open than parentheses. -/
theorem NestedAt.length_le {scan : NameScan} {depth : Nat} (within : NestedAt scan depth)
    (front : scan.word ≠ none) : scan.wrappers.length ≤ depth := by
  have opened := within.front front
  have nested : scan.wrappers.Pairwise fun inner outer => inner.depth < outer.depth :=
    within.nested.imp_of_mem fun first second less => less (opened _ first) (opened _ second)
  exact length_le_of_nested nested (fun wrapper _ => Nat.zero_le _)
    fun wrapper member => within.below wrapper member (opened wrapper member)

theorem endArgument_eq {wrappers rest : List Wrapper} (ends : endArgument wrappers = some rest) :
    ∃ inner wrapper outer, wrappers = inner ++ wrapper :: outer ∧
      rest = wrapper.nextArgument :: outer := by
  induction wrappers with
  | nil => cases ends
  | cons wrapper outer ih =>
      rw [endArgument] at ends
      cases further : endArgument outer with
      | some others =>
          rw [further] at ends
          obtain ⟨inner, other, outer', split, same⟩ := ih (further.trans ends)
          exact ⟨wrapper :: inner, other, outer', congrArg (wrapper :: ·) split, same⟩
      | none =>
          rw [further] at ends
          dsimp only at ends
          by_cases own : wrapper.kind ≠ .single ∧ wrapper.depth = 0
          · rw [if_pos own] at ends
            exact ⟨[], wrapper, outer, rfl, (Option.some.inj ends).symm⟩
          · rw [if_neg own] at ends
            cases ends

theorem NestedAt.map_open {scan : NameScan} {depth : Nat} (within : NestedAt scan depth)
    (word : Option Text) (goesOn : word ≠ none → scan.word ≠ none) :
    NestedAt ⟨scan.wrappers.map (·.after '('), word⟩ (depth + 1) := by
  have deeper (wrapper : Wrapper) : wrapper.after '(' =
      ⟨wrapper.kind, wrapper.depth + 1, wrapper.closed⟩ := by
    simp [Wrapper.after, parenDepthAfter]
  simp only [deeper]
  constructor
  · intro front wrapper member
    obtain ⟨before, earlier, rfl⟩ := List.mem_map.mp member
    exact within.front (goesOn front) before earlier
  · rw [List.pairwise_map]
    exact within.nested.imp fun less first second => Nat.succ_lt_succ (less first second)
  · intro wrapper member opened
    obtain ⟨before, earlier, rfl⟩ := List.mem_map.mp member
    exact Nat.succ_lt_succ (within.below before earlier opened)

theorem NestedAt.map_close {scan : NameScan} {depth : Nat} (within : NestedAt scan depth) :
    NestedAt ⟨scan.wrappers.map (·.after ')'), none⟩ (depth - 1) := by
  have shallower (wrapper : Wrapper) : wrapper.after ')' =
      ⟨wrapper.kind, wrapper.depth - 1, wrapper.closed || wrapper.depth == 0⟩ := by
    simp [Wrapper.after, parenDepthAfter]
  simp only [shallower]
  constructor
  · intro front
    exact absurd rfl front
  · rw [List.pairwise_map]
    apply within.nested.imp
    intro inner outer less first second
    simp only [Bool.or_eq_false_iff, beq_eq_false_iff_ne] at first second
    have := less first.1 second.1
    dsimp only
    omega
  · intro wrapper member opened
    obtain ⟨before, earlier, rfl⟩ := List.mem_map.mp member
    simp only [Bool.or_eq_false_iff, beq_eq_false_iff_ne] at opened
    have := within.below before earlier opened.1
    dsimp only
    omega

/-- One character keeps the wrappers nested, as long as it begins no argument past a closed
parenthesis. -/
theorem NestedAt.after {scan : NameScan} {depth : Nat} {char : Char} {rest : Text}
    (within : NestedAt scan depth) (keeps : ¬PassesClosed scan (char :: rest)) :
    NestedAt (scan.after char) (parenDepthAfter depth char) := by
  by_cases opens : char = '('
  · subst opens
    rw [NameScan.after, if_pos rfl, parenDepthAfter, if_pos rfl]
    cases word : scan.word with
    | none => exact within.map_open none fun some => absurd rfl some
    | some front =>
        have fresh : scan.word ≠ none := by
          rw [word]
          exact Option.some_ne_none front
        rw [Option.bind_some]
        cases wrapperKind front.reverse with
        | none => exact within.map_open none fun some => absurd rfl some
        | some kind =>
            obtain ⟨opened, nested, below⟩ := within.map_open (some []) fun _ => fresh
            constructor
            · intro _ wrapper member
              cases member with
              | head => rfl
              | tail _ member => exact opened (Option.some_ne_none []) wrapper member
            · refine List.pairwise_cons.mpr ⟨fun outer member _ _ => ?_, nested⟩
              obtain ⟨before, _, rfl⟩ := List.mem_map.mp member
              exact Nat.succ_pos before.depth
            · intro wrapper member
              cases member with
              | head => exact fun _ => Nat.succ_pos depth
              | tail _ member => exact below wrapper member
  rw [NameScan.after, if_neg opens]
  by_cases closes : char = ')'
  · subst closes
    rw [if_pos rfl]
    exact within.map_close
  rw [if_neg closes, parenDepthAfter_plain ⟨opens, closes⟩]
  by_cases comma : char = ','
  · subst comma
    rw [if_pos rfl]
    cases ends : endArgument scan.wrappers with
    | none => exact ⟨fun some => absurd rfl some, within.nested, within.below⟩
    | some wrappers =>
        have opened : ∀ wrapper ∈ wrappers, wrapper.closed = false := by
          intro wrapper member
          cases closed : wrapper.closed with
          | false => rfl
          | true => exact absurd ⟨[], rest, wrappers, rfl, ends, wrapper, member, closed⟩ keeps
        obtain ⟨inner, wrapper, outer, split, rfl⟩ := endArgument_eq ends
        obtain ⟨_, nested, below⟩ := within
        rw [split] at nested below
        refine ⟨fun _ => opened, ?_, ?_⟩
        · have kept := List.pairwise_cons.mp (List.pairwise_append.mp nested).2.1
          exact List.pairwise_cons.mpr kept
        · intro other member
          cases member with
          | head => exact below wrapper (List.mem_append_right _ List.mem_cons_self)
          | tail _ member =>
              exact below other (List.mem_append_right _ (List.mem_cons_of_mem _ member))
  · rw [if_neg comma]
    refine ⟨fun front => within.front fun none => front ?_, within.nested, within.below⟩
    rw [none]
    rfl

/-- Only an opening parenthesis at the end of a word adds a wrapper. -/
theorem length_after_le {scan : NameScan} {char : Char}
    (adds : ¬(char = '(' ∧ scan.word ≠ none)) :
    (scan.after char).wrappers.length ≤ scan.wrappers.length := by
  by_cases opens : char = '('
  · have none : scan.word = none := by
      by_contra front
      exact adds ⟨opens, front⟩
    rw [NameScan.after, if_pos opens, none, Option.bind_none, List.length_map]
  rw [NameScan.after, if_neg opens]
  by_cases closes : char = ')'
  · rw [if_pos closes, List.length_map]
  rw [if_neg closes]
  by_cases comma : char = ','
  · rw [if_pos comma]
    cases ends : endArgument scan.wrappers with
    | none => exact Nat.le_refl _
    | some wrappers =>
        obtain ⟨inner, wrapper, outer, split, rfl⟩ := endArgument_eq ends
        rw [split, List.length_append]
        exact Nat.le_add_left _ _
  · rw [if_neg comma]

theorem mostOpenFrom_le {scan : NameScan} {depth deepest : Nat} {text : Text}
    (within : NestedAt scan depth) (few : scan.wrappers.length ≤ deepest)
    (keeps : ¬PassesClosed scan text) :
    mostOpenFrom scan text ≤ maxParenDepthFrom depth deepest text := by
  induction text generalizing scan depth deepest with
  | nil => exact few
  | cons char rest ih =>
      have next : (scan.after char).wrappers.length ≤
          max deepest (parenDepthAfter depth char) := by
        by_cases adds : char = '(' ∧ scan.word ≠ none
        · obtain ⟨rfl, front⟩ := adds
          have length := within.length_le front
          have grown : (scan.after '(').wrappers.length ≤ scan.wrappers.length + 1 := by
            rw [NameScan.after, if_pos rfl]
            split
            · rw [List.length_cons, List.length_map]
            · rw [List.length_map]
              exact Nat.le_succ _
          have deeper : parenDepthAfter depth '(' = depth + 1 := if_pos rfl
          omega
        · exact Nat.le_trans (length_after_le adds) (Nat.le_trans few (Nat.le_max_left _ _))
      have later := ih (within.after keeps) next fun passes => keeps passes.cons
      have here := le_maxParenDepthFrom (parenDepthAfter depth char)
        (max deepest (parenDepthAfter depth char)) rest
      exact Nat.max_le.mpr
        ⟨Nat.le_trans few (Nat.le_trans (Nat.le_max_left _ _) here), later⟩

/-- A name has more wrappers open than parentheses only if an argument begins in it past the
closed parenthesis of a wrapper around it. -/
theorem passesClosed_of_lt {name : Text} (more : maxParenDepth name < mostWrappersOpen name) :
    PassesClosed .start name := by
  by_contra keeps
  have within : NestedAt .start 0 := by
    constructor
    · intro _ wrapper member
      cases member
    · exact List.Pairwise.nil
    · intro wrapper member
      cases member
  exact absurd (mostOpenFrom_le within (Nat.le_refl 0) keeps) (Nat.not_le.mpr more)

end DfeClickhouse.Native
