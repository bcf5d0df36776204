import DfeClickhouse.Library.Bytes

/-!
# JSON texts

The JSON grammar as a machine that reads a text character by character.  Its
stack holds the arrays and objects that are open.  What the machine does inside a
value does not depend on what is open around it, so valid documents may stand
wherever a value may.
-/

namespace DfeClickhouse.Library.Json

/-! ## The machine -/

/-- What is open around the current position. -/
inductive Nesting
  | array
  | object
  deriving DecidableEq, Repr

/-- What the machine is about to read. -/
inductive Mode
  /-- A value, or the end of an array that has no elements yet. -/
  | value (mayClose : Bool)
  /-- A key, or the end of an object that has no entries yet. -/
  | key (mayClose : Bool)
  /-- The colon after a key. -/
  | colon
  /-- What follows a value. -/
  | after
  /-- The inside of a string. -/
  | string (isKey : Bool)
  /-- The character after a backslash. -/
  | escape (isKey : Bool)
  /-- The missing digits of a `\u` escape. -/
  | hex (isKey : Bool) (missing : Nat)
  /-- The rest of `true`, `false` or `null`. -/
  | literal (rest : List Char)
  | minus
  | zero
  | whole
  | point
  | fraction
  | exponent
  | exponentSign
  | exponentDigits
  deriving DecidableEq, Repr

structure State where
  mode : Mode
  nesting : List Nesting
  deriving DecidableEq, Repr

/-- A value may end here. -/
def Mode.ended : Mode → Bool
  | after | zero | whole | fraction | exponentDigits => true
  | _ => false

/-- The `ws` of the grammar. -/
def isSpace (char : Char) : Bool :=
  char == ' ' || char == '\t' || char == '\n' || char == '\r'

def isHex (char : Char) : Bool :=
  char.isDigit || ('a' ≤ char && char ≤ 'f') || ('A' ≤ char && char ≤ 'F')

/-- The first character of a value. -/
def openValue (nesting : List Nesting) (char : Char) : Option State :=
  if char = '"' then some ⟨.string false, nesting⟩
  else if char = '[' then some ⟨.value true, .array :: nesting⟩
  else if char = '\x7b' then some ⟨.key true, .object :: nesting⟩
  else if char = '-' then some ⟨.minus, nesting⟩
  else if char = '0' then some ⟨.zero, nesting⟩
  else if char.isDigit then some ⟨.whole, nesting⟩
  else if char = 't' then some ⟨.literal ['r', 'u', 'e'], nesting⟩
  else if char = 'f' then some ⟨.literal ['a', 'l', 's', 'e'], nesting⟩
  else if char = 'n' then some ⟨.literal ['u', 'l', 'l'], nesting⟩
  else none

/-- The closing bracket of what is open innermost. -/
def close : List Nesting → Char → Option State
  | .array :: outer, ']' => some ⟨.after, outer⟩
  | .object :: outer, '\x7d' => some ⟨.after, outer⟩
  | _, _ => none

/-- A character after a value. -/
def afterValue (nesting : List Nesting) (char : Char) : Option State :=
  if isSpace char then some ⟨.after, nesting⟩
  else if char = ',' then
    match nesting with
    | .array :: _ => some ⟨.value false, nesting⟩
    | .object :: _ => some ⟨.key false, nesting⟩
    | [] => none
  else close nesting char

/-- A character inside a number: a digit keeps the machine in `digits`, any other
one ends the value. -/
def inDigits (digits : Mode) (nesting : List Nesting) (char : Char) : Option State :=
  if char.isDigit then some ⟨digits, nesting⟩ else afterValue nesting char

/-- Read one character. -/
def step : State → Char → Option State
  | ⟨.value mayClose, nesting⟩, char =>
      if isSpace char then some ⟨.value mayClose, nesting⟩
      else if mayClose ∧ char = ']' then close nesting char
      else openValue nesting char
  | ⟨.key mayClose, nesting⟩, char =>
      if isSpace char then some ⟨.key mayClose, nesting⟩
      else if mayClose ∧ char = '\x7d' then close nesting char
      else if char = '"' then some ⟨.string true, nesting⟩
      else none
  | ⟨.colon, nesting⟩, char =>
      if isSpace char then some ⟨.colon, nesting⟩
      else if char = ':' then some ⟨.value false, nesting⟩
      else none
  | ⟨.after, nesting⟩, char => afterValue nesting char
  | ⟨.string isKey, nesting⟩, char =>
      if char = '"' then some ⟨if isKey then .colon else .after, nesting⟩
      else if char = '\\' then some ⟨.escape isKey, nesting⟩
      else if char.toNat < 0x20 then none
      else some ⟨.string isKey, nesting⟩
  | ⟨.escape isKey, nesting⟩, char =>
      if char = 'u' then some ⟨.hex isKey 3, nesting⟩
      else if char ∈ ['"', '\\', '/', 'b', 'f', 'n', 'r', 't'] then some ⟨.string isKey, nesting⟩
      else none
  | ⟨.hex isKey missing, nesting⟩, char =>
      if isHex char then
        some ⟨if missing = 0 then .string isKey else .hex isKey (missing - 1), nesting⟩
      else none
  | ⟨.literal [], _⟩, _ => none
  | ⟨.literal (expected :: rest), nesting⟩, char =>
      if char = expected then some ⟨if rest = [] then .after else .literal rest, nesting⟩
      else none
  | ⟨.minus, nesting⟩, char =>
      if char = '0' then some ⟨.zero, nesting⟩
      else if char.isDigit then some ⟨.whole, nesting⟩
      else none
  | ⟨.zero, nesting⟩, char =>
      if char = '.' then some ⟨.point, nesting⟩
      else if char = 'e' ∨ char = 'E' then some ⟨.exponent, nesting⟩
      else afterValue nesting char
  | ⟨.whole, nesting⟩, char =>
      if char = '.' then some ⟨.point, nesting⟩
      else if char = 'e' ∨ char = 'E' then some ⟨.exponent, nesting⟩
      else inDigits .whole nesting char
  | ⟨.point, nesting⟩, char =>
      if char.isDigit then some ⟨.fraction, nesting⟩ else none
  | ⟨.fraction, nesting⟩, char =>
      if char = 'e' ∨ char = 'E' then some ⟨.exponent, nesting⟩
      else inDigits .fraction nesting char
  | ⟨.exponent, nesting⟩, char =>
      if char = '+' ∨ char = '-' then some ⟨.exponentSign, nesting⟩
      else if char.isDigit then some ⟨.exponentDigits, nesting⟩
      else none
  | ⟨.exponentSign, nesting⟩, char =>
      if char.isDigit then some ⟨.exponentDigits, nesting⟩ else none
  | ⟨.exponentDigits, nesting⟩, char => inDigits .exponentDigits nesting char

/-- Read a text. -/
def run : State → List Char → Option State
  | state, [] => some state
  | state, char :: rest => (step state char).bind fun next => run next rest

/-- The text is one value between white space. -/
def isDocument (text : List Char) : Bool :=
  match run ⟨.value false, []⟩ text with
  | some ⟨mode, []⟩ => mode.ended
  | _ => false

/-- The bytes are the UTF-8 form of a JSON text. -/
def validJson (bytes : Bytes) : Bool :=
  match fromUtf8 bytes with
  | some text => isDocument text.toList
  | none => false

/-! ## Runs -/

@[simp] theorem run_nil (state : State) : run state [] = some state := rfl

theorem run_cons (state : State) (char : Char) (rest : List Char) :
    run state (char :: rest) = (step state char).bind fun next => run next rest := rfl

theorem run_append (state : State) (front back : List Char) :
    run state (front ++ back) = (run state front).bind fun middle => run middle back := by
  induction front generalizing state with
  | nil => rfl
  | cons char front ih =>
      rw [List.cons_append, run_cons, run_cons, Option.bind_assoc]
      congr 1
      funext next
      exact ih next

theorem run_append_of_some {state middle : State} {front : List Char}
    (reads : run state front = some middle) (back : List Char) :
    run state (front ++ back) = run middle back := by
  rw [run_append, reads, Option.bind_some]

theorem run_append_of_none {state : State} {front : List Char} (fails : run state front = none)
    (back : List Char) : run state (front ++ back) = none := by
  rw [run_append, fails, Option.bind_none]

/-! ## Frames -/

/-- The state with more open around it. -/
def State.within (state : State) (outer : List Nesting) : State :=
  ⟨state.mode, state.nesting ++ outer⟩

theorem openValue_within {nesting : List Nesting} {char : Char} {next : State}
    (opens : openValue nesting char = some next) (outer : List Nesting) :
    openValue (nesting ++ outer) char = some (next.within outer) := by
  unfold openValue at opens ⊢
  repeat' split at opens
  all_goals cases opens
  all_goals simp_all [State.within]

theorem close_within {nesting : List Nesting} {char : Char} {next : State}
    (closes : close nesting char = some next) (outer : List Nesting) :
    close (nesting ++ outer) char = some (next.within outer) := by
  unfold close at closes
  split at closes
  all_goals cases closes
  all_goals rfl

theorem afterValue_within {nesting : List Nesting} {char : Char} {next : State}
    (follows : afterValue nesting char = some next) (outer : List Nesting) :
    afterValue (nesting ++ outer) char = some (next.within outer) := by
  unfold afterValue at follows ⊢
  split at follows
  · rename_i space
    cases follows
    rw [if_pos space]
    rfl
  · rename_i visible
    rw [if_neg visible]
    split at follows
    · rename_i comma
      rw [if_pos comma]
      split at follows
      all_goals cases follows
      all_goals rfl
    · rename_i other
      rw [if_neg other]
      exact close_within follows outer

theorem inDigits_within {digits : Mode} {nesting : List Nesting} {char : Char} {next : State}
    (reads : inDigits digits nesting char = some next) (outer : List Nesting) :
    inDigits digits (nesting ++ outer) char = some (next.within outer) := by
  unfold inDigits at reads ⊢
  split at reads
  · rename_i digit
    cases reads
    rw [if_pos digit]
    rfl
  · rename_i other
    rw [if_neg other]
    exact afterValue_within reads outer

/-- A step does not look below what it needs of the stack. -/
theorem step_within {state next : State} {char : Char} (steps : step state char = some next)
    (outer : List Nesting) : step (state.within outer) char = some (next.within outer) := by
  have opens := fun nesting next => @openValue_within nesting char next
  have closes := fun nesting next => @close_within nesting char next
  have follows := fun nesting next => @afterValue_within nesting char next
  have digits := fun digits nesting next => @inDigits_within digits nesting char next
  obtain ⟨mode, nesting⟩ := state
  cases mode with
  | literal rest =>
      cases rest with
      | nil => cases steps
      | cons expected rest =>
          simp only [State.within, step] at steps ⊢
          grind
  | _ =>
      simp only [State.within, step] at steps ⊢
      grind [State.within]

theorem run_within {state stop : State} {text : List Char} (reads : run state text = some stop)
    (outer : List Nesting) : run (state.within outer) text = some (stop.within outer) := by
  induction text generalizing state with
  | nil =>
      cases reads
      rfl
  | cons char rest ih =>
      rw [run_cons] at reads ⊢
      obtain ⟨next, steps, later⟩ := Option.bind_eq_some_iff.mp reads
      rw [step_within steps, Option.bind_some]
      exact ih later

/-! ## Values -/

/-- The text is read as one value wherever a value may stand. -/
def IsValue (text : List Char) : Prop :=
  ∀ mayClose nesting, ∃ stop : Mode, stop.ended = true ∧
    run ⟨.value mayClose, nesting⟩ text = some ⟨stop, nesting⟩

/-- Reading the text fails wherever a value may stand. -/
def NoValue (text : List Char) : Prop :=
  ∀ mayClose nesting, run ⟨.value mayClose, nesting⟩ text = none

/-- The first character of a text that is not white space. -/
def firstVisible (text : List Char) : Option Char :=
  text.find? fun char => !isSpace char

/-- White space before a value or a key is passed over. -/
theorem run_spaces {mode : Mode} {mayClose : Bool}
    (waits : mode = .value mayClose ∨ mode = .key mayClose) {spaces : List Char}
    (blank : ∀ char ∈ spaces, isSpace char = true) (nesting : List Nesting) :
    run ⟨mode, nesting⟩ spaces = some ⟨mode, nesting⟩ := by
  induction spaces with
  | nil => rfl
  | cons char rest ih =>
      have space : isSpace char = true := blank char (by simp)
      have stays : step ⟨mode, nesting⟩ char = some ⟨mode, nesting⟩ := by
        rcases waits with rfl | rfl
        all_goals simp only [step, space, if_true]
      rw [run_cons, stays, Option.bind_some]
      exact ih fun char member => blank char (by simp [member])

theorem exists_spaces {text : List Char} {first : Char} (opens : firstVisible text = some first) :
    isSpace first = false ∧ ∃ spaces rest, text = spaces ++ first :: rest ∧
      ∀ char ∈ spaces, isSpace char = true := by
  obtain ⟨visible, spaces, rest, split, blank⟩ := List.find?_eq_some_iff_append.mp opens
  refine ⟨by simpa using visible, spaces, rest, split, ?_⟩
  intro char member
  simpa using blank char member

/-- A value has a first character. -/
theorem exists_firstVisible {mayClose : Bool} {nesting : List Nesting} {text : List Char}
    {stop : State} (reads : run ⟨.value mayClose, nesting⟩ text = some stop)
    (ended : stop.mode.ended = true) : ∃ first, firstVisible text = some first := by
  cases opens : firstVisible text with
  | some first => exact ⟨first, rfl⟩
  | none =>
      have blank : ∀ char ∈ text, isSpace char = true := by
        intro char member
        simpa using List.find?_eq_none.mp opens char member
      rw [run_spaces (.inl rfl) blank] at reads
      cases reads
      cases ended

/-- A value may stand where the array could also end. -/
theorem run_mayClose {nesting : List Nesting} {text : List Char} {stop : State}
    (reads : run ⟨.value false, nesting⟩ text = some stop) (ended : stop.mode.ended = true) :
    run ⟨.value true, nesting⟩ text = some stop := by
  obtain ⟨first, opens⟩ := exists_firstVisible reads ended
  obtain ⟨visible, spaces, rest, rfl, blank⟩ := exists_spaces opens
  rw [run_append_of_some (run_spaces (.inl rfl) blank _), run_cons] at reads ⊢
  by_cases closes : first = ']'
  · subst closes
    cases reads
  · simp only [step, visible, closes, and_false, if_false, Bool.false_eq_true] at reads ⊢
    exact reads

theorem isValue_iff_isDocument {text : List Char} : IsValue text ↔ isDocument text = true := by
  constructor
  · intro value
    obtain ⟨stop, ended, reads⟩ := value false []
    rw [isDocument, reads]
    exact ended
  · intro document mayClose nesting
    unfold isDocument at document
    split at document
    · rename_i stop reads
      have inside : run ⟨.value false, nesting⟩ text = some ⟨stop, nesting⟩ :=
        run_within reads nesting
      refine ⟨stop, document, ?_⟩
      cases mayClose with
      | false => exact inside
      | true => exact run_mayClose inside document
    · cases document

example : isDocument " [1.5e-3, \x7b\"a\\u00e9\": [null, true]\x7d, \"é\"] ".toList = true := by
  decide

example : isDocument "[01]".toList = false := by decide

theorem not_isDocument_of_noValue {text : List Char} (fails : NoValue text) :
    isDocument text = false := by
  rw [isDocument, fails false []]

/-- A character after a value ends the value, if it does not continue a number. -/
theorem step_ended {mode : Mode} (ended : mode.ended = true) {char : Char}
    (delimiter : char ∈ [',', ']', '\x7d']) (nesting : List Nesting) :
    step ⟨mode, nesting⟩ char = afterValue nesting char := by
  simp only [List.mem_cons, List.not_mem_nil, or_false] at delimiter
  cases mode
  all_goals first
    | cases ended
      done
    | rcases delimiter with rfl | rfl | rfl
      all_goals rfl

/-! ## Arrays and objects -/

namespace Nesting

def opening : Nesting → Char
  | array => '['
  | object => '\x7b'

def closing : Nesting → Char
  | array => ']'
  | object => '\x7d'

/-- What an item starts with. -/
def start : Nesting → Bool → Mode
  | array => .value
  | object => .key

theorem step_opening (kind : Nesting) (mayClose : Bool) (nesting : List Nesting) :
    step ⟨.value mayClose, nesting⟩ kind.opening = some ⟨kind.start true, kind :: nesting⟩ := by
  cases kind
  all_goals cases mayClose
  all_goals rfl

theorem step_closing (kind : Nesting) {mode : Mode} (ended : mode.ended = true)
    (outer : List Nesting) : step ⟨mode, kind :: outer⟩ kind.closing = some ⟨.after, outer⟩ := by
  rw [step_ended ended (by cases kind <;> decide)]
  cases kind
  all_goals rfl

theorem step_start_closing (kind : Nesting) (outer : List Nesting) :
    step ⟨kind.start true, kind :: outer⟩ kind.closing = some ⟨.after, outer⟩ := by
  cases kind
  all_goals rfl

theorem step_comma (kind : Nesting) {mode : Mode} (ended : mode.ended = true)
    (outer : List Nesting) :
    step ⟨mode, kind :: outer⟩ ',' = some ⟨kind.start false, kind :: outer⟩ := by
  rw [step_ended ended (by decide)]
  cases kind
  all_goals rfl

/-- The text is read as one item. -/
def IsItem (kind : Nesting) (text : List Char) : Prop :=
  ∀ mayClose outer, ∃ stop : Mode, stop.ended = true ∧
    run ⟨kind.start mayClose, kind :: outer⟩ text = some ⟨stop, kind :: outer⟩

/-- Reading the text as an item fails. -/
def NoItem (kind : Nesting) (text : List Char) : Prop :=
  ∀ mayClose outer, run ⟨kind.start mayClose, kind :: outer⟩ text = none

/-- Items between brackets. -/
def bracket (kind : Nesting) (items : List (List Char)) : List Char :=
  kind.opening :: ([','].intercalate items ++ [kind.closing])

variable {kind : Nesting}

theorem IsItem.run_comma {item : List Char} (isItem : IsItem kind item) (mayClose : Bool)
    (outer : List Nesting) (rest : List Char) :
    run ⟨kind.start mayClose, kind :: outer⟩ (item ++ ',' :: rest) =
      run ⟨kind.start false, kind :: outer⟩ rest := by
  obtain ⟨stop, ended, reads⟩ := isItem mayClose outer
  rw [run_append_of_some reads, run_cons, step_comma kind ended, Option.bind_some]

theorem isItem_intercalate {first : List Char} {rest : List (List Char)}
    (each : ∀ item ∈ first :: rest, IsItem kind item) :
    IsItem kind ([','].intercalate (first :: rest)) := by
  induction rest generalizing first with
  | nil =>
      rw [List.intercalate_singleton]
      exact each first (by simp)
  | cons second rest ih =>
      intro mayClose outer
      rw [List.intercalate_cons_cons, List.append_assoc]
      rw [List.singleton_append, (each first (by simp)).run_comma]
      exact ih (fun item member => each item (by simp [member])) false outer

theorem noItem_intercalate {items : List (List Char)}
    (each : ∀ item ∈ items, IsItem kind item ∨ NoItem kind item)
    (fails : ∃ item ∈ items, NoItem kind item) : NoItem kind ([','].intercalate items) := by
  induction items with
  | nil => simp at fails
  | cons first rest ih =>
      intro mayClose outer
      by_cases failing : NoItem kind first
      · cases rest with
        | nil =>
            rw [List.intercalate_singleton]
            exact failing mayClose outer
        | cons second rest =>
            rw [List.intercalate_cons_cons, List.append_assoc]
            exact run_append_of_none (failing mayClose outer) _
      · have isItem : IsItem kind first := (each first (by simp)).resolve_right failing
        obtain ⟨item, member, itemFails⟩ := fails
        have later : item ∈ rest := by
          rcases List.mem_cons.mp member with rfl | later
          · exact absurd itemFails failing
          · exact later
        cases rest with
        | nil => cases later
        | cons second rest =>
            rw [List.intercalate_cons_cons, List.append_assoc, List.singleton_append,
              isItem.run_comma]
            exact ih (fun item member => each item (by simp [member])) ⟨item, later, itemFails⟩
              false outer

/-- Items between brackets are a value. -/
theorem isValue_bracket {items : List (List Char)} (each : ∀ item ∈ items, IsItem kind item) :
    IsValue (kind.bracket items) := by
  intro mayClose nesting
  refine ⟨.after, rfl, ?_⟩
  rw [bracket, run_cons, step_opening, Option.bind_some]
  cases items with
  | nil =>
      rw [List.intercalate_nil, List.nil_append, run_cons, step_start_closing]
      rfl
  | cons first rest =>
      obtain ⟨stop, ended, reads⟩ := isItem_intercalate each true nesting
      rw [run_append_of_some reads, run_cons, step_closing kind ended]
      rfl

/-- Brackets around a failing item are no value. -/
theorem noValue_bracket {items : List (List Char)}
    (each : ∀ item ∈ items, IsItem kind item ∨ NoItem kind item)
    (fails : ∃ item ∈ items, NoItem kind item) : NoValue (kind.bracket items) := by
  intro mayClose nesting
  rw [bracket, run_cons, step_opening, Option.bind_some]
  exact run_append_of_none (noItem_intercalate each fails true nesting) _

@[simp] theorem firstVisible_bracket (kind : Nesting) (items : List (List Char)) :
    firstVisible (kind.bracket items) = some kind.opening := by
  cases kind
  all_goals rfl

end Nesting

/-! ## Keys -/

/-- The text is read as one key. -/
def IsKey (text : List Char) : Prop :=
  ∀ mayClose nesting, run ⟨.key mayClose, nesting⟩ text = some ⟨.colon, nesting⟩

/-- The modes inside and after a string, as those of a key. -/
def Mode.asKey : Mode → Option Mode
  | string false => some (.string true)
  | escape false => some (.escape true)
  | hex false missing => some (.hex true missing)
  | after => some .colon
  | _ => none

/-- A string outside of any bracket is read as a key is. -/
theorem step_asKey {mode keyMode : Mode} {char : Char} {next : State}
    (inString : mode.asKey = some keyMode) (steps : step ⟨mode, []⟩ char = some next) :
    next.nesting = [] ∧ ∃ nextKey, next.mode.asKey = some nextKey ∧
      ∀ nesting, step ⟨keyMode, nesting⟩ char = some ⟨nextKey, nesting⟩ := by
  cases mode with
  | string isKey | escape isKey | hex isKey missing =>
      cases isKey
      · cases inString
        simp only [step] at steps ⊢
        grind [Mode.asKey]
      · cases inString
  | after =>
      cases inString
      simp only [step, afterValue, close] at steps ⊢
      grind [Mode.asKey]
  | _ => cases inString

theorem run_asKey {mode keyMode stop : Mode} {text : List Char}
    (inString : mode.asKey = some keyMode) (reads : run ⟨mode, []⟩ text = some ⟨stop, []⟩)
    (ended : stop.ended = true) (nesting : List Nesting) :
    run ⟨keyMode, nesting⟩ text = some ⟨.colon, nesting⟩ := by
  induction text generalizing mode keyMode with
  | nil =>
      cases reads
      have colon : keyMode = .colon := by
        cases stop
        all_goals first
          | cases ended
            done
          | cases inString
            try rfl
      rw [colon, run_nil]
  | cons char rest ih =>
      rw [run_cons] at reads ⊢
      obtain ⟨⟨next, around⟩, steps, later⟩ := Option.bind_eq_some_iff.mp reads
      obtain ⟨rfl, nextKey, nextInString, keySteps⟩ := step_asKey inString steps
      rw [keySteps, Option.bind_some]
      exact ih nextInString later

/-- A value that is a string may stand as a key. -/
theorem isKey_of_quoted {text : List Char} (value : IsValue text)
    (quoted : firstVisible text = some '"') : IsKey text := by
  obtain ⟨stop, ended, reads⟩ := value false []
  obtain ⟨_, spaces, rest, rfl, blank⟩ := exists_spaces quoted
  intro mayClose nesting
  have opens : step ⟨.key mayClose, nesting⟩ '"' = some ⟨.string true, nesting⟩ := by
    cases mayClose
    all_goals rfl
  rw [run_append_of_some (run_spaces (.inl rfl) blank _)] at reads
  have inside : run ⟨.string false, []⟩ rest = some ⟨stop, []⟩ := reads
  rw [run_append_of_some (run_spaces (.inr rfl) blank _), run_cons, opens]
  exact run_asKey rfl inside ended nesting

/-- Reading the text as a key fails. -/
def NoKey (text : List Char) : Prop :=
  ∀ mayClose nesting, run ⟨.key mayClose, nesting⟩ text = none

/-- What does not open with a quote is no key. -/
theorem noKey_of_unquoted {text : List Char} {first : Char}
    (opens : firstVisible text = some first) (unquoted : first ≠ '"')
    (inside : first ≠ '\x7d') : NoKey text := by
  obtain ⟨visible, spaces, rest, rfl, blank⟩ := exists_spaces opens
  intro mayClose nesting
  rw [run_append_of_some (run_spaces (.inr rfl) blank _), run_cons]
  simp [step, visible, unquoted, inside]

/-- A value does not open with a closing brace. -/
theorem IsValue.exists_first {text : List Char} (value : IsValue text) :
    ∃ first, firstVisible text = some first ∧ first ≠ '\x7d' := by
  obtain ⟨stop, ended, reads⟩ := value false []
  obtain ⟨first, opens⟩ := exists_firstVisible reads ended
  obtain ⟨_, spaces, rest, rfl, blank⟩ := exists_spaces opens
  refine ⟨first, opens, ?_⟩
  rintro rfl
  rw [run_append_of_some (run_spaces (.inl rfl) blank _)] at reads
  cases reads

/-! ## Items -/

theorem isItem_element {text : List Char} (value : IsValue text) :
    Nesting.IsItem .array text := by
  intro mayClose outer
  exact value mayClose (.array :: outer)

theorem noItem_element {text : List Char} (fails : NoValue text) :
    Nesting.NoItem .array text := by
  intro mayClose outer
  exact fails mayClose (.array :: outer)

/-- One entry of an object. -/
def entry (key value : List Char) : List Char := key ++ ':' :: value

theorem IsKey.run_entry {key : List Char} (isKey : IsKey key) (mayClose : Bool)
    (nesting : List Nesting) (value : List Char) :
    run ⟨.key mayClose, nesting⟩ (entry key value) = run ⟨.value false, nesting⟩ value := by
  rw [entry, run_append_of_some (isKey mayClose nesting)]
  rfl

theorem isItem_entry {key value : List Char} (isKey : IsKey key) (isValue : IsValue value) :
    Nesting.IsItem .object (entry key value) := by
  intro mayClose outer
  rw [Nesting.start, isKey.run_entry]
  exact isValue false (.object :: outer)

theorem noItem_of_noKey {key : List Char} (fails : NoKey key) (value : List Char) :
    Nesting.NoItem .object (entry key value) := by
  intro mayClose outer
  exact run_append_of_none (fails mayClose _) _

theorem noItem_of_noValue {key value : List Char} (isKey : IsKey key) (fails : NoValue value) :
    Nesting.NoItem .object (entry key value) := by
  intro mayClose outer
  rw [Nesting.start, isKey.run_entry]
  exact fails false (.object :: outer)

/-! ## Strings -/

/-- Inside a string the text is read to the same place. -/
def StaysInString (text : List Char) : Prop :=
  run ⟨.string false, []⟩ text = some ⟨.string false, []⟩

instance (text : List Char) : Decidable (StaysInString text) :=
  inferInstanceAs (Decidable (run _ text = _))

theorem staysInString_flatMap {α : Type} {items : List α} {text : α → List Char}
    (each : ∀ item ∈ items, StaysInString (text item)) : StaysInString (items.flatMap text) := by
  induction items with
  | nil => rfl
  | cons item items ih =>
      have first : StaysInString (text item) := each item (by simp)
      rw [StaysInString, List.flatMap_cons, run_append_of_some first]
      exact ih fun item member => each item (by simp [member])

theorem staysInString_plain {char : Char} (quote : char ≠ '"') (backslash : char ≠ '\\')
    (printable : 0x20 ≤ char.toNat) : StaysInString [char] := by
  have visible : ¬ char.toNat < 0x20 := by omega
  simp [StaysInString, run_cons, step, quote, backslash, visible]

theorem isValue_quoted {text : List Char} (inside : StaysInString text) :
    IsValue ('"' :: (text ++ ['"'])) := by
  apply isValue_iff_isDocument.mpr
  have opened : run ⟨.value false, []⟩ ('"' :: (text ++ ['"'])) =
      run ⟨.string false, []⟩ (text ++ ['"']) := rfl
  rw [isDocument, opened, run_append_of_some inside]
  rfl

/-! ## Numbers -/

theorem mem_digits {char : Char} (digit : char.isDigit = true) :
    char ∈ ['0', '1', '2', '3', '4', '5', '6', '7', '8', '9'] := by
  have bounds : 48 ≤ char.toNat ∧ char.toNat ≤ 57 := by
    rw [Char.isDigit, Bool.and_eq_true, decide_eq_true_eq, decide_eq_true_eq] at digit
    exact digit
  have listed : ∀ code, 48 ≤ code → code ≤ 57 →
      Char.ofNat code ∈ ['0', '1', '2', '3', '4', '5', '6', '7', '8', '9'] := by
    intro code least greatest
    interval_cases code
    all_goals decide
  rw [← Char.ofNat_toNat char]
  exact listed char.toNat bounds.1 bounds.2

/-- The digits of a whole number, without leading zeros. -/
def IsWhole (digits : List Char) : Prop :=
  digits = ['0'] ∨ ∃ first rest, digits = first :: rest ∧ first ≠ '0' ∧
    ∀ char ∈ digits, char.isDigit = true

theorem step_digit {mode : Mode} (digits : mode = .whole ∨ mode = .fraction) {char : Char}
    (digit : char.isDigit = true) (nesting : List Nesting) :
    step ⟨mode, nesting⟩ char = some ⟨mode, nesting⟩ := by
  have listed := mem_digits digit
  simp only [List.mem_cons, List.not_mem_nil, or_false] at listed
  rcases digits with rfl | rfl
  all_goals
    rcases listed with rfl | rfl | rfl | rfl | rfl | rfl | rfl | rfl | rfl | rfl
    all_goals rfl

theorem run_digits {mode : Mode} (digits : mode = .whole ∨ mode = .fraction) {text : List Char}
    (each : ∀ char ∈ text, char.isDigit = true) (nesting : List Nesting) :
    run ⟨mode, nesting⟩ text = some ⟨mode, nesting⟩ := by
  induction text with
  | nil => rfl
  | cons char rest ih =>
      rw [run_cons, step_digit digits (each char (by simp)), Option.bind_some]
      exact ih fun char member => each char (by simp [member])

/-- The first digit of a number that does not begin with a zero. -/
theorem step_first {mode : Mode} (start : mode = .value false ∨ mode = .minus) {first : Char}
    (digit : first.isDigit = true) (nonzero : first ≠ '0') (nesting : List Nesting) :
    step ⟨mode, nesting⟩ first = some ⟨.whole, nesting⟩ := by
  have listed := List.mem_of_ne_of_mem nonzero (mem_digits digit)
  simp only [List.mem_cons, List.not_mem_nil, or_false] at listed
  rcases start with rfl | rfl
  all_goals
    rcases listed with rfl | rfl | rfl | rfl | rfl | rfl | rfl | rfl | rfl
    all_goals rfl

theorem run_whole {mode : Mode} (start : mode = .value false ∨ mode = .minus)
    {digits : List Char} (isWhole : IsWhole digits) (nesting : List Nesting) :
    ∃ stop, (stop = .zero ∨ stop = .whole) ∧ run ⟨mode, nesting⟩ digits = some ⟨stop, nesting⟩ := by
  rcases isWhole with rfl | ⟨first, rest, rfl, nonzero, each⟩
  · refine ⟨.zero, .inl rfl, ?_⟩
    rcases start with rfl | rfl
    all_goals rfl
  · refine ⟨.whole, .inr rfl, ?_⟩
    rw [run_cons, step_first start (each first (by simp)) nonzero, Option.bind_some]
    exact run_digits (.inl rfl) (fun char member => each char (by simp [member])) nesting

/-- The fraction of a number, if it has one. -/
def IsFraction (text : List Char) : Prop :=
  text = [] ∨ ∃ digits, text = '.' :: digits ∧ digits ≠ [] ∧ ∀ char ∈ digits, char.isDigit = true

theorem run_fraction {mode : Mode} (start : mode = .zero ∨ mode = .whole) {text : List Char}
    (isFraction : IsFraction text) (nesting : List Nesting) :
    ∃ stop : Mode, stop.ended = true ∧ run ⟨mode, nesting⟩ text = some ⟨stop, nesting⟩ := by
  rcases isFraction with rfl | ⟨digits, rfl, nonempty, each⟩
  · refine ⟨mode, ?_, rfl⟩
    rcases start with rfl | rfl
    all_goals rfl
  · refine ⟨.fraction, rfl, ?_⟩
    have opens : step ⟨mode, nesting⟩ '.' = some ⟨.point, nesting⟩ := by
      rcases start with rfl | rfl
      all_goals rfl
    cases digits with
    | nil => exact absurd rfl nonempty
    | cons first rest =>
        have digit : first.isDigit = true := each first (by simp)
        have begins : step ⟨.point, nesting⟩ first = some ⟨.fraction, nesting⟩ := by
          simp [step, digit]
        rw [run_cons, opens, Option.bind_some, run_cons, begins, Option.bind_some]
        exact run_digits (.inr rfl) (fun char member => each char (by simp [member])) nesting

/-- A number without an exponent. -/
theorem isValue_number {sign whole fraction : List Char} (signed : sign = [] ∨ sign = ['-'])
    (isWhole : IsWhole whole) (isFraction : IsFraction fraction) :
    IsValue (sign ++ (whole ++ fraction)) := by
  have begins : ∃ mode, (mode = .value false ∨ mode = .minus) ∧
      run ⟨.value false, []⟩ sign = some ⟨mode, []⟩ := by
    rcases signed with rfl | rfl
    · exact ⟨.value false, .inl rfl, rfl⟩
    · exact ⟨.minus, .inr rfl, rfl⟩
  obtain ⟨mode, start, readsSign⟩ := begins
  obtain ⟨middle, wholeStop, readsWhole⟩ := run_whole start isWhole []
  obtain ⟨stop, ended, readsFraction⟩ := run_fraction wholeStop isFraction []
  apply isValue_iff_isDocument.mpr
  rw [isDocument, run_append_of_some readsSign, run_append_of_some readsWhole, readsFraction]
  exact ended

theorem firstVisible_number {sign whole : List Char} (signed : sign = [] ∨ sign = ['-'])
    (isWhole : IsWhole whole) (fraction : List Char) :
    ∃ first, firstVisible (sign ++ (whole ++ fraction)) = some first ∧
      first ≠ '"' ∧ first ≠ '\x7d' := by
  rcases signed with rfl | rfl
  · rcases isWhole with rfl | ⟨first, rest, rfl, _, each⟩
    · exact ⟨'0', rfl, by decide, by decide⟩
    · have listed := mem_digits (each first (by simp))
      simp only [List.mem_cons, List.not_mem_nil, or_false] at listed
      refine ⟨first, ?_⟩
      rcases listed with rfl | rfl | rfl | rfl | rfl | rfl | rfl | rfl | rfl | rfl
      all_goals exact ⟨rfl, by decide, by decide⟩
  · exact ⟨'-', rfl, by decide, by decide⟩

/-- A positive number does not begin with a zero. -/
theorem exists_toDigits_cons {value : Nat} (positive : 0 < value) :
    ∃ first rest, Nat.toDigits 10 value = first :: rest ∧ first ≠ '0' := by
  induction value using Nat.strong_induction_on with
  | _ value ih =>
      by_cases small : value < 10
      · rw [Nat.toDigits_of_lt_base small]
        refine ⟨_, [], rfl, ?_⟩
        interval_cases value
        all_goals decide
      · rw [Nat.toDigits_of_base_le (by decide) (by omega)]
        obtain ⟨first, rest, split, nonzero⟩ := ih (value / 10) (by omega) (by omega)
        exact ⟨first, rest ++ _, by rw [split, List.cons_append], nonzero⟩

theorem isWhole_toDigits (value : Nat) : IsWhole (Nat.toDigits 10 value) := by
  by_cases positive : 0 < value
  · obtain ⟨first, rest, split, nonzero⟩ := exists_toDigits_cons positive
    exact .inr ⟨first, rest, split, nonzero, fun char member =>
      Nat.isDigit_of_mem_toDigits (by decide) (by decide) member⟩
  · obtain rfl : value = 0 := by omega
    exact .inl rfl

end DfeClickhouse.Library.Json
