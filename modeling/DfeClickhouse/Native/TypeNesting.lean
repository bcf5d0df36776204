import DfeClickhouse.Native.TypeName

/-!
# The nesting guard of the type-name parser

The parser refuses a text whose parenthesis depth exceeds the cap and takes that
depth as a bound on its own recursion.  The recursion is measured here by the
nested calls the parser makes, and compared with the guard.
-/

namespace DfeClickhouse.Native

open Library

theorem length_of_stripOuter {text inner : Text} {name : String}
    (stripped : stripOuter text name = some inner) : inner.length < text.length := by
  simp only [stripOuter, Option.bind_eq_bind, Option.bind_eq_some_iff,
    List.dropPrefix?_eq_some_iff, List.dropSuffix?_eq_some_iff] at stripped
  obtain ⟨rest, ⟨_, rfl, _⟩, body, ⟨opening, rfl, isOpening⟩, closing, rfl, _⟩ := stripped
  obtain rfl : opening = ['('] := eq_of_beq isOpening
  simp only [List.length_append, List.length_cons]
  omega

theorem length_of_mem_splitTypeArgsFrom {depth : Nat} {current text argument : Text}
    (member : argument ∈ splitTypeArgsFrom depth current text) :
    argument.length ≤ current.length + text.length := by
  induction text generalizing depth current with
  | nil =>
      simp only [splitTypeArgsFrom] at member
      split at member
      · simp at member
      · obtain rfl := List.mem_singleton.mp member
        have := length_trim_le current.reverse
        simpa using this
  | cons char rest ih =>
      simp only [splitTypeArgsFrom] at member
      simp only [List.length_cons]
      split at member
      · rcases List.mem_cons.mp member with rfl | later
        · have := length_trim_le current.reverse
          rw [List.length_reverse] at this
          omega
        · have := ih later
          simp only [List.length_nil] at this
          omega
      · have := ih member
        simp only [List.length_cons] at this
        omega

theorem length_of_mem_splitTypeArgs {text argument : Text}
    (member : argument ∈ splitTypeArgs text) : argument.length ≤ text.length := by
  have := length_of_mem_splitTypeArgsFrom member
  simpa using this

theorem length_of_simpleAggregateArgument {text inner : Text}
    (found : simpleAggregateArgument text = some inner) : inner.length < text.length := by
  simp only [simpleAggregateArgument, Option.bind_eq_bind, Option.bind_eq_some_iff,
    List.dropPrefix?_eq_some_iff, Option.pure_def, Option.some.injEq] at found
  obtain ⟨rest, ⟨opening, rfl, isOpening⟩, comma, _, rfl⟩ := found
  obtain rfl : opening = "SimpleAggregateFunction(".toList := eq_of_beq isOpening
  have trimmed : (trim (rest.drop (comma + 1))).length ≤ rest.length := by
    have := length_trim_le (rest.drop (comma + 1))
    rw [List.length_drop] at this
    omega
  have positive : 0 < "SimpleAggregateFunction(".toList.length := by decide
  rw [List.length_append]
  cases closed : (trim (rest.drop (comma + 1))).dropSuffix? [')'] with
  | none =>
      rw [Option.getD_none]
      omega
  | some body =>
      obtain ⟨tail, same, _⟩ := List.dropSuffix?_eq_some_iff.mp closed
      rw [same, List.length_append] at trimmed
      rw [Option.getD_some]
      omega

/-- What every branch of the parser guarantees about its argument texts and
about the nesting of the type it builds. -/
def TypeForm.Cuts (text : Text) : TypeForm → Prop
  | done result => ∀ columnType, result = some columnType → columnType.nesting = 0
  | wrapped build inner =>
      inner.length < text.length ∧
        ∀ columnType, (build columnType).nesting = columnType.nesting + 1
  | listed build arguments =>
      (∀ argument ∈ arguments, argument.length < text.length) ∧
        ∀ fields, (build fields).nesting = ColumnType.nestingList fields + 1
  | keyed key value => key.length < text.length ∧ value.length < text.length

theorem nesting_of_scalarType {text : Text} {columnType : ColumnType}
    (found : scalarType text = some columnType) : columnType.nesting = 0 := by
  unfold scalarType at found
  obtain ⟨entry, search, rfl⟩ := Option.map_eq_some_iff.mp found
  have flat : ∀ entry ∈ scalarTypes, entry.2.nesting = 0 := by
    simp [scalarTypes, ColumnType.nesting]
  exact flat entry (List.mem_of_find?_eq_some search)

theorem nesting_of_decimalType {text : Text} {columnType : ColumnType}
    (found : decimalType text = some columnType) : columnType.nesting = 0 := by
  unfold decimalType at found
  split at found
  · simp only [Option.bind_eq_bind, Option.bind_eq_some_iff, Option.pure_def] at found
    obtain ⟨precision, _, scale, _, found⟩ := found
    split at found
    · obtain rfl := Option.some.inj found
      rfl
    · split at found
      · obtain rfl := Option.some.inj found
        rfl
      · split at found <;> obtain rfl := Option.some.inj found <;> rfl
  · cases found

/-- A branch that ends in a type without arguments. -/
theorem cuts_done {text : Text} {columnType : ColumnType} (flat : columnType.nesting = 0) :
    (TypeForm.done (some columnType)).Cuts text := by
  intro other same
  obtain rfl := Option.some.inj same
  exact flat

theorem cuts_refused (text : Text) : (TypeForm.done none).Cuts text := by
  intro other same
  cases same

theorem cuts_wrapped {text inner : Text} {name : String}
    {build : ColumnType → ColumnType} (stripped : stripOuter text name = some inner)
    (deeper : ∀ columnType, (build columnType).nesting = columnType.nesting + 1) :
    (TypeForm.wrapped build inner).Cuts text :=
  ⟨length_of_stripOuter stripped, deeper⟩

theorem cuts_listed {text arguments : Text} {name : String}
    {build : List ColumnType → ColumnType}
    (stripped : stripOuter text name = some arguments)
    (deeper : ∀ fields, (build fields).nesting = ColumnType.nestingList fields + 1) :
    (TypeForm.listed build (splitTypeArgs arguments)).Cuts text :=
  ⟨fun _ member => Nat.lt_of_le_of_lt (length_of_mem_splitTypeArgs member)
    (length_of_stripOuter stripped), deeper⟩

theorem typeForm_cuts (text : Text) : (typeForm text).Cuts text := by
  unfold typeForm
  split
  · exact cuts_refused text
  split
  · exact cuts_wrapped ‹_› fun _ => by rw [ColumnType.nesting]
  split
  · exact cuts_wrapped ‹_› fun _ => by rw [ColumnType.nesting]
  split
  · intro columnType same
    obtain ⟨width, _, rfl⟩ := Option.map_eq_some_iff.mp same
    rfl
  split
  · exact cuts_done rfl
  split
  · exact cuts_done rfl
  split
  · exact cuts_done rfl
  split
  · exact cuts_done rfl
  split
  · exact cuts_done rfl
  split
  · exact cuts_done rfl
  split
  · exact cuts_done rfl
  split
  · exact fun _ same => nesting_of_decimalType same
  split
  · exact cuts_done rfl
  split
  · exact cuts_done rfl
  split
  · exact cuts_wrapped ‹_› fun _ => by rw [ColumnType.nesting]
  split
  · exact cuts_listed ‹_› fun _ => by rw [ColumnType.nesting]
  split
  · rename_i arguments stripped
    split
    · rename_i key value split
      have shorter : ∀ argument ∈ splitTypeArgs arguments, argument.length < text.length :=
        fun _ member => Nat.lt_of_le_of_lt (length_of_mem_splitTypeArgs member)
          (length_of_stripOuter stripped)
      rw [split] at shorter
      exact ⟨shorter key (by simp), shorter value (by simp)⟩
    · exact cuts_refused text
  split
  · split
    · rename_i inner found
      exact ⟨length_of_simpleAggregateArgument found, fun _ => by rw [ColumnType.nesting]⟩
    · exact cuts_refused text
  split
  · exact cuts_listed ‹_› fun _ => by rw [ColumnType.nesting]
  split
  · exact cuts_done rfl
  · exact fun _ same => nesting_of_scalarType same

theorem parseWith_congr {form : TypeForm} {text : Text} {first second : Text → Option ColumnType}
    (cuts : form.Cuts text)
    (same : ∀ argument : Text, argument.length < text.length →
      first argument = second argument) :
    form.parseWith first = form.parseWith second := by
  cases form with
  | done result => rfl
  | wrapped build inner =>
      simp only [TypeForm.parseWith]
      rw [same inner cuts.1]
  | listed build arguments =>
      have filtered : arguments.filterMap first = arguments.filterMap second :=
        List.filterMap_congr fun argument member => same argument (cuts.1 argument member)
      simp only [TypeForm.parseWith]
      rw [filtered]
  | keyed key value =>
      simp only [TypeForm.parseWith]
      rw [same key cuts.1, same value cuts.2]

theorem parseWithin_eq {calls calls' : Nat} {text : Text}
    (enough : text.length < calls) (enough' : text.length < calls') :
    parseWithin calls text = parseWithin calls' text := by
  induction calls generalizing calls' text with
  | zero => omega
  | succ calls ih =>
      cases calls' with
      | zero => omega
      | succ calls' =>
          have shorter := length_trim_le text
          exact parseWith_congr (typeForm_cuts (trim text)) fun argument short =>
            ih (by omega) (by omega)

/-- The parser without its bound: one branch, continued by nested calls. -/
theorem parseText_eq (text : Text) :
    parseText text = (typeForm (trim text)).parseWith parseText := by
  have shorter := length_trim_le text
  exact parseWith_congr (typeForm_cuts (trim text)) fun argument short =>
    parseWithin_eq (by omega) (by omega)

/-- The argument texts a form hands to nested calls; the value of a map is parsed
only after its key has been. -/
def TypeForm.calls (nested : Text → Option ColumnType) : TypeForm → List Text
  | done _ => []
  | wrapped _ inner => [inner]
  | listed _ arguments => arguments
  | keyed key value => if (nested key).isSome then [key, value] else [key]

/-- The argument texts of the nested calls made for a text. -/
def nestedCalls (text : Text) : List Text :=
  (typeForm (trim text)).calls parseText

/-- One text is handed to a nested call made for another. -/
def NestedCall (caller argument : Text) : Prop :=
  argument ∈ nestedCalls caller

/-- A call with its successive nested calls, each made for the one before. -/
def CallChain (text : Text) (chain : List Text) : Prop :=
  List.IsChain NestedCall (text :: chain)

@[simp] theorem callChain_cons {text argument : Text} {chain : List Text} :
    CallChain text (argument :: chain) ↔
      argument ∈ nestedCalls text ∧ CallChain argument chain :=
  List.isChain_cons_cons

theorem le_maxParenDepthFrom (depth deepest : Nat) (text : Text) :
    deepest ≤ maxParenDepthFrom depth deepest text := by
  induction text generalizing depth deepest with
  | nil => exact Nat.le_refl _
  | cons char rest ih => exact Nat.le_trans (Nat.le_max_left _ _) (ih _ _)

end DfeClickhouse.Native
