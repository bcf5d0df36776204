import DfeClickhouse.Dynamic.ParsedType
import DfeClickhouse.Library.Faults

/-!
# Faults of the type parser

The type parser cuts a type string at byte offsets and counts its parentheses in an
`i32`.  Run with these operations unchecked it gives what the parser gives, unless the
arguments of a map nest parentheses past the counter.  Positions in a text are at most
its length, so that only the counter can overflow.
-/

namespace DfeClickhouse.Dynamic

open Library

namespace ParsedType

variable {ε : Type}

/-- The offset of the first occurrence of a character. -/
def findChar (text : Text) (char : Char) : Option Nat :=
  if char ∈ text then some (byteLength (text.takeWhile (· ≠ char))) else none

/-- The offset of the last occurrence of a character. -/
def rfindChar (text : Text) (char : Char) : Option Nat :=
  match text.reverse.dropWhile (· ≠ char) with
  | [] => none
  | _ :: front => some (byteLength front)

/-- The slice between the first opening and the last closing parenthesis. -/
def parenSlice (text : Text) : Faulty ε (Option Text) :=
  match findChar text '(', rfindChar text ')' with
  | some start, some stop =>
      if start < stop then do
        let inner ← sliceBytes text (start + 1) stop
        pure (some inner)
      else
        pure none
  | _, _ => pure none

theorem findChar_append {char : Char} {front : Text} (fresh : char ∉ front) (rest : Text) :
    findChar (front ++ char :: rest) char = some (byteLength front) := by
  rw [findChar, if_pos (by simp), takeWhile_ne_append fresh]

theorem rfindChar_append {char : Char} {rest : Text} (fresh : char ∉ rest) (front : Text) :
    rfindChar (front ++ char :: rest) char = some (byteLength front) := by
  have turned : (front ++ char :: rest).reverse = rest.reverse ++ char :: front.reverse := by simp
  rw [rfindChar, turned, dropWhile_ne_append (by simpa using fresh)]
  simp only [byteLength_reverse]

theorem rfindChar_eq_none {char : Char} {text : Text} (fresh : char ∉ text) :
    rfindChar text char = none := by
  rw [rfindChar, dropWhile_ne_eq_nil (by simpa using fresh)]

/-- A character that occurs has a last occurrence. -/
theorem exists_last_occurrence {char : Char} {text : Text} (member : char ∈ text) :
    ∃ front rest, text = front ++ char :: rest ∧ char ∉ rest := by
  obtain ⟨before, after, turned, fresh⟩ :=
    List.eq_append_cons_of_mem (List.mem_reverse.mpr member)
  refine ⟨after.reverse, before.reverse, ?_, by simpa using fresh⟩
  rw [← List.reverse_reverse text, turned]
  simp

/-- The slice is never outside of the text. -/
@[simp] theorem parenSlice_eq (text : Text) :
    (parenSlice text : Faulty ε (Option Text)) = pure (extractParens text) := by
  by_cases opened : '(' ∈ text
  · obtain ⟨name, rest, rfl, plain⟩ := List.eq_append_cons_of_mem opened
    rw [parenSlice, findChar_append plain]
    by_cases closed : ')' ∈ rest
    · obtain ⟨inner, filler, rfl, open'⟩ := exists_last_occurrence closed
      have regroup : name ++ '(' :: (inner ++ ')' :: filler) =
          (name ++ '(' :: inner) ++ ')' :: filler := by simp
      have sliced := @sliceBytes_append ε (name ++ ['(']) inner (')' :: filler)
      have paren : '('.utf8Size = 1 := rfl
      simp only [byteLength_append, byteLength_cons, byteLength_nil, paren, Nat.add_zero] at sliced
      rw [extractParens_eq plain open', regroup, rfindChar_append open']
      simp only [byteLength_append, byteLength_cons, paren]
      rw [if_pos (by omega)]
      have same : name ++ ['('] ++ inner ++ ')' :: filler =
          name ++ '(' :: inner ++ ')' :: filler := by
        simp
      rw [← same, ← Nat.add_assoc, sliced]
      rfl
    · have nothing : extractParens (name ++ '(' :: rest) = none := by
        rw [extractParens, dropWhile_ne_append plain]
        simp only [dropWhile_ne_eq_nil (show ')' ∉ rest.reverse by simpa using closed)]
      rw [nothing]
      by_cases earlier : ')' ∈ name
      · obtain ⟨before, after, rfl, fresh⟩ := exists_last_occurrence earlier
        have regroup : before ++ ')' :: after ++ '(' :: rest =
            before ++ ')' :: (after ++ '(' :: rest) := by simp
        have last : ')' ∉ after ++ '(' :: rest := by simp [fresh, closed]
        rw [regroup, rfindChar_append last]
        simp only [byteLength_append]
        rw [if_neg (by omega)]
      · have fresh : ')' ∉ name ++ '(' :: rest := by simp [earlier, closed]
        rw [rfindChar_eq_none fresh]
  · rw [parenSlice, findChar, if_neg opened, extractParens, dropWhile_ne_eq_nil opened]

/-- The loop of `splitTypeArgs` over the rest of a text: the depth and the offset. -/
def splitTypeArgsLoop (inner : Text) (depth : Int) (index : Nat) :
    Text → Faulty ε (Option (Text × Text))
  | [] => pure none
  | char :: rest =>
      if char = '(' then do
        let deeper ← Faulty.signed 32 (depth + 1)
        splitTypeArgsLoop inner deeper (index + char.utf8Size) rest
      else if char = ')' then do
        let shallower ← Faulty.signed 32 (depth - 1)
        splitTypeArgsLoop inner shallower (index + char.utf8Size) rest
      else if char = ',' ∧ depth = 0 then do
        let first ← sliceBytes inner 0 index
        let second ← sliceBytes inner (index + 1) (byteLength inner)
        pure (some (trim first, trim second))
      else
        splitTypeArgsLoop inner depth (index + char.utf8Size) rest

/-- How many more parentheses a text opens than it closes. -/
def parenDepth (text : Text) : Int :=
  text.count '(' - text.count ')'

/-- The depth of every part of a text that starts it and has no comma outside of
parentheses fits an `i32`. -/
def DepthFits (inner : Text) : Prop :=
  ∀ front rest, inner = front ++ rest →
    (∀ before after, front = before ++ ',' :: after → parenDepth before ≠ 0) →
      -2 ^ 31 ≤ parenDepth front ∧ parenDepth front < 2 ^ 31

/-- The depth after one more character. -/
def depthAfter (depth : Int) (char : Char) : Int :=
  if char = '(' then depth + 1 else if char = ')' then depth - 1 else depth

/-- The depths the loop goes through fit an `i32`. -/
def DepthFitsFrom (depth : Int) : Text → Prop
  | [] => True
  | char :: rest =>
      char = ',' ∧ depth = 0 ∨
        (-2 ^ 31 ≤ depthAfter depth char ∧ depthAfter depth char < 2 ^ 31) ∧
          DepthFitsFrom (depthAfter depth char) rest

theorem parenDepth_cons (char : Char) (text : Text) :
    parenDepth (char :: text) = depthAfter 0 char + parenDepth text := by
  simp only [parenDepth, depthAfter, List.count_cons, beq_iff_eq]
  split
  · rename_i opens
    rw [if_neg (by rw [opens]; decide)]
    omega
  · split
    · omega
    · omega

theorem depthAfter_eq (depth : Int) (char : Char) :
    depthAfter depth char = depth + depthAfter 0 char := by
  simp only [depthAfter]
  split_ifs <;> omega

theorem depthFitsFrom_iff {depth : Int} (low : -2 ^ 31 ≤ depth) (high : depth < 2 ^ 31)
    (text : Text) :
    DepthFitsFrom depth text ↔ ∀ front rest, text = front ++ rest →
      (∀ before after, front = before ++ ',' :: after → depth + parenDepth before ≠ 0) →
        -2 ^ 31 ≤ depth + parenDepth front ∧ depth + parenDepth front < 2 ^ 31 := by
  induction text generalizing depth with
  | nil =>
      refine iff_of_true trivial fun front rest same _ => ?_
      rw [(List.append_eq_nil_iff.mp same.symm).1]
      exact ⟨by simpa [parenDepth] using low, by simpa [parenDepth] using high⟩
  | cons char text ih =>
      rw [DepthFitsFrom]
      constructor
      · intro fits front rest same inside
        cases front with
        | nil => exact ⟨by simpa [parenDepth] using low, by simpa [parenDepth] using high⟩
        | cons first front =>
            injection same with head tail
            subst head
            rcases fits with ⟨rfl, rfl⟩ | ⟨range, fits⟩
            · exact absurd rfl (inside [] front rfl)
            · have later := (ih range.1 range.2).mp fits front rest tail
                fun before after split => by
                have outer := inside (char :: before) after (by rw [split]; rfl)
                rw [parenDepth_cons] at outer
                rw [depthAfter_eq]
                omega
              rw [depthAfter_eq] at later
              rw [parenDepth_cons]
              omega
      · intro fits
        by_cases comma : char = ',' ∧ depth = 0
        · exact .inl comma
        · right
          have first := fits [char] text rfl fun before after split => by
            cases before with
            | nil =>
                injection split with head _
                intro zero
                exact comma ⟨head, by simpa [parenDepth] using zero⟩
            | cons _ _ =>
                injection split with _ tail
                exact absurd tail (by simp)
          have none : parenDepth [] = 0 := rfl
          rw [parenDepth_cons, none, Int.add_zero, ← depthAfter_eq] at first
          refine ⟨first, (ih first.1 first.2).mpr fun front rest same inside => ?_⟩
          have longer := fits (char :: front) rest (by rw [same]; rfl) fun before after split => by
            cases before with
            | nil =>
                injection split with head _
                intro zero
                exact comma ⟨head, by simpa [parenDepth] using zero⟩
            | cons first before =>
                injection split with head tail
                subst head
                have deeper := inside before after tail
                rw [depthAfter_eq] at deeper
                rw [parenDepth_cons]
                omega
          rw [parenDepth_cons] at longer
          rw [depthAfter_eq]
          omega

theorem depthFits_iff (inner : Text) : DepthFits inner ↔ DepthFitsFrom 0 inner := by
  rw [depthFitsFrom_iff (by decide) (by decide)]
  simp only [Int.zero_add]
  rfl

/-- The loop cuts where the splitter does, as long as its depths fit. -/
theorem splitTypeArgsLoop_eq {inner : Text} {depth : Int} {current text : Text}
    (whole : inner = current.reverse ++ text) (fits : DepthFitsFrom depth text) :
    (splitTypeArgsLoop inner depth (byteLength current) text : Faulty ε (Option (Text × Text))) =
      pure (splitTypeArgsFrom depth current text) := by
  induction text generalizing depth current with
  | nil => rfl
  | cons char text ih =>
      have next {depth : Int} (fits : DepthFitsFrom depth text) :
          (splitTypeArgsLoop inner depth (byteLength current + char.utf8Size) text :
            Faulty ε (Option (Text × Text))) =
          pure (splitTypeArgsFrom depth (char :: current) text) := by
        have longer : inner = (char :: current).reverse ++ text := by simpa using whole
        rw [Nat.add_comm]
        exact ih longer fits
      rw [splitTypeArgsLoop, splitTypeArgsFrom]
      rw [DepthFitsFrom] at fits
      by_cases opens : char = '('
      · rw [if_pos opens, if_pos opens]
        have range := fits.resolve_left fun comma => by
          rw [opens] at comma
          exact absurd comma.1 (by decide)
        simp only [depthAfter, if_pos opens] at range
        rw [Faulty.signed_of_fits range.1.1 range.1.2, pure_bind]
        exact next range.2
      · rw [if_neg opens, if_neg opens]
        by_cases closes : char = ')'
        · rw [if_pos closes, if_pos closes]
          have range := fits.resolve_left fun comma => by
            rw [closes] at comma
            exact absurd comma.1 (by decide)
          simp only [depthAfter, if_neg opens, if_pos closes] at range
          rw [Faulty.signed_of_fits range.1.1 range.1.2, pure_bind]
          exact next range.2
        · rw [if_neg closes, if_neg closes]
          by_cases comma : char = ',' ∧ depth = 0
          · rw [if_pos comma, if_pos comma]
            have first := @sliceBytes_append ε [] current.reverse (',' :: text)
            have second := @sliceBytes_append ε (current.reverse ++ [',']) text []
            have size : ','.utf8Size = 1 := rfl
            simp only [byteLength_append, byteLength_cons, byteLength_nil, byteLength_reverse, size,
              List.nil_append, List.append_nil, Nat.add_zero, Nat.zero_add, List.append_assoc,
              List.cons_append] at first second
            rw [comma.1] at whole
            have length : byteLength inner = byteLength current + 1 + byteLength text := by
              rw [whole, byteLength_append, byteLength_reverse, byteLength_cons, size]
              omega
            rw [length, whole, first, pure_bind, second, pure_bind]
          · rw [if_neg comma, if_neg comma]
            have range := fits.resolve_left comma
            simp only [depthAfter, if_neg opens, if_neg closes] at range
            exact next range.2

/-- The loop faults where a depth does not fit. -/
theorem faults_splitTypeArgsLoop {inner : Text} {depth : Int} {index : Nat} {text : Text}
    (low : -2 ^ 31 ≤ depth) (high : depth < 2 ^ 31) (deep : ¬ DepthFitsFrom depth text) :
    Faulty.Faults (splitTypeArgsLoop inner depth index text : Faulty ε (Option (Text × Text))) := by
  induction text generalizing depth index with
  | nil => exact absurd trivial deep
  | cons char text ih =>
      rw [DepthFitsFrom, not_or] at deep
      obtain ⟨notComma, deep⟩ := deep
      have counted {result : Int} (same : depthAfter depth char = result) :
          Faulty.Faults (do
            let depth ← Faulty.signed 32 result
            splitTypeArgsLoop inner depth (index + char.utf8Size) text :
              Faulty ε (Option (Text × Text))) := by
        rw [same] at deep
        by_cases range : -2 ^ 31 ≤ result ∧ result < 2 ^ 31
        · rw [Faulty.signed_of_fits range.1 range.2, pure_bind]
          exact ih range.1 range.2 fun fits => deep ⟨range, fits⟩
        · rw [Faulty.signed, if_neg range]
          exact ⟨.overflow, rfl⟩
      rw [splitTypeArgsLoop]
      by_cases opens : char = '('
      · rw [if_pos opens]
        exact counted (if_pos opens)
      · rw [if_neg opens]
        by_cases closes : char = ')'
        · rw [if_pos closes]
          exact counted (by rw [depthAfter, if_neg opens, if_pos closes])
        · rw [if_neg closes, if_neg notComma]
          simp only [depthAfter, if_neg opens, if_neg closes] at deep
          exact ih low high fun fits => deep ⟨⟨low, high⟩, fits⟩

/-- `decimalInfo` with its slice. -/
def decimalInfoFaulty (info : TypeInfo) (core : Text) : Faulty ε TypeInfo := do
  let base := parseDecimalBase core
  let info := { info with base := base, tag := .fromBase base }
  let inner ← parenSlice core
  pure (match inner.map (List.splitOn ',') with
    | some [precision, scale] =>
        { info with precision := parseU8 precision, scale := parseU8 scale }
    | some [scale] => { info with scale := parseU8 scale }
    | _ => info)

/-- The branches without a type below; only decimals are sliced.  No branch before theirs
takes a text that opens like one. -/
def plainInfoFaulty (info : TypeInfo) (core : Text) : Faulty ε TypeInfo :=
  if startsWith core "Decimal" then decimalInfoFaulty info core else pure (plainInfo info core)

/-- `parseCore` with the counter and the slices of its arguments. -/
def parseCoreFaulty (nested : Text → Faulty ε ParsedType) (info : TypeInfo) (core : Text) :
    Faulty ε ParsedType := do
  match extractWrapper core "Array" with
  | some inner =>
      let element ← nested inner
      pure (.array { info with base := "Array".toList, tag := .array } element)
  | none =>
      let arguments ← match extractWrapper core "Map" with
        | some inner => splitTypeArgsLoop inner 0 0 inner
        | none => pure none
      match arguments with
      | some (keyText, valueText) =>
          let key ← nested keyText
          let value ← nested valueText
          pure (.map { info with base := "Map".toList, tag := .map } key value)
      | none =>
          let info ← plainInfoFaulty info core
          pure (.plain info)

def parseWithinFaulty : Nat → Text → Faulty ε ParsedType
  | 0, text => pure (.plain { raw := trim text })
  | calls + 1, text =>
      let text := trim text
      let unwrapped := unwrap text
      parseCoreFaulty (parseWithinFaulty calls)
        { raw := text
          nullable := unwrapped.nullable
          lowCardinality := unwrapped.lowCardinality }
        unwrapped.core

/-- `parse` with its machine operations unchecked. -/
def parseFaulty (typeStr : String) : Faulty ε ParsedType :=
  parseWithinFaulty (typeStr.toList.length + 1) typeStr.toList

/-- What the wrappers of a text hold. -/
def coreOf (text : Text) : Text :=
  (unwrap (trim text)).core

/-- The parentheses of the arguments of every map the parser comes to fit its counter. -/
inductive ParensFit : Text → Prop
  | array {text inner : Text} (wrapped : extractWrapper (coreOf text) "Array" = some inner)
      (element : ParensFit inner) : ParensFit text
  | map {text inner key value : Text} (notArray : extractWrapper (coreOf text) "Array" = none)
      (wrapped : extractWrapper (coreOf text) "Map" = some inner) (fits : DepthFits inner)
      (split : splitTypeArgs inner = some (key, value)) (keyFits : ParensFit key)
      (valueFits : ParensFit value) : ParensFit text
  | unsplit {text inner : Text} (notArray : extractWrapper (coreOf text) "Array" = none)
      (wrapped : extractWrapper (coreOf text) "Map" = some inner) (fits : DepthFits inner)
      (split : splitTypeArgs inner = none) : ParensFit text
  | plain {text : Text} (notArray : extractWrapper (coreOf text) "Array" = none)
      (notMap : extractWrapper (coreOf text) "Map" = none) : ParensFit text

theorem splitTypeArgsLoop_of_fits {inner : Text} (fits : DepthFits inner) :
    (splitTypeArgsLoop inner 0 0 inner : Faulty ε (Option (Text × Text))) =
      pure (splitTypeArgs inner) :=
  @splitTypeArgsLoop_eq ε inner 0 [] inner rfl ((depthFits_iff inner).mp fits)

@[simp] theorem decimalInfoFaulty_eq (info : TypeInfo) (core : Text) :
    (decimalInfoFaulty info core : Faulty ε TypeInfo) = pure (decimalInfo info core) := by
  rw [decimalInfoFaulty, parenSlice_eq, pure_bind]
  rfl

/-- A text that opens like a decimal opens like nothing tried before. -/
theorem plainInfo_of_decimal (info : TypeInfo) {core : Text}
    (opens : startsWith core "Decimal" = true) : plainInfo info core = decimalInfo info core := by
  obtain ⟨rest, stripped⟩ := Option.isSome_iff_exists.mp opens
  obtain ⟨front, same, isName⟩ := List.dropPrefix?_eq_some_iff.mp stripped
  rw [eq_of_beq isName] at same
  subst same
  have apart {opening : String} (differ : ¬ opening.toList <+: "Decimal".toList ∧
      ¬ "Decimal".toList <+: opening.toList) :
      ("Decimal".toList ++ rest).dropPrefix? opening.toList = none :=
    dropPrefix?_apart differ rest
  have noWrapper {wrapper : String} (differ : ¬ wrapper.toList <+: "Decimal".toList ∧
      ¬ "Decimal".toList <+: wrapper.toList) :
      extractWrapper ("Decimal".toList ++ rest) wrapper = none := by
    rw [extractWrapper, apart differ]
    rfl
  have notDateTime64 : startsWith ("Decimal".toList ++ rest) "DateTime64" = false := by
    rw [startsWith, apart (by decide)]
    rfl
  rw [plainInfo, notDateTime64]
  simp only [noWrapper (show ¬ "DateTime".toList <+: _ ∧ _ by decide),
    noWrapper (show ¬ "FixedString".toList <+: _ ∧ _ by decide), opens, Bool.false_eq_true,
    if_false, if_true]

@[simp] theorem plainInfoFaulty_eq (info : TypeInfo) (core : Text) :
    (plainInfoFaulty info core : Faulty ε TypeInfo) = pure (plainInfo info core) := by
  rw [plainInfoFaulty]
  split
  · rw [decimalInfoFaulty_eq, plainInfo_of_decimal info ‹_›]
  · rfl

/-- The texts the parser goes on with are shorter than the text it is given. -/
theorem length_coreOf_le (text : Text) : (coreOf text).length ≤ text.length :=
  Nat.le_trans (length_unwrapWithin_le ..) (length_trim_le text)

theorem length_of_split {inner key value : Text} (split : splitTypeArgs inner = some (key, value)) :
    key.length < inner.length ∧ value.length < inner.length := by
  obtain ⟨before, after, rfl, rfl, rfl⟩ := exists_of_splitTypeArgs split
  have keyLength := length_trim_le before
  have valueLength := length_trim_le after
  simp only [List.length_append, List.length_cons]
  constructor <;> omega

/-- Where the counters fit, the parser gives its type. -/
theorem parseWithinFaulty_eq {text : Text} (fits : ParensFit text) {calls : Nat}
    (enough : text.length < calls) :
    (parseWithinFaulty calls text : Faulty ε ParsedType) = pure (parseText text) := by
  induction fits generalizing calls with
  | @array text inner wrapped element ih =>
      cases calls with
      | zero => cases enough
      | succ calls =>
          have shorter :=
            Nat.lt_of_lt_of_le (length_of_extractWrapper wrapped) (length_coreOf_le text)
          rw [parseText_eq, parseWithinFaulty]
          rw [coreOf] at wrapped
          simp only [parseCoreFaulty, parseCore, wrapped, ih (show inner.length < calls by omega),
            pure_bind]
  | @map text inner key value notArray wrapped fits split keyFits valueFits keyIh valueIh =>
      cases calls with
      | zero => cases enough
      | succ calls =>
          have shorter :=
            Nat.lt_of_lt_of_le (length_of_extractWrapper wrapped) (length_coreOf_le text)
          have parts := length_of_split split
          rw [parseText_eq, parseWithinFaulty]
          rw [coreOf] at notArray wrapped
          simp only [parseCoreFaulty, parseCore, notArray, wrapped, splitTypeArgsLoop_of_fits fits,
            split, Option.bind_some, keyIh (show key.length < calls by omega),
            valueIh (show value.length < calls by omega), pure_bind]
  | @unsplit text inner notArray wrapped fits split =>
      cases calls with
      | zero => cases enough
      | succ calls =>
          rw [parseText_eq, parseWithinFaulty]
          rw [coreOf] at notArray wrapped
          simp only [parseCoreFaulty, parseCore, notArray, wrapped, splitTypeArgsLoop_of_fits fits,
            split, Option.bind_some, plainInfoFaulty_eq, pure_bind]
  | @plain text notArray notMap =>
      cases calls with
      | zero => cases enough
      | succ calls =>
          rw [parseText_eq, parseWithinFaulty]
          rw [coreOf] at notArray notMap
          simp only [parseCoreFaulty, parseCore, notArray, notMap, Option.bind_none,
            plainInfoFaulty_eq, pure_bind]

/-- Where a counter does not fit, the parser faults. -/
theorem faults_parseWithinFaulty {calls : Nat} {text : Text} (enough : text.length < calls)
    (deep : ¬ ParensFit text) :
      Faulty.Faults (parseWithinFaulty calls text : Faulty ε ParsedType) := by
  induction calls generalizing text with
  | zero => cases enough
  | succ calls ih =>
      have shorter := length_coreOf_le text
      rw [parseWithinFaulty]
      change Faulty.Faults (parseCoreFaulty (parseWithinFaulty calls) _ (coreOf text))
      unfold parseCoreFaulty
      cases wrapped : extractWrapper (coreOf text) "Array" with
      | some inner =>
          have length := length_of_extractWrapper wrapped
          exact (ih (by omega) fun fits => deep (.array wrapped fits)).bind _
      | none =>
          cases arguments : extractWrapper (coreOf text) "Map" with
          | none => exact absurd (.plain wrapped arguments) deep
          | some inner =>
              have length := length_of_extractWrapper arguments
              by_cases fits : DepthFits inner
              · simp only [splitTypeArgsLoop_of_fits fits, pure_bind]
                cases split : splitTypeArgs inner with
                | none => exact absurd (.unsplit wrapped arguments fits split) deep
                | some parts =>
                    obtain ⟨key, value⟩ := parts
                    have lengths := length_of_split split
                    by_cases keyFits : ParensFit key
                    · simp only [parseWithinFaulty_eq keyFits (show key.length < calls by omega),
                        pure_bind]
                      have valueDeep : ¬ ParensFit value := fun valueFits =>
                        deep (.map wrapped arguments fits split keyFits valueFits)
                      exact (ih (by omega) valueDeep).bind _
                    · exact (ih (by omega) keyFits).bind _
              · have faults := @faults_splitTypeArgsLoop ε inner 0 0 inner (by decide) (by decide)
                  fun depths => fits ((depthFits_iff inner).mpr depths)
                exact faults.bind _

/-- The parser gives its type for exactly the strings whose map arguments do not nest past
the counter, and faults for the others. -/
theorem parseFaulty_eq {typeStr : String} (fits : ParensFit typeStr.toList) :
    (parseFaulty typeStr : Faulty ε ParsedType) = pure (parse typeStr) :=
  parseWithinFaulty_eq fits (Nat.lt_succ_self _)

theorem faults_parseFaulty {typeStr : String} (deep : ¬ ParensFit typeStr.toList) :
    Faulty.Faults (parseFaulty typeStr : Faulty ε ParsedType) :=
  faults_parseWithinFaulty (Nat.lt_succ_self _) deep

end ParsedType

end DfeClickhouse.Dynamic
