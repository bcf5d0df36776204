import DfeClickhouse.Error
import DfeClickhouse.Library.Text

/-!
# Server rejections in response text

The HTTP client reports a rejection as the text of a bad response.
`ServerException::parse` reads the code back out of it and strips the marker, the
version, the name tag and the stack trace from the message.
-/

namespace DfeClickhouse

open Library

/-- A `Code: N. DB::Exception: ...` rejection. -/
structure ServerException where
  code : Int
  /-- The trailing upper-case name tag. -/
  name : Option String
  message : String
  stackTrace : Option String

namespace ServerException

/-- What follows the exception marker, or the whole body without one. -/
def afterMarker (body : Text) : Text :=
  match splitOnce body "Exception: ".toList with
  | some (_, rest) => trim rest
  | none => trim body

/-- A text without a trailing version. -/
def withoutVersion (text : Text) : Text :=
  match splitLast text "(version ".toList with
  | some (before, _) => trimEndMatches (fun char => [' ', '.', ','].contains char) before
  | none => text

/-- Only upper-case letters, digits and underscores make a name tag. -/
def isShouty (char : Char) : Bool :=
  char.isUpper || char.isDigit || char == '_'

/-- A text without its name tag, and the tag. -/
def splitName (text : Text) : Text × Option Text :=
  match (text.dropSuffix? [')']).bind fun inside => splitLast inside ['('] with
  | some (before, tag) =>
      let candidate := tag.drop 1
      if !candidate.isEmpty && candidate.all isShouty then
        (trimEndMatches (fun char => [':', ' ', '.', ','].contains char) before, some candidate)
      else
        (text, none)
  | none => (text, none)

/-- The message and the stack trace after it. -/
def splitStackTrace (text : Text) : Text × Option Text :=
  match splitOnce text "Stack trace:".toList with
  | some (before, trace) => (trimEndMatches isWhitespace before, some (trim trace))
  | none => (trim text, none)

/-- The message a body leaves once everything around it is stripped. -/
def keptMessage (body : Text) : Text :=
  (splitStackTrace (splitName (withoutVersion (afterMarker body))).1).1

/-- Read a rejection out of an upstream error. -/
def parse : UpstreamError → Option ServerException
  | .badResponse text =>
      let body := text.toList
      -- A bare code stands in for a body that could not be read.
      match parseSigned 32 (trim body) with
      | some code => some ⟨code, none, "", none⟩
      | none => do
          let rest ← body.dropPrefix? "Code: ".toList
          let (digits, _) ← splitOnce rest ['.']
          let code ← parseSigned 32 (trim digits)
          let named := splitName (withoutVersion (afterMarker body))
          let (message, stackTrace) := splitStackTrace named.1
          if message.isEmpty then none
          else some ⟨code, named.2.map String.ofList, String.ofList message,
            stackTrace.map String.ofList⟩
  | _ => none

/-- The body the HTTP client reports for a rejection: the code, the exception marker and
the rest of the text. -/
def body (code : Int) (rest : String) : String :=
  "Code: " ++ toString code ++ ". DB::Exception: " ++ rest

theorem visible_toString_int {code : Int} {char : Char}
    (member : char ∈ (toString code).toList) : isWhitespace char = false ∧ char ≠ '.' := by
  rcases mem_toString_int member with rfl | digit
  · decide
  · simp only [Char.isDigit, Bool.and_eq_true, decide_eq_true_eq] at digit
    constructor
    · have low : 48 ≤ char.toNat := digit.1
      have high : char.toNat ≤ 57 := digit.2
      simp only [isWhitespace, Bool.or_eq_false_iff, Bool.and_eq_false_iff, beq_eq_false_iff_ne,
        decide_eq_false_iff_not]
      omega
    · rintro rfl
      exact absurd digit.1 (by decide)

/-- What stands between the code and the message. -/
def marker : Text := " DB::Exception: ".toList

theorem toList_body (code : Int) (rest : String) :
    (body code rest).toList =
      "Code: ".toList ++ ((toString code).toList ++ '.' :: (marker ++ rest.toList)) := by
  have dotted : ". DB::Exception: ".toList = '.' :: marker := rfl
  rw [body, String.toList_append, String.toList_append, String.toList_append, dotted,
    List.append_assoc, List.append_assoc, List.cons_append]

/-- A body is not a bare code. -/
@[simp] theorem parseSigned_body (code : Int) (rest : String) :
    parseSigned 32 (trim (body code rest).toList) = none := by
  have opened : "Code: ".toList = 'C' :: "ode: ".toList := rfl
  rw [toList_body, opened, List.cons_append]
  have visible : isWhitespace 'C' = false := rfl
  obtain ⟨tail, kept⟩ := exists_trim_cons visible
    ("ode: ".toList ++ ((toString code).toList ++ '.' :: (marker ++ rest.toList)))
  rw [kept]
  simp [parseSigned, parseDigits]

/-- The digits between the opening of a body and its first dot. -/
theorem codeDigits_body (code : Int) (rest : String) :
    ((body code rest).toList.dropPrefix? "Code: ".toList).bind (splitOnce · ['.']) =
      some ((toString code).toList, marker ++ rest.toList) := by
  rw [toList_body, List.dropPrefix?_append_of_beq _ (beq_self_eq_true _), Option.bind_some]
  exact splitOnce_char (fun member => (visible_toString_int member).2 rfl) _

/-- The code of a rejection is read back; a body whose message is all stripped is not a
rejection. -/
theorem parse_body {code : Int} (least : -2 ^ 31 ≤ code) (greatest : code < 2 ^ 31)
    (rest : String) :
    (parse (.badResponse (body code rest))).map ServerException.code =
      if (keptMessage (body code rest).toList).isEmpty then none else some code := by
  have digits : parseSigned 32 (trim (toString code).toList) = some code := by
    rw [trim_eq_self fun char member => (visible_toString_int member).1]
    exact parseSigned_toString least greatest
  obtain ⟨stripped, isStripped, cut⟩ := Option.bind_eq_some_iff.mp (codeDigits_body code rest)
  by_cases empty : (keptMessage (body code rest).toList).isEmpty = true
  · rw [if_pos empty]
    unfold keptMessage at empty
    simp only [parse, parseSigned_body, isStripped, cut, digits, Option.bind_eq_bind,
      Option.bind_some, if_pos empty, Option.map_none]
  · rw [if_neg empty]
    unfold keptMessage at empty
    simp only [parse, parseSigned_body, isStripped, cut, digits, Option.bind_eq_bind,
      Option.bind_some, if_neg empty, Option.map_some]

end ServerException

end DfeClickhouse
