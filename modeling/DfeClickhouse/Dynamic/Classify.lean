import DfeClickhouse.ServerException

/-!
# Classification of insert errors

`classify_error` sorts a sink error into a transport failure, a stale schema or a
rejection of the rows.  A rejection reaches it as a structured exception over TCP
and as the text of a bad response over HTTP.
-/

namespace DfeClickhouse.Dynamic

open Library

/-- The server codes that say the cached schema no longer matches the table. -/
def schemaDriftCodes : List Int := [6, 8, 16, 26, 27, 41, 44, 47, 53, 117]

/-- The words that say so in a rejection without a code. -/
def schemaDriftWords : List String :=
  ["UNKNOWN_IDENTIFIER", "NO_SUCH_COLUMN", "THERE_IS_NO_COLUMN", "TYPE_MISMATCH",
    "ILLEGAL_COLUMN", "CANNOT_PARSE", "cannot parse", "INCORRECT_DATA", "incorrect data"]

def mentionsSchemaDrift (message : String) : Bool :=
  schemaDriftWords.any fun word => containsText message.toList word.toList

/-- The server code an error carries. -/
def serverCode : Error → Option Int
  | .serverException code _ _ _ => some code
  | .badResponse body => (ServerException.parse (.badResponse body)).map ServerException.code
  | _ => none

/-- Whether an error that is no transport failure says that the schema is stale. -/
def isSchemaMismatch (error : Error) : Bool :=
  match serverCode error with
  | some code => schemaDriftCodes.contains code
  | none => mentionsSchemaDrift error.display

/-- Classify a sink error; transport failures come first. -/
def classifyError (fullTable : String) (error : Error) : DynamicError :=
  if isRetriableTransport error then .transport fullTable error
  else if isSchemaMismatch error then .schemaMismatch fullTable error.display
  else .encodingError "" error.display

/-- The variants of a dynamic-insert error. -/
inductive Variant
  | unsupportedType
  | encodingError
  | schemaMismatch
  | schemaFetch
  | emptySchema
  | transport
  deriving DecidableEq, Repr

def variant : DynamicError → Variant
  | .unsupportedType .. => .unsupportedType
  | .encodingError .. => .encodingError
  | .schemaMismatch .. => .schemaMismatch
  | .schemaFetch .. => .schemaFetch
  | .emptySchema .. => .emptySchema
  | .transport .. => .transport

/-- Whether a retry may help depends on the variant alone. -/
theorem isRetriable_of_variant {first second : DynamicError}
    (same : variant first = variant second) : first.isRetriable = second.isRetriable := by
  cases first <;> cases second <;> first | rfl | cases same

/-- The variants of errors that carry rows' rejections. -/
theorem variant_classifyError (fullTable : String) (error : Error) :
    variant (classifyError fullTable error) =
      if isRetriableTransport error then .transport
      else if isSchemaMismatch error then .schemaMismatch
      else .encodingError := by
  unfold classifyError
  split
  · rfl
  · split <;> rfl

theorem isSchemaMismatch_body {code : Int} (least : -2 ^ 31 ≤ code) (greatest : code < 2 ^ 31)
    (rest : String) :
    isSchemaMismatch (.badResponse (ServerException.body code rest)) =
      if (ServerException.keptMessage (ServerException.body code rest).toList).isEmpty then
        mentionsSchemaDrift ("bad response: " ++ ServerException.body code rest)
      else schemaDriftCodes.contains code := by
  rw [isSchemaMismatch, serverCode, ServerException.parse_body least greatest]
  split
  · rename_i code' found
    split at found
    · cases found
    · rename_i kept
      cases found
      rw [if_neg kept]
  · rename_i found
    split at found
    · rename_i stripped
      rw [if_pos stripped]
      rfl
    · cases found

/-- A rejection is classified alike over both transports exactly when its code is not a
retriable one and, should nothing be left of the message, the text mentions a stale
schema just when the code does. -/
theorem classifyError_agrees_iff (fullTable : String) (code : Int) (least : -2 ^ 31 ≤ code)
    (greatest : code < 2 ^ 31) (name stackTrace : Option String) (message suffix : String) :
    (variant (classifyError fullTable (.serverException code name message stackTrace)) =
        variant (classifyError fullTable
          (.badResponse (ServerException.body code (message ++ suffix)))) ∧
      (classifyError fullTable (.serverException code name message stackTrace)).isRetriable =
        (classifyError fullTable
          (.badResponse (ServerException.body code (message ++ suffix)))).isRetriable) ↔
    Error.isRetriableCode code = false ∧
      ((ServerException.keptMessage
          (ServerException.body code (message ++ suffix)).toList).isEmpty = true →
        mentionsSchemaDrift ("bad response: " ++ ServerException.body code (message ++ suffix)) =
          schemaDriftCodes.contains code) := by
  have http : isRetriableTransport
      (.badResponse (ServerException.body code (message ++ suffix))) = false := rfl
  have tcp : isRetriableTransport (.serverException code name message stackTrace) =
      Error.isRetriableCode code := by
    simp [isRetriableTransport, Error.isRetriable]
  have mismatch : isSchemaMismatch (.serverException code name message stackTrace) =
      schemaDriftCodes.contains code := rfl
  have variants : variant (classifyError fullTable
      (.serverException code name message stackTrace)) =
        variant (classifyError fullTable
          (.badResponse (ServerException.body code (message ++ suffix)))) ↔
      Error.isRetriableCode code = false ∧
        isSchemaMismatch (.badResponse (ServerException.body code (message ++ suffix))) =
          schemaDriftCodes.contains code := by
    rw [variant_classifyError, variant_classifyError, http, tcp, mismatch]
    cases Error.isRetriableCode code <;> cases schemaDriftCodes.contains code <;>
      cases isSchemaMismatch (.badResponse (ServerException.body code (message ++ suffix))) <;>
      decide
  rw [and_iff_left_of_imp isRetriable_of_variant, variants,
    isSchemaMismatch_body least greatest]
  split
  · rename_i stripped
    simp [stripped]
  · rename_i kept
    simp [kept]

theorem classifyError_agrees_typeMismatch :
    variant (classifyError "db.t" (.serverException 53 none "Type mismatch" none)) =
        .schemaMismatch ∧
      variant (classifyError "db.t" (.badResponse
        "Code: 53. DB::Exception: Type mismatch. (TYPE_MISMATCH) (version 24.8.1)")) =
        .schemaMismatch := by
  have both := (classifyError_agrees_iff "db.t" 53 (by decide) (by decide) none none
    "Type mismatch" ". (TYPE_MISMATCH) (version 24.8.1)").mpr
      ⟨rfl, fun stripped => by cases stripped⟩
  have server : variant (classifyError "db.t" (.serverException 53 none "Type mismatch" none)) =
      .schemaMismatch := rfl
  exact ⟨server, both.1.symm.trans server⟩

/-- A memory limit, which a later attempt may not hit. -/
theorem classifyError_differs_memoryLimit :
    variant (classifyError "db.t" (.serverException 241 none "Memory limit exceeded" none)) =
        .transport ∧
      variant (classifyError "db.t" (.badResponse
        "Code: 241. DB::Exception: Memory limit exceeded. (MEMORY_LIMIT_EXCEEDED)")) =
        .encodingError ∧
      (classifyError "db.t" (.serverException 241 none "Memory limit exceeded" none)).isRetriable =
        true ∧
      (classifyError "db.t" (.badResponse
        "Code: 241. DB::Exception: Memory limit exceeded. (MEMORY_LIMIT_EXCEEDED)")).isRetriable =
        false :=
  ⟨rfl, rfl, rfl, rfl⟩

end DfeClickhouse.Dynamic
