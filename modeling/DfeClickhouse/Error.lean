import Mathlib

/-!
# Errors

The crate's error enumeration, the dynamic-insert errors it carries, the text
each one displays and the retry classification.
-/

namespace DfeClickhouse

/-- The `io::ErrorKind`s the retry classification tells apart. -/
inductive IoErrorKind
  | connectionRefused
  | connectionReset
  | connectionAborted
  | notConnected
  | brokenPipe
  | timedOut
  | interrupted
  | unexpectedEof
  | addrNotAvailable
  | hostUnreachable
  | networkUnreachable
  | networkDown
  | permissionDenied
  | invalidInput
  | other
  deriving DecidableEq, Repr

/-- An error boxed as a trait object: an `io::Error`, or anything else. -/
inductive BoxedError
  | io (kind : IoErrorKind) (text : String)
  | foreign (text : String)
  deriving DecidableEq, Repr

/-- The text a boxed error displays. -/
def BoxedError.display : BoxedError → String
  | .io _ text => text
  | .foreign text => text

/-- The upstream client's errors, which `From` maps variant by variant. -/
inductive UpstreamError
  | invalidParams (source : BoxedError)
  | network (source : BoxedError)
  | compression (source : BoxedError)
  | decompression (source : BoxedError)
  | rowNotFound
  | sequenceMustHaveLength
  | deserializeAnyNotSupported
  | notEnoughData
  | invalidUtf8Encoding (text : String)
  | invalidTagEncoding (tag : Nat)
  | variantDiscriminatorIsOutOfBound (count : Nat)
  | custom (text : String)
  | badResponse (text : String)
  | timedOut
  | invalidColumnsHeader (source : BoxedError)
  | schemaMismatch (text : String)
  | unsupported (text : String)
  /-- A variant upstream adds later. -/
  | later (display : String)
  deriving DecidableEq, Repr

mutual

/-- Everything a call of this crate can fail with. -/
inductive Error
  | invalidParams (source : BoxedError)
  | network (source : BoxedError)
  | compression (source : BoxedError)
  | decompression (source : BoxedError)
  | rowNotFound
  | sequenceMustHaveLength
  | deserializeAnyNotSupported
  | notEnoughData
  | invalidUtf8Encoding (text : String)
  | invalidTagEncoding (tag : Nat)
  | variantDiscriminatorIsOutOfBound (count : Nat)
  | custom (text : String)
  | workerExited
  | serverException (code : Int) (name : Option String) (message : String)
      (stackTrace : Option String)
  | badResponse (text : String)
  | transient (text : String)
  | connect (text : String)
  | timedOut
  | invalidColumnsHeader (source : BoxedError)
  | schemaMismatch (text : String)
  | unsupported (text : String)
  | dynamic (error : DynamicError)
  | other (source : BoxedError)

/-- The failures specific to schema-driven inserts. -/
inductive DynamicError
  | unsupportedType (column typeStr : String)
  | encodingError (column message : String)
  | schemaMismatch (table message : String)
  | schemaFetch (table : String) (source : UpstreamError)
  | emptySchema (table : String)
  | transport (table : String) (source : Error)

end

/-- The text an upstream error displays. -/
def UpstreamError.display : UpstreamError → String
  | .invalidParams source => "invalid params: " ++ source.display
  | .network source => "network error: " ++ source.display
  | .compression source => "compression error: " ++ source.display
  | .decompression source => "decompression error: " ++ source.display
  | .rowNotFound =>
      "no rows returned by a query that expected to return at least one row"
  | .sequenceMustHaveLength => "sequences must have a known size ahead of time"
  | .deserializeAnyNotSupported => "`deserialize_any` is not supported"
  | .notEnoughData =>
      "not enough data, probably a row type mismatches a database schema"
  | .invalidUtf8Encoding _ => "string is not valid utf8"
  | .invalidTagEncoding _ => "tag for enum is not valid"
  | .variantDiscriminatorIsOutOfBound count =>
      "max number of types in the Variant data type is 255, got " ++ toString count
  | .custom text => "a custom error message from serde: " ++ text
  | .badResponse text => "bad response: " ++ text
  | .timedOut => "timeout expired"
  | .invalidColumnsHeader source =>
      "error while parsing columns header from the response: " ++ source.display
  | .schemaMismatch text => "schema mismatch: " ++ text
  | .unsupported text => "unsupported: " ++ text
  | .later text => text

mutual

/-- The text an error displays. -/
def Error.display : Error → String
  | .invalidParams source => "invalid params: " ++ source.display
  | .network source => "network error: " ++ source.display
  | .compression source => "compression error: " ++ source.display
  | .decompression source => "decompression error: " ++ source.display
  | .rowNotFound =>
      "no rows returned by a query that expected to return at least one row"
  | .sequenceMustHaveLength => "sequences must have a known size ahead of time"
  | .deserializeAnyNotSupported => "`deserialize_any` is not supported"
  | .notEnoughData =>
      "not enough data, probably a row type mismatches a database schema"
  | .invalidUtf8Encoding _ => "string is not valid utf8"
  | .invalidTagEncoding _ => "tag for enum is not valid"
  | .variantDiscriminatorIsOutOfBound count =>
      "max number of types in the Variant data type is 255, got " ++ toString count
  | .custom text => "a custom error message from serde: " ++ text
  | .workerExited =>
      "background worker task has exited; the inserter is no longer accepting commands"
  | .serverException code _ message _ =>
      "server error code " ++ toString code ++ ": " ++ message
  | .badResponse text => "bad response: " ++ text
  | .transient text => "transient transport failure: " ++ text
  | .connect text => "connect failed: " ++ text
  | .timedOut => "timeout expired"
  | .invalidColumnsHeader source =>
      "error while parsing columns header from the response: " ++ source.display
  | .schemaMismatch text => "schema mismatch: " ++ text
  | .unsupported text => "unsupported: " ++ text
  | .dynamic error => error.display
  | .other source => source.display

/-- The text a dynamic-insert error displays. -/
def DynamicError.display : DynamicError → String
  | .unsupportedType column typeStr =>
      "unsupported type '" ++ typeStr ++ "' for column '" ++ column ++ "'"
  | .encodingError column message =>
      "encoding error for column '" ++ column ++ "': " ++ message
  | .schemaMismatch table message =>
      "schema mismatch for table '" ++ table ++ "': " ++ message
  | .schemaFetch table source =>
      "failed to fetch schema for '" ++ table ++ "': " ++ source.display
  | .emptySchema table => "table '" ++ table ++ "' has no columns or does not exist"
  | .transport table source =>
      "transport failure inserting into '" ++ table ++ "': " ++ source.display

end

/-- The server error codes considered transient. -/
def Error.isRetriableCode (code : Int) : Bool :=
  [159, 160, 202, 209, 210, 236, 241, 252, 279, 290, 319, 364, 384, 439, 473, 659,
    904, 999].contains code

/-- Whether a fresh attempt at a dynamic insert may succeed. -/
def DynamicError.isRetriable : DynamicError → Bool
  | .transport .. | .schemaFetch .. | .schemaMismatch .. | .emptySchema .. => true
  | .unsupportedType .. | .encodingError .. => false

/-- Conservative retry classification. -/
def Error.isRetriable : Error → Bool
  | .network _ | .timedOut | .transient _ | .connect _ => true
  | .serverException code _ _ _ => Error.isRetriableCode code
  | .dynamic error => error.isRetriable
  | _ => false

/-- The `io::ErrorKind`s of a transient connect or network failure. -/
def IoErrorKind.isTransient : IoErrorKind → Bool
  | .connectionRefused | .connectionReset | .connectionAborted | .notConnected | .brokenPipe
  | .timedOut | .interrupted | .unexpectedEof | .addrNotAvailable | .hostUnreachable
  | .networkUnreachable | .networkDown => true
  | .permissionDenied | .invalidInput | .other => false

/-- Whether an error is worth replaying on a fresh connection. -/
def isRetriableTransport (error : Error) : Bool :=
  error.isRetriable || match error with
    | .other (.io kind _) => kind.isTransient
    | _ => false

/-- The crate error an upstream error becomes. -/
def Error.ofUpstream : UpstreamError → Error
  | .invalidParams source => .invalidParams source
  | .network source => .network source
  | .compression source => .compression source
  | .decompression source => .decompression source
  | .rowNotFound => .rowNotFound
  | .sequenceMustHaveLength => .sequenceMustHaveLength
  | .deserializeAnyNotSupported => .deserializeAnyNotSupported
  | .notEnoughData => .notEnoughData
  | .invalidUtf8Encoding text => .invalidUtf8Encoding text
  | .invalidTagEncoding tag => .invalidTagEncoding tag
  | .variantDiscriminatorIsOutOfBound count => .variantDiscriminatorIsOutOfBound count
  | .custom text => .custom text
  | .badResponse text => .badResponse text
  | .timedOut => .timedOut
  | .invalidColumnsHeader source => .invalidColumnsHeader source
  | .schemaMismatch text => .schemaMismatch text
  | .unsupported text => .unsupported text
  | .later text => .other (.foreign text)

end DfeClickhouse
