import DfeClickhouse.Native.Decode

/-!
# Packets

What the server sends once a connection is open, as its reader decodes it, and what
the actor writes.
-/

namespace DfeClickhouse.Tcp

open Library Native

/-- An Exception frame. -/
structure Exception where
  code : Int
  name : String
  message : String
  stackTrace : String

/-- The longest front of a text that takes at most `cap` bytes. -/
def truncateChars : Nat → List Char → List Char
  | _, [] => []
  | cap, char :: chars =>
      if char.utf8Size ≤ cap then char :: truncateChars (cap - char.utf8Size) chars else []

/-- Cut a text to `cap` bytes on a character boundary. -/
def truncateOnCharBoundary (text : String) (cap : Nat) : String :=
  String.ofList (truncateChars cap text.toList)

/-- Cap on the message of an exception. -/
def exceptionMessageCap : Nat := 64 * 1024

/-- Cap on the stack trace of an exception. -/
def exceptionStackTraceCap : Nat := 2 ^ 20

/-- The error an Exception frame surfaces as; empty texts are left out. -/
def Exception.intoError (exc : Exception) : Error :=
  let message := truncateOnCharBoundary exc.message exceptionMessageCap
  let stackTrace := truncateOnCharBoundary exc.stackTrace exceptionStackTraceCap
  .serverException exc.code (if exc.name.isEmpty then none else some exc.name) message
    (if stackTrace.isEmpty then none else some stackTrace)

/-- A decoded packet of the server.  A block without rows is a `data` packet, one with
rows a `dataBlock`. -/
inductive ServerPacket
  | data (numRows : Nat) (columns : List (String × String))
  | dataBlock (block : DecodedBlock)
  | exception (exc : Exception)
  | progress
  | profileInfo
  | pong
  | endOfStream
  | log
  | tableColumns
  | profileEvents
  | timezoneUpdate (timezone : String)

/-- What the reader task hands to the actor. -/
inductive ReaderMessage
  | packet (packet : ServerPacket)
  | error (error : Error)

/-- A statement with its settings and parameters. -/
structure Query where
  queryId : String
  query : String
  extraSettings : List (String × String) := []
  params : List (String × String) := []
  deriving DecidableEq

/-- What the actor writes to the socket, one packet a call. -/
inductive ClientPacket
  | query (query : Query)
  /-- The block without columns that ends the input. -/
  | emptyBlock
  | dataBlock (columnBytes : Bytes) (numColumns numRows : Nat)
  | cancel
  | ping
  deriving DecidableEq

end DfeClickhouse.Tcp
