/-
  Why a text is not JSON, and where.

  A place in a text is given by a line, from 1, and a column, the number of BYTES of that line that
  come before the place in UTF-8.
-/
import TypeTree.Json.Gist

namespace TypeTree.Json

/-- What is wrong with a text. -/
inductive Cause where
  | endInValue
  | endInString
  | endInList
  | endInObject
  | expectedLiteral
  | expectedValue
  | expectedColon
  | expectedItemEnd
  | expectedMemberEnd
  | trailingComma
  | trailingText
  | keyNotString
  | controlInString
  | invalidEscape
  | unpairedSurrogate
  | brokenSurrogatePair
  | invalidNumber
  | numberOutOfRange
  | nestedTooDeep
  | notText (found : Json)

/-- The wording of a cause. -/
def Cause.message : Cause → String
  | endInValue => "EOF while parsing a value"
  | endInString => "EOF while parsing a string"
  | endInList => "EOF while parsing a list"
  | endInObject => "EOF while parsing an object"
  | expectedLiteral => "expected ident"
  | expectedValue => "expected value"
  | expectedColon => "expected `:`"
  | expectedItemEnd => "expected `,` or `]`"
  | expectedMemberEnd => "expected `,` or `\x7d`"
  | trailingComma => "trailing comma"
  | trailingText => "trailing characters"
  | keyNotString => "key must be a string"
  | controlInString => "control character (\\u0000-\\u001F) found while parsing a string"
  | invalidEscape => "invalid escape"
  | unpairedSurrogate => "lone leading surrogate in hex escape"
  | brokenSurrogatePair => "unexpected end of hex escape"
  | invalidNumber => "invalid number"
  | numberOutOfRange => "number out of range"
  | nestedTooDeep => "recursion limit exceeded"
  | notText found => "invalid type: " ++ found.gist ++ ", expected raw value"

/-- A line and a column. -/
structure Place where
  line : Nat
  column : Nat
  deriving DecidableEq, Repr

/-- The place `bytes` bytes further on in a text, from place `p`.  It may lie inside a character. -/
def Place.advance (p : Place) : List Char → Nat → Place
  | [], _ => p
  | c :: cs, bytes =>
    if bytes < c.utf8Size then ⟨p.line, p.column + bytes⟩
    else if c = '\n' then advance ⟨p.line + 1, 0⟩ cs (bytes - 1)
    else advance ⟨p.line, p.column + c.utf8Size⟩ cs (bytes - c.utf8Size)

/-- The number of bytes of a text in UTF-8. -/
def byteLength : List Char → Nat
  | [] => 0
  | c :: cs => c.utf8Size + byteLength cs

/-- Why a text is not JSON. -/
structure ReadError where
  cause : Cause
  place : Place

/-- The wording of an error. -/
def ReadError.message (e : ReadError) : String :=
  e.cause.message ++ " at line " ++ Nat.repr e.place.line ++ " column " ++ Nat.repr e.place.column

/-- A failure while reading. -/
inductive Failure where
  /-- the cause, the text that was still unread, and how many bytes into it the failure is
      reported; nothing is reported beyond the end -/
  | here (cause : Cause) (unread : List Char) (ahead : Nat)
  /-- an error in an embedded text, with its place in that text -/
  | embedded (e : ReadError)

/-- What a failure says of the whole text. -/
def Failure.toError (text : List Char) : Failure → ReadError
  | here cause unread ahead =>
    ⟨cause, Place.advance ⟨1, 0⟩ text (byteLength text - byteLength unread + ahead)⟩
  | embedded e => e

end TypeTree.Json
