/-
  Why a lenient JSON text cannot be read, and where.

  Lines and columns count from 1, and columns count characters.
-/

namespace TypeTree.Jsonc

/-- How the two halves of a surrogate pair fail to meet. -/
inductive Unpaired where
  | high
  | highWithoutLow
  | low
  deriving DecidableEq, Repr

/-- The wording of an unpaired half. -/
def Unpaired.phrase : Unpaired → String
  | high => "unpaired high surrogate"
  | highWithoutLow => "high surrogate not followed by low surrogate"
  | low => "unpaired low surrogate"

/-- What is wrong with a text. -/
inductive Cause where
  | unclosedComment
  | unexpectedToken
  | doubleQuoteInSingle
  | singleQuoteInDouble
  | invalidEscape
  | expectedHexDigits
  | invalidCode (digits : String) (reason : Unpaired)
  | unclosedString
  | expectedDigit
  | expectedDigitAfterSign
  | expectedExponent
  | unexpectedCloseBracket
  | unexpectedCloseBrace
  | unexpectedComma
  | unexpectedColon
  | unexpectedWord
  | secondValue
  | unclosedObject
  | unclosedArray
  | notAKey
  | expectedColon
  | expectedValue
  deriving DecidableEq, Repr

/-- The wording of a cause. -/
def Cause.message : Cause → String
  | unclosedComment => "Unterminated comment block"
  | unexpectedToken => "Unexpected token"
  | doubleQuoteInSingle => "Invalid escape in single quote string"
  | singleQuoteInDouble => "Invalid escape in double quote string"
  | invalidEscape => "Invalid escape"
  | expectedHexDigits => "Expected four hex digits"
  | invalidCode digits reason =>
    "Invalid unicode escape sequence. '" ++ digits ++ " (" ++ reason.phrase ++
      ")' is not a valid UTF8 character"
  | unclosedString => "Unterminated string literal"
  | expectedDigit => "Expected digit"
  | expectedDigitAfterSign => "Expected digit following negative sign"
  | expectedExponent => "Expected plus, minus, or digit in number literal"
  | unexpectedCloseBracket => "Unexpected close bracket"
  | unexpectedCloseBrace => "Unexpected close brace"
  | unexpectedComma => "Unexpected comma"
  | unexpectedColon => "Unexpected colon"
  | unexpectedWord => "Unexpected word"
  | secondValue => "Text cannot contain more than one JSON value"
  | unclosedObject => "Unterminated object"
  | unclosedArray => "Unterminated array"
  | notAKey => "Unexpected token in object"
  | expectedColon => "Expected colon after the string or word in object property"
  | expectedValue => "Expected value after colon in object property"

/-- A failure while reading: the cause, and how many characters of the text were left from the
    place of the failure on. -/
structure Failure where
  cause : Cause
  left : Nat
  deriving DecidableEq, Repr

/-- Why a text cannot be read. -/
structure ReadError where
  cause : Cause
  line : Nat
  column : Nat
  deriving DecidableEq, Repr

/-- The error that a failure is in a given text. -/
def Failure.locate (f : Failure) (text : List Char) : ReadError :=
  let before := text.take (text.length - f.left)
  ⟨f.cause, before.count '\n' + 1, (before.reverse.takeWhile (· != '\n')).length + 1⟩

/-- The wording of an error. -/
def ReadError.message (e : ReadError) : String :=
  e.cause.message ++ " on line " ++ Nat.repr e.line ++ " column " ++ Nat.repr e.column

end TypeTree.Jsonc
