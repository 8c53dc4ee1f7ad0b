/-
  Reading JSON text.

  The grammar is the strict one, and at most 127 arrays and objects may be open at once.  The loops
  over items and members end because each turn leaves a shorter text, and nesting ends with the
  levels that are left.

  A failure is reported either where reading stopped, or one byte further on, when the offending
  byte was only looked at.

  An object may stand for a document that is given as text: its only member then has the key
  `embedKey`, and the text as a string.  The text is read on its own, with levels of its own, and an
  error in it is reported by its place in that text.
-/
import TypeTree.Json.Error
import TypeTree.Json.Numeral
import TypeTree.Text.Hex
import TypeTree.Text.Scanned

namespace TypeTree.Json

/-- What reading gives: a failure, or a value and a text of fewer than `n` characters. -/
abbrev Reading (α : Type) (n : Nat) := Text.Scanning Failure α n

namespace Reading

variable {α : Type} {n : Nat}

/-- Fails where reading stopped. -/
def stop (cause : Cause) (unread : List Char) : Reading α n :=
  .error (.here cause unread 0)

/-- Fails at the next byte. -/
def refuse (cause : Cause) (unread : List Char) : Reading α n :=
  .error (.here cause unread 1)

end Reading

open Reading

/-! ## White space and literals -/

/-- The four characters that may stand between any two parts. -/
def isSpace (c : Char) : Bool :=
  c == ' ' || c == '\n' || c == '\t' || c == '\r'

/-- The text after leading white space. -/
def skipSpace (s : List Char) : List Char :=
  s.dropWhile isSpace

theorem length_skipSpace_le (s : List Char) : (skipSpace s).length ≤ s.length :=
  Text.length_dropWhile_le isSpace s

/-- Expects the letters of `word`. -/
def literal {α : Type} (v : α) : (word s : List Char) → Reading α (s.length + 1)
  | [], s => .stay v s
  | _ :: _, [] => stop .endInValue []
  | w :: ws, c :: s => if c = w then (literal v ws s).widen else refuse .expectedLiteral (c :: s)

/-! ## Strings -/

/-- Four hexadecimal digits.  Fewer than four bytes are the end of the text; otherwise four bytes
    are read before they are refused. -/
def hexQuad (s : List Char) : Reading Nat (s.length + 1) :=
  match Text.hexQuad? s with
  | some q => .ok (q.map Prod.snd)
  | none => if byteLength s < 4 then stop .endInString [] else .error (.here .invalidEscape s 4)

/-- The second half of a surrogate pair, with the backslash before it. -/
def lowSurrogate (high : Nat) (s : List Char) : Reading Char (s.length + 1) :=
  match s with
  | [] => stop .endInString []
  | '\\' :: [] => stop .endInString []
  | '\\' :: 'u' :: t =>
    match hexQuad t with
    | .error e => .error e
    | .ok q =>
      if Text.isLowSurrogate q.value then
        Text.Scanning.widen (.widen (.ok (q.map (Text.ofSurrogates high))))
      else stop .unpairedSurrogate q.rest
  | '\\' :: t => refuse .brokenSurrogatePair t
  | t => refuse .brokenSurrogatePair t

/-- A character given by its code, after `\u`. -/
def codeEscape (s : List Char) : Reading Char (s.length + 1) :=
  match hexQuad s with
  | .error e => .error e
  | .ok q =>
    if Text.isLowSurrogate q.value then stop .unpairedSurrogate q.rest
    else if Text.isHighSurrogate q.value then (lowSurrogate q.value q.rest).loosen q.shorter
    else .ok (q.map Char.ofNat)

/-- A character behind a backslash. -/
def escaped (s : List Char) : Reading Char s.length :=
  match s with
  | [] => stop .endInString []
  | '"' :: t => .next '"' '"' t
  | '\\' :: t => .next '\\' '\\' t
  | '/' :: t => .next '/' '/' t
  | 'b' :: t => .next '\x08' 'b' t
  | 'f' :: t => .next '\x0c' 'f' t
  | 'n' :: t => .next '\n' 'n' t
  | 'r' :: t => .next '\r' 'r' t
  | 't' :: t => .next '\t' 't' t
  | 'u' :: t => codeEscape t
  | c :: t => refuse .invalidEscape (c :: t)

/-- The characters of a string up to its closing quote, which is read too. -/
def stringBody (s : List Char) : Reading (List Char) s.length :=
  match s with
  | [] => stop .endInString []
  | '"' :: t => .next [] '"' t
  | '\\' :: t =>
    match escaped t with
    | .error e => .error e
    | .ok ⟨c, rest, h⟩ =>
      ((stringBody rest).map (c :: ·)).loosen (by simp only [List.length_cons]; omega)
  | c :: t =>
    if c.toNat < 0x20 then refuse .controlInString (c :: t)
    else ((stringBody t).map (c :: ·)).widen
termination_by s.length
decreasing_by all_goals simp only [List.length_cons]; omega

/-- A string has no more characters than are written for it. -/
theorem length_add_length_lt_of_stringBody {s cs rest : List Char}
    (h : (stringBody s).view = .ok (cs, rest)) : cs.length + rest.length < s.length := by
  fun_induction stringBody s generalizing cs with
  | case1 => exact absurd h (by simp [stop, Text.Scanning.view])
  | case2 t =>
    obtain ⟨rfl, rfl⟩ : [] = cs ∧ t = rest := by simpa using h
    simp only [List.length_nil, List.length_cons]; omega
  | case3 t e he => exact absurd h (by simp [Text.Scanning.view])
  | case4 t c u hu he ih =>
    rw [Text.Scanning.view_loosen, Text.Scanning.view_map] at h
    cases hb : (stringBody u).view with
    | error e => rw [hb] at h; exact absurd h (by simp [Except.map])
    | ok p =>
      obtain ⟨ds, w⟩ := p
      rw [hb] at h
      obtain ⟨rfl, rfl⟩ : c :: ds = cs ∧ w = rest := by simpa [Except.map] using h
      have := ih hb
      simp only [List.length_cons]; omega
  | case5 c t hc hlt => exact absurd h (by simp [refuse, Text.Scanning.view])
  | case6 c t hc hb hlt ih =>
    rw [Text.Scanning.view_widen, Text.Scanning.view_map] at h
    cases hb : (stringBody t).view with
    | error e => rw [hb] at h; exact absurd h (by simp [Except.map])
    | ok p =>
      obtain ⟨ds, w⟩ := p
      rw [hb] at h
      obtain ⟨rfl, rfl⟩ : c :: ds = cs ∧ w = rest := by simpa [Except.map] using h
      have := ih hb
      simp only [List.length_cons]; omega

/-! ## Numbers -/

/-- The digits of the whole part: a zero alone, or a row that does not start with one. -/
def wholePart (s : List Char) : Reading (List Char) s.length :=
  match s with
  | [] => stop .endInValue []
  | '0' :: c :: t =>
    if isDigit c then refuse .invalidNumber (c :: t) else .next ['0'] '0' (c :: t)
  | c :: t =>
    if isDigit c then .nextWhile (c :: t.takeWhile isDigit) isDigit c t
    else refuse .invalidNumber (c :: t)

/-- The digits after a point, if there is one. -/
def fractionPart (s : List Char) : Reading (Option (List Char)) (s.length + 1) :=
  match s with
  | '.' :: [] => stop .endInValue []
  | '.' :: c :: t =>
    if isDigit c then
      Text.Scanning.widen (.widen (.nextWhile (some (c :: t.takeWhile isDigit)) isDigit c t))
    else refuse .invalidNumber (c :: t)
  | s => .stay none s

/-- The digits of an exponent, after its sign; `down` if that is a minus. -/
def exponentDigits (down : Bool) (s : List Char) : Reading (Option (Bool × List Char)) s.length :=
  match s with
  | [] => stop .endInValue []
  | c :: t =>
    if isDigit c then .nextWhile (some (down, c :: t.takeWhile isDigit)) isDigit c t
    else refuse .invalidNumber (c :: t)

/-- The sign and the digits of an exponent; a plus may be left out. -/
def signedExponent (s : List Char) : Reading (Option (Bool × List Char)) s.length :=
  match s with
  | '-' :: t => (exponentDigits true t).widen
  | '+' :: t => (exponentDigits false t).widen
  | s => exponentDigits false s

/-- An exponent, if there is one. -/
def exponentPart (s : List Char) : Reading (Option (Bool × List Char)) (s.length + 1) :=
  match s with
  | 'e' :: t => (signedExponent t).widen.widen
  | 'E' :: t => (signedExponent t).widen.widen
  | s => .stay none s

/-- A numeral without its sign. -/
def unsigned (negative : Bool) (s : List Char) : Reading Numeral s.length :=
  match wholePart s with
  | .error e => .error e
  | .ok ⟨whole, s₁, h₁⟩ =>
    match fractionPart s₁ with
    | .error e => .error e
    | .ok ⟨fraction, s₂, h₂⟩ =>
      ((exponentPart s₂).map (Numeral.mk negative whole fraction)).loosen (by omega)

/-- A numeral.  A sign must be followed by a digit. -/
def numeral (s : List Char) : Reading Numeral s.length :=
  match s with
  | '-' :: t => (unsigned true t).widen
  | s => unsigned false s

/-- A number.  It is out of range as soon as the digits read so far say so. -/
def number (s : List Char) : Reading Number s.length :=
  match numeral s with
  | .error e => .error e
  | .ok ⟨n, rest, h⟩ =>
    match n.value with
    | .ok v => .ok ⟨v, rest, h⟩
    | .error unread =>
      -- exponent digits are one byte each, so the unread ones count back from the rest
      stop .numberOutOfRange (List.replicate unread '0' ++ rest)

/-! ## Arrays and objects -/

/-- A reader of values. -/
abbrev ValueReader := (s : List Char) → Reading Json s.length

/-- The items of an array from the first one on, and the closing bracket. -/
def items (value : ValueReader) (s : List Char) : Reading (List Json) s.length :=
  match value s with
  | .error e => .error e
  | .ok ⟨v, s₁, h₁⟩ =>
    have h₂ := length_skipSpace_le s₁
    match e₂ : skipSpace s₁ with
    | [] => refuse .endInList []
    | ']' :: t =>
      Text.Scanning.loosen (by rw [e₂] at h₂; omega) (.next [v] ']' t)
    | ',' :: t =>
      have h₃ := length_skipSpace_le t
      match e₃ : skipSpace t with
      | [] => refuse .endInValue []
      | ']' :: u => refuse .trailingComma (']' :: u)
      | c :: u =>
        ((items value (c :: u)).map (v :: ·)).loosen (by
          rw [e₂, List.length_cons] at h₂; rw [e₃] at h₃; omega)
    | c :: t => refuse .expectedItemEnd (c :: t)
termination_by s.length
decreasing_by rw [e₂, List.length_cons] at h₂; rw [e₃] at h₃; omega

/-- An array, after its opening bracket. -/
def array (value : ValueReader) (s : List Char) : Reading (List Json) s.length :=
  have h := length_skipSpace_le s
  match e : skipSpace s with
  | [] => refuse .endInList []
  | ']' :: t => Text.Scanning.loosen (by rw [e] at h; exact h) (.next [] ']' t)
  | c :: t => (items value (c :: t)).loosen (by rw [e] at h; exact h)

/-- What a member holds, after its key and a colon. -/
def afterColon {α : Type} (content : (s : List Char) → Reading α s.length) (s : List Char) :
    Reading α s.length :=
  have h := length_skipSpace_le s
  match e : skipSpace s with
  | [] => refuse .endInObject []
  | ':' :: t => (content t).loosen (by rw [e, List.length_cons] at h; omega)
  | c :: t => refuse .expectedColon (c :: t)

/-- The members of an object, after the first key, and the closing brace. -/
def members (value : ValueReader) (key : List Char) (s : List Char) :
    Reading (List (String × Json)) s.length :=
  match afterColon value s with
  | .error e => .error e
  | .ok ⟨v, s₁, h₁⟩ =>
    have h₂ := length_skipSpace_le s₁
    match e₂ : skipSpace s₁ with
    | [] => refuse .endInObject []
    | '}' :: t =>
      Text.Scanning.loosen (by rw [e₂] at h₂; omega) (.next [(String.ofList key, v)] '}' t)
    | ',' :: t =>
      have h₃ := length_skipSpace_le t
      match e₃ : skipSpace t with
      | [] => refuse .endInValue []
      | '"' :: u =>
        match stringBody u with
        | .error e => .error e
        | .ok ⟨next, s₄, h₄⟩ =>
          ((members value next s₄).map ((String.ofList key, v) :: ·)).loosen (by
            rw [e₂, List.length_cons] at h₂; rw [e₃, List.length_cons] at h₃; omega)
      | '}' :: u => refuse .trailingComma ('}' :: u)
      | c :: u => refuse .keyNotString (c :: u)
    | c :: t => refuse .expectedMemberEnd (c :: t)
termination_by s.length
decreasing_by rw [e₂, List.length_cons] at h₂; rw [e₃, List.length_cons] at h₃; omega

/-! ## Scalars -/

/-- A value that is neither an array nor an object. -/
def scalar (s : List Char) : Reading Json s.length :=
  match s with
  | 'n' :: t => literal null ['u', 'l', 'l'] t
  | 't' :: t => literal (bool true) ['r', 'u', 'e'] t
  | 'f' :: t => literal (bool false) ['a', 'l', 's', 'e'] t
  | '"' :: t => ((stringBody t).map fun cs => str (String.ofList cs)).widen
  | [] => refuse .endInValue []
  | c :: t =>
    if c = '-' ∨ isDigit c then (number (c :: t)).map num else refuse .expectedValue (c :: t)

/-! ## Embedded texts -/

/-- The key of a member that holds the text of the document for which its object stands.  It counts
    only as the first key. -/
def embedKey : String := "$serde_json::private::RawValue"

/-- What reads an embedded text. -/
abbrev TextReader := List Char → Except ReadError Json

/-- The string that a value must be.  Anything else is read and refused, an array or object already
    at its bracket. -/
def text (s : List Char) : Reading (List Char) s.length :=
  have h := length_skipSpace_le s
  match e : skipSpace s with
  | '"' :: t => (stringBody t).loosen (by rw [e, List.length_cons] at h; omega)
  | '[' :: t => stop (.notText (arr [])) ('[' :: t)
  | '{' :: t => stop (.notText (obj [])) ('{' :: t)
  | t =>
    match scalar t with
    | .error e => .error e
    | .ok found => stop (.notText found.value) found.rest

/-- The brace that closes an object with a single member. -/
def closing {α : Type} (v : α) (s : List Char) : Reading α s.length :=
  have h := length_skipSpace_le s
  match e : skipSpace s with
  | [] => refuse .endInObject []
  | '}' :: t => Text.Scanning.loosen (by rw [e] at h; exact h) (.next v '}' t)
  | ',' :: t => refuse .trailingComma (',' :: t)
  | c :: t => refuse .trailingText (c :: t)

/-- An embedded document, after its key. -/
def embedded (inner : TextReader) (s : List Char) : Reading Json s.length :=
  match afterColon text s with
  | .error e => .error e
  | .ok ⟨cs, s₁, h₁⟩ =>
    match inner cs with
    | .error e => .error (.embedded e)
    | .ok j => (closing j s₁).loosen (Nat.le_of_lt h₁)

/-! ## Values -/

/-- An object, after its opening brace, or the document for which it stands. -/
def object (inner : TextReader) (value : ValueReader) (s : List Char) : Reading Json s.length :=
  have h := length_skipSpace_le s
  match e : skipSpace s with
  | [] => refuse .endInObject []
  | '}' :: t => Text.Scanning.loosen (by rw [e] at h; exact h) (.next (obj []) '}' t)
  | '"' :: t =>
    match stringBody t with
    | .error e => .error e
    | .ok ⟨key, s₁, h₁⟩ =>
      if String.ofList key = embedKey then
        (embedded inner s₁).loosen (by rw [e, List.length_cons] at h; omega)
      else
        ((members value key s₁).map fun ms => obj (Dict.ofPairs ms)).loosen (by
          rw [e, List.length_cons] at h; omega)
  | c :: t => refuse .keyNotString (c :: t)

/-- A value, with `levels` arrays and objects that may still be opened. -/
def value (inner : TextReader) (levels : Nat) (s : List Char) : Reading Json s.length :=
  have h := length_skipSpace_le s
  match e : skipSpace s with
  | '[' :: t =>
    match levels with
    | 0 => refuse .nestedTooDeep ('[' :: t)
    | below + 1 =>
      ((array (value inner below) t).map arr).loosen (by rw [e, List.length_cons] at h; omega)
  | '{' :: t =>
    match levels with
    | 0 => refuse .nestedTooDeep ('{' :: t)
    | below + 1 =>
      (object inner (value inner below) t).loosen (by rw [e, List.length_cons] at h; omega)
  | t => (scalar t).loosen (by rw [e] at h; exact h)

/-- How many arrays and objects may be open at once. -/
def levelLimit : Nat := 127

/-- A whole text: one value, and nothing but white space around it. -/
def document (inner : TextReader) (s : List Char) : Except Failure Json :=
  match value inner levelLimit s with
  | .error e => .error e
  | .ok ⟨v, rest, _⟩ =>
    match skipSpace rest with
    | [] => .ok v
    | c :: t => .error (.here .trailingText (c :: t) 1)

/-- Reads a JSON text.  An embedded text is shorter than the text that it stands in, since a string
    has no more characters than are written for it; so the last case is never met. -/
def readChars (s : List Char) : Except ReadError Json :=
  let inner : TextReader := fun t =>
    if t.length < s.length then readChars t else .error ⟨.endInValue, ⟨1, 0⟩⟩
  (document inner s).mapError (Failure.toError s)
termination_by s.length

/-- Reads a JSON text.  The document is in normal form. -/
def read (text : String) : Except ReadError Json :=
  readChars text.toList

end TypeTree.Json
