/-
  The tokens of lenient JSON.

  White space and comments stand between tokens.  Strings take either quote; numbers may have a plus
  sign or be hexadecimal; bare words are allowed.  `tokens` gives the tokens of a text up to the
  first place that is none, and the failure at that place.
-/
import TypeTree.Json.Reader
import TypeTree.Jsonc.Error
import TypeTree.Text.Alphanumeric
import TypeTree.Text.Blank

namespace TypeTree.Jsonc

/-- What a token says.  Numbers and words are kept as they were written. -/
inductive Symbol where
  | openBrace
  | closeBrace
  | openBracket
  | closeBracket
  | comma
  | colon
  | str (s : String)
  | word (s : String)
  | num (s : String)
  | bool (b : Bool)
  | null
  deriving DecidableEq, Repr

/-- A token, and how many characters of the text were left where it starts. -/
structure Token where
  symbol : Symbol
  left : Nat
  deriving DecidableEq, Repr

/-- What scanning gives: a failure, or a value and a text of fewer than `n` characters. -/
abbrev Scanning (α : Type) (n : Nat) := Text.Scanning Failure α n

/-! ## Between tokens -/

/-- The text after the end of a block comment. -/
def closeComment? : List Char → Option (List Char)
  | [] => none
  | '*' :: '/' :: s => some s
  | _ :: s => closeComment? s

theorem length_closeComment?_lt {s t : List Char} (h : closeComment? s = some t) :
    t.length < s.length := by
  induction s using closeComment?.induct with
  | case1 => simp [closeComment?] at h
  | case2 s =>
    have : s = t := by simpa [closeComment?] using h
    subst this
    simp only [List.length_cons]
    omega
  | case3 c s _ ih =>
    rw [closeComment?] at h
    · have := ih h
      simp only [List.length_cons]
      omega
    · assumption

/-- White space and comments. -/
def trivia (s : List Char) : Scanning Unit (s.length + 1) :=
  have h₁ := Text.length_dropWhile_le Text.isBlank s
  match e : s.dropWhile Text.isBlank with
  | '/' :: '/' :: t =>
    have h₂ := Text.length_dropWhile_le (· != '\n') t
    (trivia (t.dropWhile (· != '\n'))).loosen (by
      rw [e] at h₁; simp only [List.length_cons] at h₁; omega)
  | '/' :: '*' :: t =>
    match h : closeComment? t with
    | some u =>
      have h₂ := length_closeComment?_lt h
      (trivia u).loosen (by rw [e] at h₁; simp only [List.length_cons] at h₁; omega)
    | none => .error ⟨.unclosedComment, t.length + 2⟩
  | t => Text.Scanning.loosen (by rw [e] at h₁; omega) (.stay () t)
termination_by s.length
decreasing_by all_goals rw [e] at h₁; simp only [List.length_cons] at h₁; omega

/-! ## Strings -/

/-- Four hexadecimal digits and their value; a failure is reported at `left`. -/
def hexQuad (left : Nat) (s : List Char) : Scanning (List Char × Nat) (s.length + 1) :=
  match Text.hexQuad? s with
  | some q => .ok q
  | none => .error ⟨.expectedHexDigits, left⟩

/-- The second half of a surrogate pair, whose first half is given; a failure is reported at
    `left`. -/
def lowSurrogate (left : Nat) (high : List Char × Nat) (s : List Char) :
    Scanning Char (s.length + 1) :=
  match s with
  | '\\' :: 'u' :: t =>
    match hexQuad left t with
    | .error e => .error e
    | .ok q =>
      if Text.isLowSurrogate q.value.2 then
        Text.Scanning.widen (.widen (.ok (q.map fun low => Text.ofSurrogates high.2 low.2)))
      else .error ⟨.invalidCode (String.ofList high.1) .highWithoutLow, left⟩
  | _ => .error ⟨.invalidCode (String.ofList high.1) .high, left⟩

/-- A character given by its code, after `\u`; a failure is reported at `left`. -/
def codeEscape (left : Nat) (s : List Char) : Scanning Char (s.length + 1) :=
  match hexQuad left s with
  | .error e => .error e
  | .ok q =>
    if Text.isLowSurrogate q.value.2 then
      .error ⟨.invalidCode (String.ofList q.value.1) .low, left⟩
    else if Text.isHighSurrogate q.value.2 then (lowSurrogate left q.value q.rest).loosen q.shorter
    else .ok (q.map fun v => Char.ofNat v.2)

/-- A character behind a backslash, in a string that `quote` closes; a failure is reported at
    `left`. -/
def escaped (quote : Char) (left : Nat) (c : Char) (t : List Char) :
    Scanning Char (c :: t).length :=
  match c with
  | '"' => if quote = '"' then .next '"' c t else .error ⟨.doubleQuoteInSingle, left⟩
  | '\'' => if quote = '"' then .error ⟨.singleQuoteInDouble, left⟩ else .next '\'' c t
  | '\\' => .next '\\' c t
  | '/' => .next '/' c t
  | 'b' => .next '\x08' c t
  | 'f' => .next '\x0c' c t
  | 'n' => .next '\n' c t
  | 'r' => .next '\r' c t
  | 't' => .next '\t' c t
  | 'u' => codeEscape left t
  | _ => .error ⟨.invalidEscape, left⟩

/-- The characters of a string up to the quote that closes it, which is read too.  A string that is
    not closed is reported at `left`, where it was opened. -/
def stringBody (quote : Char) (left : Nat) (s : List Char) : Scanning (List Char) s.length :=
  match s with
  | [] => .error ⟨.unclosedString, left⟩
  | '\\' :: [] => .error ⟨.unclosedString, left⟩
  | '\\' :: c :: t =>
    match escaped quote (t.length + 2) c t with
    | .error e => .error e
    | .ok ⟨d, rest, h⟩ =>
      ((stringBody quote left rest).map (d :: ·)).loosen (by
        simp only [List.length_cons] at h ⊢; omega)
  | c :: t =>
    if c = quote then .next [] c t else ((stringBody quote left t).map (c :: ·)).widen
termination_by s.length
decreasing_by
  · simp only [List.length_cons] at h ⊢
    omega
  · simp only [List.length_cons]
    omega

/-! ## Numbers

A number is kept as it was written, so its readers only say where it ends. -/

/-- A row of characters that are all digits in some sense, of which there must be one at least. -/
def row (p : Char → Bool) (cause : Cause) (s : List Char) : Scanning Unit s.length :=
  match s with
  | [] => .error ⟨cause, 0⟩
  | c :: t => if p c then .nextWhile () p c t else .error ⟨cause, t.length + 1⟩

/-- A fraction, if there is one. -/
def fraction (s : List Char) : Scanning Unit (s.length + 1) :=
  match s with
  | '.' :: t => (row isDigit .expectedDigit t).widen.widen
  | s => .stay () s

/-- An exponent after its letter. -/
def signedExponent (s : List Char) : Scanning Unit s.length :=
  match s with
  | '+' :: t => (row isDigit .expectedDigit t).widen
  | '-' :: t => (row isDigit .expectedDigit t).widen
  | s => row isDigit .expectedExponent s

/-- An exponent, if there is one. -/
def exponent (s : List Char) : Scanning Unit (s.length + 1) :=
  match s with
  | 'e' :: t => (signedExponent t).widen.widen
  | 'E' :: t => (signedExponent t).widen.widen
  | s => .stay () s

/-- A fraction and an exponent. -/
def decimalTail (s : List Char) : Scanning Unit (s.length + 1) :=
  match fraction s with
  | .error e => .error e
  | .ok q => (exponent q.rest).loosen q.shorter

/-- Hexadecimal digits, of which there must be one at least. -/
def hexTail (s : List Char) : Scanning Unit s.length :=
  row (fun c => (Text.hexDigit? c).isSome) .expectedDigit s

/-- A number without its sign.  After a leading zero it goes on only with `x`, a fraction or an
    exponent. -/
def unsigned (s : List Char) : Scanning Unit s.length :=
  match s with
  | '0' :: 'x' :: t => (hexTail t).widen.widen
  | '0' :: 'X' :: t => (hexTail t).widen.widen
  | '0' :: t => decimalTail t
  | s =>
    match row isDigit .expectedDigitAfterSign s with
    | .error e => .error e
    | .ok q => (decimalTail q.rest).loosen q.shorter

/-- A number. -/
def number (s : List Char) : Scanning Unit s.length :=
  match s with
  | '-' :: t => (unsigned t).widen
  | '+' :: t => (unsigned t).widen
  | s => unsigned s

/-! ## Words -/

/-- `word` stands at the front of a text, and no letter or number follows it. -/
def isKeyword (word s : List Char) : Bool :=
  word.isPrefixOf s && !((s.drop word.length).head?.any Text.isAlphanumeric)

/-- `c` may stand in a bare word. -/
def isWordChar (c : Char) : Bool :=
  Text.isAlphanumeric c || c == '-' || c == '_'

/-- A bare word ends before white space or a colon. -/
def endsWord (c : Char) : Bool :=
  Text.isBlank c || c == ':'

/-- A keyword or a bare word, from the front of a text that starts with `c`. -/
def word (c : Char) (t : List Char) : Scanning Symbol (c :: t).length :=
  let is (sym : Symbol) (more : Nat) : Scanning Symbol (c :: t).length :=
    .ok ⟨sym, t.drop more, by simp only [List.length_drop, List.length_cons]; omega⟩
  if isKeyword ['t', 'r', 'u', 'e'] (c :: t) then is (.bool true) 3
  else if isKeyword ['f', 'a', 'l', 's', 'e'] (c :: t) then is (.bool false) 4
  else if isKeyword ['n', 'u', 'l', 'l'] (c :: t) then is .null 3
  else
    let letters := c :: t.takeWhile (!endsWord ·)
    if !endsWord c && letters.all isWordChar then
      .nextWhile (.word (String.ofList letters)) (!endsWord ·) c t
    else .error ⟨.unexpectedToken, t.length + 1⟩

/-! ## Tokens -/

/-- The symbol at the front of a text that starts with `c`. -/
def symbol (c : Char) (t : List Char) : Scanning Symbol (c :: t).length :=
  match c with
  | '{' => .next .openBrace c t
  | '}' => .next .closeBrace c t
  | '[' => .next .openBracket c t
  | ']' => .next .closeBracket c t
  | ',' => .next .comma c t
  | ':' => .next .colon c t
  | '/' => .error ⟨.unexpectedToken, t.length + 1⟩
  | c =>
    if c = '"' ∨ c = '\'' then
      ((stringBody c (t.length + 1) t).map fun cs => .str (String.ofList cs)).widen
    else if c = '-' ∨ c = '+' ∨ isDigit c then
      match number (c :: t) with
      | .error e => .error e
      | .ok q =>
        let written := (c :: t).take (t.length + 1 - q.rest.length)
        .ok (q.map fun _ => .num (String.ofList written))
    else word c t

/-- The tokens of a text, as far as they go. -/
structure Lexed where
  tokens : List Token
  /-- why the tokens end, if not with the text -/
  failure : Option Failure

/-- The tokens of a text. -/
def tokens (s : List Char) : Lexed :=
  match trivia s with
  | .error f => ⟨[], some f⟩
  | .ok ⟨_, [], _⟩ => ⟨[], none⟩
  | .ok ⟨_, c :: t, _h⟩ =>
    match symbol c t with
    | .error f => ⟨[], some f⟩
    | .ok ⟨sym, rest, h⟩ =>
      let more := tokens rest
      ⟨⟨sym, t.length + 1⟩ :: more.tokens, more.failure⟩
termination_by s.length
decreasing_by simp only [List.length_cons] at _h h; omega

end TypeTree.Jsonc
