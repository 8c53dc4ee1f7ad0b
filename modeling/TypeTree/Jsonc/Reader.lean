/-
  Reading lenient JSON.

  Commas between items and between members may be left out, and one may follow the last; bare words
  and numbers may be keys.  There is no limit on nesting.  Numbers are those of strict JSON, but may
  have a plus sign or be hexadecimal; one that is out of range is kept as the text it was written
  as.
-/
import TypeTree.Jsonc.Token

namespace TypeTree.Jsonc

/-! ## Numbers -/

/-- The greatest signed 64-bit integer. -/
def hexMax : Nat := 0x7FFFFFFFFFFFFFFF

/-- The value of a number as it was written. -/
def numberValue (text : String) : Json :=
  match text.toList with
  | '-' :: '0' :: 'x' :: digits => hex true digits
  | '-' :: '0' :: 'X' :: digits => hex true digits
  | '+' :: '0' :: 'x' :: digits => hex false digits
  | '+' :: '0' :: 'X' :: digits => hex false digits
  | '0' :: 'x' :: digits => hex false digits
  | '0' :: 'X' :: digits => hex false digits
  | '+' :: cs => decimal cs
  | cs => decimal cs
where
  /-- A hexadecimal number. -/
  hex (negative : Bool) (digits : List Char) : Json :=
    match Text.hexValue? digits with
    | some v =>
      if v ≤ hexMax then Json.int (if negative then -(v : Int) else v) else .str text
    | none => .str text
  /-- A decimal number. -/
  decimal (cs : List Char) : Json :=
    match Json.number cs with
    | .ok ⟨n, [], _⟩ => .num n
    | _ => .str text

/-! ## Values

A list of tokens may have ended with a failure instead of the end of the text; whoever reaches its
end reports that failure. -/

/-- Something read from the front of a list of tokens, and the tokens after it, at most `n`. -/
structure Taken (α : Type) (n : Nat) where
  value : α
  rest : List Token
  bound : rest.length ≤ n

/-- What reading tokens gives. -/
abbrev Taking (α : Type) (n : Nat) := Except Failure (Taken α n)

/-- Changes the value and loosens the bound. -/
def Taking.map {α β : Type} {n m : Nat} (f : α → β) (h : n ≤ m) : Taking α n → Taking β m
  | .ok t => .ok ⟨f t.value, t.rest, Nat.le_trans t.bound h⟩
  | .error e => .error e

/-- Fails at the end of the tokens: with the failure they ended with, or for want of more. -/
def ending {α : Type} (failure : Option Failure) (otherwise : Failure) : Except Failure α :=
  .error (failure.getD otherwise)

/-- The tokens after an optional comma. -/
def skipComma : List Token → List Token
  | ⟨.comma, _⟩ :: ts => ts
  | ts => ts

theorem length_skipComma_le (ts : List Token) : (skipComma ts).length ≤ ts.length := by
  unfold skipComma
  split
  · exact Nat.le_succ _
  · exact Nat.le_refl _

/-- The key that a symbol can be: a string, a bare word, or a number as it was written. -/
def key? : Symbol → Option String
  | .str s | .word s | .num s => some s
  | _ => none

mutual

/-- The value that starts with token `t`. -/
def value (failure : Option Failure) (t : Token) (ts : List Token) : Taking Json ts.length :=
  let is (j : Json) : Taking Json ts.length := .ok ⟨j, ts, Nat.le_refl _⟩
  match t.symbol with
  | .null => is .null
  | .bool b => is (.bool b)
  | .str s => is (.str s)
  | .num s => is (numberValue s)
  | .openBracket => (items failure t.left ts).map .arr (Nat.le_refl _)
  | .openBrace => (members failure t.left ts).map (fun ms => .obj (Dict.ofPairs ms)) (Nat.le_refl _)
  | .closeBracket => .error ⟨.unexpectedCloseBracket, t.left⟩
  | .closeBrace => .error ⟨.unexpectedCloseBrace, t.left⟩
  | .comma => .error ⟨.unexpectedComma, t.left⟩
  | .colon => .error ⟨.unexpectedColon, t.left⟩
  | .word _ => .error ⟨.unexpectedWord, t.left⟩
termination_by 2 * ts.length + 1

/-- The items of an array, up to the bracket that closes it; it was opened at `left`. -/
def items (failure : Option Failure) (left : Nat) (ts : List Token) :
    Taking (List Json) ts.length :=
  match ts with
  | [] => ending failure ⟨.unclosedArray, left⟩
  | t :: ts =>
    if t.symbol = .closeBracket then .ok ⟨[], ts, Nat.le_succ _⟩
    else
      match value failure t ts with
      | .error e => .error e
      | .ok ⟨v, us, h⟩ =>
        have h' := length_skipComma_le us
        (items failure left (skipComma us)).map (v :: ·) (by simp only [List.length_cons]; omega)
termination_by 2 * ts.length

/-- The members of an object, up to the brace that closes it; it was opened at `left`. -/
def members (failure : Option Failure) (left : Nat) (ts : List Token) :
    Taking (List (String × Json)) ts.length :=
  match ts with
  | [] => ending failure ⟨.unclosedObject, left⟩
  | t :: ts =>
    match key? t.symbol with
    | none =>
      if t.symbol = .closeBrace then .ok ⟨[], ts, Nat.le_succ _⟩
      else .error ⟨.notAKey, t.left⟩
    | some key =>
      match ts with
      | [] => ending failure ⟨.expectedColon, 0⟩
      | ⟨.colon, _⟩ :: [] => ending failure ⟨.expectedValue, 0⟩
      | ⟨.colon, _⟩ :: u :: us =>
        match value failure u us with
        | .error e => .error e
        | .ok ⟨v, vs, h⟩ =>
          have h' := length_skipComma_le vs
          (members failure left (skipComma vs)).map ((key, v) :: ·)
            (by simp only [List.length_cons]; omega)
      | u :: _ => .error ⟨.expectedColon, u.left⟩
termination_by 2 * ts.length

end

/-- The value of a list of tokens; none if there are no tokens. -/
def root (lexed : Lexed) : Except Failure (Option Json) :=
  match lexed.tokens with
  | [] =>
    match lexed.failure with
    | none => .ok none
    | some f => .error f
  | t :: ts =>
    match value lexed.failure t ts with
    | .error f => .error f
    | .ok ⟨_, u :: _, _⟩ => .error ⟨.secondValue, u.left⟩
    | .ok ⟨v, [], _⟩ =>
      match lexed.failure with
      | none => .ok (some v)
      | some f => .error f

/-- Reads a lenient JSON text.  There is no document if there is nothing but white space and
    comments; a document is in normal form. -/
def read (text : String) : Except ReadError (Option Json) :=
  match root (tokens text.toList) with
  | .ok j => .ok j
  | .error f => .error (f.locate text.toList)

end TypeTree.Jsonc
