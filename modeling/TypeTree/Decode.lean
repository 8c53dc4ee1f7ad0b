/-
  Decoding JSON documents into values of other types.

  A document that does not decode has a cause (`DecodeError`): what was found, and what was wanted
  in its place.  Where several things are wrong, the first one met counts: members of an object are
  met in their order, items of an array from the first.
-/
import TypeTree.Json.Gist
import TypeTree.Kind
import TypeTree.Span

namespace TypeTree

/-- What a decoder asks for. -/
inductive Wanted where
  | unit
  | boolean
  | word32
  | word64
  | pair
  | fewerItems
  | variant
  | singleMember
  | config
  deriving DecidableEq, Repr

/-- The wording of what is asked for, to follow "expected". -/
def Wanted.phrase : Wanted → String
  | unit => "unit"
  | boolean => "a boolean"
  | word32 => "u32"
  | word64 => "usize"
  | pair => "an array of length 2"
  | fewerItems => "fewer elements in array"
  | variant => "string or map"
  | singleMember => "map with a single key"
  | config => "struct WalkConfig"

/-- Why a document does not decode. -/
inductive DecodeError where
  | wrongType (found : Json) (wanted : Wanted)
  | wrongValue (found : Json) (wanted : Wanted)
  | wrongLength (length : Nat) (wanted : Wanted)
  | unknownField (name : String) (known : List String)
  | unknownVariant (name : String) (known : List String)

namespace DecodeError

/-- A name between backticks. -/
def ticked (name : String) : String :=
  "`" ++ name ++ "`"

/-- The names to choose from. -/
def choice : List String → String
  | [a, b] => ticked a ++ " or " ++ ticked b
  | names => "one of " ++ ", ".intercalate (names.map ticked)

/-- The wording of an error. -/
def message : DecodeError → String
  | wrongType found wanted => "invalid type: " ++ found.gist ++ ", expected " ++ wanted.phrase
  | wrongValue found wanted => "invalid value: " ++ found.gist ++ ", expected " ++ wanted.phrase
  | wrongLength length wanted =>
    "invalid length " ++ Nat.repr length ++ ", expected " ++ wanted.phrase
  | unknownField name known => "unknown field " ++ ticked name ++ ", expected " ++ choice known
  | unknownVariant name known => "unknown variant " ++ ticked name ++ ", expected " ++ choice known

end DecodeError

/-- What decoding gives. -/
abbrev Decoded (α : Type) := Except DecodeError α

namespace Json

/-! ## Scalars -/

/-- `null`, which stands for no value at all. -/
def toUnit : Json → Decoded Unit
  | null => .ok ()
  | j => .error (.wrongType j .unit)

/-- A truth value. -/
def toBool : Json → Decoded Bool
  | bool b => .ok b
  | j => .error (.wrongType j .boolean)

/-- An integer of 32 bits, without sign. -/
def toWord32 : Json → Decoded UInt32
  | num (.int n) =>
    if 0 ≤ n ∧ n < 0x100000000 then .ok (UInt32.ofNat n.toNat)
    else .error (.wrongValue (num (.int n)) .word32)
  | j => .error (.wrongType j .word32)

/-- An integer of 64 bits, without sign. -/
def toWord64 : Json → Decoded UInt64
  | num (.int n) =>
    if 0 ≤ n ∧ n < 0x10000000000000000 then .ok (UInt64.ofNat n.toNat)
    else .error (.wrongValue (num (.int n)) .word64)
  | j => .error (.wrongType j .word64)

/-! ## Named alternatives -/

/-- One of several named values: the name itself, or an object whose only member has the name as
    its key and `null` as its value. -/
def toVariant {α : Type} (known : List (String × α)) : Json → Decoded α
  | str s => named s
  | obj [(key, value)] =>
    match named key with
    | .error e => .error e
    | .ok a => value.toUnit.map fun _ => a
  | obj members => .error (.wrongValue (obj members) .singleMember)
  | j => .error (.wrongType j .variant)
where
  /-- The value of a name. -/
  named (s : String) : Decoded α :=
    match known.lookup s with
    | some a => .ok a
    | none => .error (.unknownVariant s (known.map Prod.fst))

/-- A kind, by its tag. -/
def toKind (j : Json) : Decoded Kind :=
  j.toVariant (Kind.all.map fun k => (k.tag, k))

/-! ## Spans -/

/-- A span, as an array of its two ends. -/
def toSpan : Json → Decoded Span
  | arr [] => .error (.wrongLength 0 .pair)
  | arr [first] =>
    match first.toWord32 with
    | .error e => .error e
    | .ok _ => .error (.wrongLength 1 .pair)
  | arr (first :: second :: more) =>
    match first.toWord32, second.toWord32 with
    | .error e, _ => .error e
    | .ok _, .error e => .error e
    | .ok start, .ok stop =>
      if more.isEmpty then .ok ⟨start, stop⟩
      else .error (.wrongLength (more.length + 2) .fewerItems)
  | j => .error (.wrongType j .pair)

end Json

end TypeTree
