/-
  The room that a growing text takes.

  A text is put together piece by piece, and bytes are set aside for it ahead of the pieces.  Where
  the next piece does not fit any more, the room is made as great as it has to be, but at least twice
  as great as it was.  There cannot be more room than the greatest SIGNED 64-bit word says.  Since
  room is doubled, a text can be refused long before it has that length: once more than half of the
  room is there, it cannot be doubled any more.
-/
import TypeTree.Overflow

namespace TypeTree.Report

namespace Buffer

/-- The most bytes that can be set aside. -/
def limit : Nat := 0x7fffffffffffffff

/-- The room in which `needed` bytes fit: what is there if it is enough, and otherwise at least twice
    as much, and never less than 8 bytes. -/
def roomFor (room needed : Nat) : Nat :=
  if needed ≤ room then room else max 8 (max (2 * room) needed)

theorem le_roomFor (room needed : Nat) : needed ≤ roomFor room needed := by
  unfold roomFor
  split <;> omega

end Buffer

/-- The bytes that are set aside for a text, and how many of them are used. -/
structure Buffer where
  room : Nat := 0
  used : Nat := 0
  used_le : used ≤ room := by decide
  room_le : room ≤ Buffer.limit := by decide

namespace Buffer

/-- Makes room for a piece of this many bytes, and uses it. -/
def push (b : Buffer) (bytes : Nat) : Except Overflow Buffer :=
  if h : roomFor b.room (b.used + bytes) ≤ limit then
    .ok ⟨roomFor b.room (b.used + bytes), b.used + bytes, le_roomFor _ _, h⟩
  else .error .capacity

/-- Makes room for pieces of these sizes, one after another. -/
def pushAll (b : Buffer) : List Nat → Except Overflow Buffer
  | [] => .ok b
  | bytes :: more =>
    match b.push bytes with
    | .error o => .error o
    | .ok next => next.pushAll more

end Buffer

end TypeTree.Report
