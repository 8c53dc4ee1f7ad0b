/-
  Reports as plain text.

  A trace has one line for each event, indented by depth.  It must fit the machine in two ways.  The
  width of an indentation is a product of 64-bit words, and neither an indentation nor the whole text
  can be longer than the greatest SIGNED 64-bit word.  The whole text grows piece by piece and must
  find room for every piece (`Buffer`).  A trace that does not fit has no report (`Overflow`).
-/
import TypeTree.Config
import TypeTree.Report.Buffer
import TypeTree.Schema
import TypeTree.Stats
import TypeTree.Trace

namespace TypeTree.Report.Text

/-- The number of spaces before a line at this depth. -/
def indentation (indent : UInt64) (depth : Nat) : Except Overflow Nat :=
  let width := depth * indent.toNat
  if 0x10000000000000000 ≤ width then .error .product
  else if Buffer.limit < width then .error .capacity
  else .ok width

/-- The pieces of a line after its indentation, as they are written one after another: the phase, the
    tag and, where values are shown, the value, with a space between, and the line break. -/
def linePieces (c : Config) (l : Line) : List String :=
  [l.phase.word, " ", l.tag] ++
    (match l.value?.filter fun _ => c.showValues with
      | some value => [" ", value]
      | none => []) ++ ["\n"]

/-- The lines of a trace, for which `b` has room already.  Where leaves are not shown they are
    skipped, and it does not matter how wide they would be. -/
def lines (c : Config) (b : Buffer) : List Line → Except Overflow (List Char)
  | [] => .ok []
  | l :: ls =>
    if l.phase = .leave ∧ c.leaveEvents = false then lines c b ls
    else
      match indentation c.indent l.depth with
      | .error o => .error o
      | .ok width =>
        match b.pushAll (width :: (linePieces c l).map String.utf8ByteSize) with
        | .error o => .error o
        | .ok next =>
          -- nothing is written out before there is room for all of it
          match lines c next ls with
          | .error o => .error o
          | .ok more =>
            .ok (List.replicate width ' ' ++ (linePieces c l).flatMap String.toList ++ more)

/-- A trace. -/
def trace (c : Config) (ls : List Line) : Except Overflow String :=
  (lines c {} ls).map String.ofList

/-- Greater counts come first; equal counts are ordered by tag. -/
def precedes (a b : String × Nat) : Bool :=
  decide (b.2 < a.2) || (a.2 == b.2 && decide (a.1 ≤ b.1))

/-- A text with spaces after it, up to a width. -/
def padded (width : Nat) (s : String) : List Char :=
  s.toList ++ List.replicate (width - s.length) ' '

/-- The counts by tag, as the rows of a table. -/
def table (types : Dict Nat) : List (List Char) :=
  let rows := types.mergeSort precedes
  let width := (rows.map (·.1.utf8ByteSize)).foldl max 0
  rows.map fun (tag, count) => padded width tag ++ [' ', '|', ' '] ++ Nat.toDigits 10 count

/-- Statistics: the totals, an empty line, and a table of the counts. -/
def stats (s : Stats) : String :=
  "Nodes: " ++ Nat.repr s.nodes ++ "\nDepth: " ++ Nat.repr s.depth ++ "\n\n" ++
    String.ofList ((table s.types).flatMap (· ++ ['\n']))

/-- The tag of a kind, and its slots on lines of their own below it. -/
def kind (k : Kind) : List String :=
  k.tag :: k.slots.map fun slot => "  " ++ slot.property ++ ": " ++ slot.shape.mark

/-- The schema of some kinds. -/
def schema (ks : List Kind) : String :=
  String.join ((ks.flatMap kind).map (· ++ "\n"))

end TypeTree.Report.Text
