/-
  Walks that take notes.

  A walk notes the kind of each node that it enters.  Where a node turns out to be faulty, the walk
  notes what is wrong at that node, before it gives up the nodes above it.  The notes stand beside
  the visitor's state, and neither the visitor nor the walk looks at them.
-/
import TypeTree.Stats
import TypeTree.Trace

namespace TypeTree

universe u v w

/-- Something that a walk notes. -/
inductive Note where
  /-- a node of this kind is entered -/
  | entered (kind : Kind)
  /-- no kind has the tag of the node at hand -/
  | unknownTag (tag : String)
  /-- the node at hand, of this kind, does not hold in this property what it must -/
  | malformed (kind : Kind) (property : String)
  deriving DecidableEq, Repr

/-- What is noted of a fault.  The shape that was asked for is left out. -/
def Note.ofFault : Fault → Note
  | .unknownTag tag => .unknownTag tag
  | .malformed kind slot => .malformed kind slot.property

/-- A visitor's state and the notes of the walk so far. -/
structure Noting (σ : Type v) where
  state : σ
  notes : Array Note := #[]

namespace Noting

variable {σ : Type v}

/-- Adds a note. -/
def note (new : Note) (s : Noting σ) : Noting σ :=
  { s with notes := s.notes.push new }

/-- Shows the visitor something. -/
def visit (f : σ → σ) (s : Noting σ) : Noting σ :=
  { s with state := f s.state }

end Noting

variable {α : Type u} {σ : Type v} [Node α]

/-- The visitor, and a note of each node that is entered. -/
def Visitor.noting (v : Visitor α σ) : Visitor α (Noting σ) where
  enter n s :=
    match Node.kind? n with
    | some k => (s.note (.entered k)).visit (v.enter n)
    | none => s.visit (v.enter n)
  leave n s := s.visit (v.leave n)

/-- Walks the tree below `n`, `n` included, and takes notes. -/
def walkNoting (v : Visitor α σ) (n : α) (s : Noting σ) : Walked (Noting σ) :=
  walkWith v.noting (fun f s => s.note (.ofFault f)) n s

/-! ## What is made of a walk and its notes -/

/-- Something found out on a walk, or the fault that ended it, with the notes. -/
structure Noted (β : Type w) where
  notes : List Note
  result : Except Fault β

/-- What `f` makes of the visitor's last state, unless a fault ended the walk. -/
def Noted.ofWalked {β : Type w} (f : σ → β) (walked : Walked (Noting σ)) : Noted β where
  notes := walked.state.notes.toList
  result := match walked.fault with
    | none => .ok (f walked.state.state)
    | some fault => .error fault

/-- The trace of a tree, with notes. -/
def traceNoting (n : α) : Noted (List Line) :=
  .ofWalked (fun es => Line.ofEvents 0 es.toList) (walkNoting recorder n ⟨#[], #[]⟩)

/-- The statistics of a tree, with notes. -/
def statsNoting (n : α) : Noted Stats :=
  .ofWalked Census.stats (walkNoting counter n ⟨{}, #[]⟩)

end TypeTree
