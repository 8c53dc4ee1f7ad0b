/-
  Walking a tree, depth first.

  A visitor is shown every node twice: when the walk ENTERS it and, after all its children, when the
  walk LEAVES it.  A node with an unknown tag is not entered.  A node whose properties do not fill
  its slots is entered but not left, and none of its children are visited.  Either fault ends the
  walk.  The visitor is not shown the fault and keeps the state it had, but whoever starts the walk can
  have the fault told, at the node that has it and before the walk gives up the nodes above.

  `walkWith_eq` is the equation that proofs about walks start from.
-/
import TypeTree.Node

namespace TypeTree

universe u v

/-- What to do on entering and on leaving a node.  By default nothing. -/
structure Visitor (α : Type u) (σ : Type v) where
  enter : α → σ → σ := fun _ s => s
  leave : α → σ → σ := fun _ s => s

/-- The end of a walk: the visitor's last state, and the fault that ended the walk early. -/
structure Walked (σ : Type v) where
  state : σ
  fault : Option Fault

/-- Goes on unless there was a fault. -/
def Walked.andThen {σ : Type v} (w : Walked σ) (next : σ → Walked σ) : Walked σ :=
  match w.fault with
  | none => next w.state
  | some _ => w

variable {α : Type u} {σ : Type v} [Node α]

/-- Walks the tree below `n`, `n` included.  A fault is told to `onFault`. -/
def walkWith (v : Visitor α σ) (onFault : Fault → σ → σ) (n : α) (s : σ) : Walked σ :=
  match Node.kind? n with
  | none => ⟨onFault (.unknownTag (Node.tag n)) s, some (.unknownTag (Node.tag n))⟩
  | some k =>
    match _h : Node.childrenAs k n with
    | .error f => ⟨onFault f (v.enter n s), some f⟩
    | .ok cs =>
      let start : Walked σ := ⟨v.enter n s, none⟩
      (cs.attach.foldl (fun w c => w.andThen fun s => walkWith v onFault c.1 s) start).andThen
        fun s => ⟨v.leave n s, none⟩
termination_by Node.height n
decreasing_by exact Node.height_lt_of_childrenAs _h c.2

/-- Walks several trees, one after another. -/
def walkAllWith (v : Visitor α σ) (onFault : Fault → σ → σ) (ns : List α) (w : Walked σ) : Walked σ :=
  ns.foldl (fun w n => w.andThen (walkWith v onFault n)) w

theorem walkWith_eq (v : Visitor α σ) (onFault : Fault → σ → σ) (n : α) (s : σ) :
    walkWith v onFault n s =
      match Node.kind? n with
      | none => ⟨onFault (.unknownTag (Node.tag n)) s, some (.unknownTag (Node.tag n))⟩
      | some k =>
        match Node.childrenAs k n with
        | .error f => ⟨onFault f (v.enter n s), some f⟩
        | .ok cs =>
          (walkAllWith v onFault cs ⟨v.enter n s, none⟩).andThen fun s => ⟨v.leave n s, none⟩ := by
  rw [walkWith]
  cases Node.kind? n with
  | none => rfl
  | some k =>
    dsimp only
    split
    · rename_i f h
      rw [h]
    · rename_i cs h
      rw [h]
      -- the fold over `attach` differs from `walkAllWith` only in carrying membership along
      exact congrArg (fun w : Walked σ => w.andThen fun s => ⟨v.leave n s, none⟩)
        (List.foldl_attach (f := fun (w : Walked σ) c => w.andThen (walkWith v onFault c)))

/-- Walks the tree below `n`, `n` included.  Nobody is told of a fault. -/
def walk (v : Visitor α σ) (n : α) (s : σ) : Walked σ :=
  walkWith v (fun _ s => s) n s

/-- A walk that calls the given functions, where there are any. -/
def traverse (onEnter onLeave : Option (α → σ → σ)) (n : α) (s : σ) : Walked σ :=
  walk ⟨onEnter.getD fun _ s => s, onLeave.getD fun _ s => s⟩ n s

end TypeTree
