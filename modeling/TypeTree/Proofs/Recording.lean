/-
  A walk is its recording, played to the visitor.

  `record` is a walk like any other, with a visitor that notes what it is shown.  Nothing a visitor
  does can change what it is shown, so one recording stands for all walks of a tree: playing it to a
  visitor, event after event, gives the state in which a walk leaves that visitor, and its fault is
  the fault of every walk (`walk_eq_play`).  If the fault is told to anybody, it is told once, after
  the last event (`walkWith_eq_play`).

  The recording of a tree is put together from the recordings of its children: `record_of_unknown`,
  `record_of_malformed` and `record_of_filled` are the equations from which everything else about
  recordings is proved.
-/
import TypeTree.Proofs.Children
import TypeTree.Walk.Event

namespace TypeTree

universe u v

variable {α : Type u} {σ : Type v}

@[simp] theorem Walked.andThen_none (s : σ) (next : σ → Walked σ) :
    (⟨s, none⟩ : Walked σ).andThen next = next s := rfl

@[simp] theorem Walked.andThen_some (s : σ) (f : Fault) (next : σ → Walked σ) :
    (⟨s, some f⟩ : Walked σ).andThen next = ⟨s, some f⟩ := rfl

/-! ## Recordings, one after another -/

/-- What a visitor makes of an event. -/
def Visitor.see (v : Visitor α σ) (s : σ) : Event α → σ
  | .enter n => v.enter n s
  | .leave n => v.leave n s

namespace Recording

/-- Shows a visitor the events of a recording. -/
def play (r : Recording α) (v : Visitor α σ) (s : σ) : Walked σ :=
  ⟨r.events.foldl v.see s, r.fault⟩

/-- Shows a visitor the events of a recording, and tells its fault. -/
def playWith (r : Recording α) (v : Visitor α σ) (onFault : Fault → σ → σ) (s : σ) : Walked σ :=
  match r.fault with
  | none => ⟨r.events.foldl v.see s, none⟩
  | some f => ⟨onFault f (r.events.foldl v.see s), some f⟩

/-- A walk without fault hands its events to the visitor and ends. -/
theorem playWith_of_none {r : Recording α} (h : r.fault = none) (v : Visitor α σ)
    (onFault : Fault → σ → σ) (s : σ) :
    r.playWith v onFault s = ⟨r.events.foldl v.see s, none⟩ := by
  rw [playWith, h]

/-- A walk with a fault hands over its events first and its fault last. -/
theorem playWith_of_some {r : Recording α} {f : Fault} (h : r.fault = some f) (v : Visitor α σ)
    (onFault : Fault → σ → σ) (s : σ) :
    r.playWith v onFault s = ⟨onFault f (r.events.foldl v.see s), some f⟩ := by
  rw [playWith, h]

/-- Where nobody heeds the fault, telling it makes no difference. -/
theorem playWith_silent (r : Recording α) (v : Visitor α σ) (s : σ) :
    r.playWith v (fun _ s => s) s = r.play v s := by
  obtain ⟨es, fault⟩ := r
  cases fault <;> rfl

/-- One recording and, unless a fault ended it, another one after it. -/
def andThen (r next : Recording α) : Recording α :=
  match r.fault with
  | none => ⟨r.events ++ next.events, next.fault⟩
  | some _ => r

/-- A recording without fault goes on with the next. -/
theorem andThen_of_none {r : Recording α} (h : r.fault = none) (next : Recording α) :
    r.andThen next = ⟨r.events ++ next.events, next.fault⟩ := by
  rw [andThen, h]

/-- A fault is the end of a recording. -/
theorem andThen_of_some {r : Recording α} {f : Fault} (h : r.fault = some f)
    (next : Recording α) : r.andThen next = r := by
  rw [andThen, h]

/-- Two recordings in one are played one after the other, unless the first has a fault. -/
theorem playWith_andThen (r next : Recording α) (v : Visitor α σ) (onFault : Fault → σ → σ) (s : σ) :
    (r.andThen next).playWith v onFault s =
      (r.playWith v onFault s).andThen (next.playWith v onFault) := by
  obtain ⟨es, fault⟩ := r
  cases fault with
  | none =>
    rw [andThen_of_none rfl, playWith_of_none (r := ⟨es, none⟩) rfl, Walked.andThen_none]
    simp only [playWith, List.foldl_append]
  | some f => rw [andThen_of_some rfl, playWith_of_some (r := ⟨es, some f⟩) rfl, Walked.andThen_some]

end Recording

/-- Playing a recording to the recorder copies it. -/
theorem play_recorder (r : Recording α) (es : Array (Event α)) :
    r.play recorder es = ⟨es ++ r.events, r.fault⟩ := by
  obtain ⟨events, fault⟩ := r
  show (⟨events.foldl recorder.see es, fault⟩ : Walked (Array (Event α))) = _
  induction events generalizing es with
  | nil => simp
  | cons e events ih =>
    rw [List.foldl_cons, ih]
    cases e <;> simp [Visitor.see, recorder]

/-- A visitor that does nothing on leaving only sees the nodes that are entered. -/
theorem foldl_see_enter (f : α → σ → σ) (es : List (Event α)) (s : σ) :
    es.foldl (Visitor.see ⟨f, fun _ s => s⟩) s =
      (es.filter (·.isEnter)).foldl (fun s e => f e.node s) s := by
  induction es generalizing s with
  | nil => rfl
  | cons e es ih =>
    cases e with
    | enter n => exact ih (f n s)
    | leave n => exact ih s

/-- A visitor that does nothing on entering only sees the nodes that are left. -/
theorem foldl_see_leave (f : α → σ → σ) (es : List (Event α)) (s : σ) :
    es.foldl (Visitor.see ⟨fun _ s => s, f⟩) s =
      (es.filter (! ·.isEnter)).foldl (fun s e => f e.node s) s := by
  induction es generalizing s with
  | nil => rfl
  | cons e es ih =>
    cases e with
    | enter n => exact ih s
    | leave n => exact ih (f n s)

/-- A visitor sees every event, as an entry or as a leave. -/
theorem foldl_see_both (f g : α → σ → σ) (es : List (Event α)) (s : σ) :
    es.foldl (Visitor.see ⟨f, g⟩) s =
      es.foldl (fun s e => if e.isEnter then f e.node s else g e.node s) s := by
  induction es generalizing s with
  | nil => rfl
  | cons e es ih =>
    cases e with
    | enter n => exact ih (f n s)
    | leave n => exact ih (g n s)

/-- A visitor that does nothing at all keeps its state. -/
theorem foldl_see_default (es : List (Event α)) (s : σ) :
    es.foldl (Visitor.see ({} : Visitor α σ)) s = s := by
  induction es with
  | nil => rfl
  | cons e es ih => cases e <;> exact ih

/-- A visitor that does nothing has the fault as its only result. -/
theorem Recording.play_default (r : Recording α) (s : σ) :
    r.play ({} : Visitor α σ) s = ⟨s, r.fault⟩ := by
  rw [play, foldl_see_default]

variable [Node α]

/-- The recordings of several trees, one after another. -/
def recordAll : List α → Recording α
  | [] => ⟨[], none⟩
  | n :: ns => (record n).andThen (recordAll ns)

/-- The recording of a node whose children are `cs`: it is entered, the children are walked and,
    unless a fault ended that, it is left. -/
def recordFilled (n : α) (cs : List α) : Recording α :=
  Recording.andThen ⟨[.enter n], none⟩ ((recordAll cs).andThen ⟨[.leave n], none⟩)

/-! ## One step of a walk -/

section Steps

variable (v : Visitor α σ) (onFault : Fault → σ → σ)

/-- A node of no kind is not even entered. -/
theorem walkWith_of_unknown {n : α} (s : σ) (hk : Node.kind? n = none) :
    walkWith v onFault n s =
      ⟨onFault (.unknownTag (Node.tag n)) s, some (.unknownTag (Node.tag n))⟩ := by
  rw [walkWith_eq, hk]

/-- A malformed node is entered, and none of its children is. -/
theorem walkWith_of_malformed {n : α} {k : Kind} {f : Fault} (s : σ) (hk : Node.kind? n = some k)
    (hc : Node.childrenAs k n = .error f) :
    walkWith v onFault n s = ⟨onFault f (v.enter n s), some f⟩ := by
  rw [walkWith_eq, hk]
  simp only [hc]

/-- A node with its children is entered, they are walked, and it is left unless one of them has a
    fault. -/
theorem walkWith_of_filled {n : α} {k : Kind} {cs : List α} (s : σ) (hk : Node.kind? n = some k)
    (hc : Node.childrenAs k n = .ok cs) :
    walkWith v onFault n s =
      (walkAllWith v onFault cs ⟨v.enter n s, none⟩).andThen fun s => ⟨v.leave n s, none⟩ := by
  rw [walkWith_eq, hk]
  simp only [hc]

/-- After a fault nothing is walked and nothing is told. -/
theorem walkAllWith_of_fault (ns : List α) (s : σ) (f : Fault) :
    walkAllWith v onFault ns ⟨s, some f⟩ = ⟨s, some f⟩ := by
  induction ns with
  | nil => rfl
  | cons n ns ih => exact ih

variable {v onFault}

/-- Siblings: if each of them is walked as it is recorded, so are all of them together. -/
theorem walkAllWith_eq_play {ns : List α}
    (h : ∀ n ∈ ns, ∀ s, walkWith v onFault n s = (record n).playWith v onFault s) (s : σ) :
    walkAllWith v onFault ns ⟨s, none⟩ = (recordAll ns).playWith v onFault s := by
  induction ns generalizing s with
  | nil => rfl
  | cons n ns ih =>
    obtain ⟨hn, hns⟩ := List.forall_mem_cons.mp h
    have hfirst : walkAllWith v onFault (n :: ns) ⟨s, none⟩ =
        walkAllWith v onFault ns (walkWith v onFault n s) := rfl
    rw [hfirst, hn, recordAll, Recording.playWith_andThen]
    cases hfault : (record n).fault with
    | none =>
      rw [Recording.playWith_of_none hfault]
      exact ih hns _
    | some f =>
      rw [Recording.playWith_of_some hfault]
      exact walkAllWith_of_fault v onFault ns _ f

/-- Parent: if each child is walked as it is recorded, so is the node. -/
theorem walkWith_eq_play_of_filled {n : α} {k : Kind} {cs : List α} (hk : Node.kind? n = some k)
    (hc : Node.childrenAs k n = .ok cs)
    (h : ∀ c ∈ cs, ∀ s, walkWith v onFault c s = (record c).playWith v onFault s) (s : σ) :
    walkWith v onFault n s = (recordFilled n cs).playWith v onFault s := by
  rw [walkWith_of_filled v onFault s hk hc, walkAllWith_eq_play h, recordFilled,
    Recording.playWith_andThen]
  exact (Recording.playWith_andThen (recordAll cs) ⟨[.leave n], none⟩ v onFault (v.enter n s)).symm

end Steps

/-! ## The recording of a tree -/

/-- What the recorder is shown is the recording. -/
theorem record_eq_of_walk {n : α} {r : Recording α}
    (h : walk recorder n #[] = r.playWith recorder (fun _ es => es) #[]) : record n = r := by
  rw [Recording.playWith_silent, play_recorder] at h
  rw [record, h]
  simp

theorem record_of_unknown {n : α} (hk : Node.kind? n = none) :
    record n = ⟨[], some (.unknownTag (Node.tag n))⟩ := by
  apply record_eq_of_walk
  rw [walk, walkWith_of_unknown recorder _ _ hk]
  rfl

theorem record_of_malformed {n : α} {k : Kind} {f : Fault} (hk : Node.kind? n = some k)
    (hc : Node.childrenAs k n = .error f) : record n = ⟨[.enter n], some f⟩ := by
  apply record_eq_of_walk
  rw [walk, walkWith_of_malformed recorder _ _ hk hc]
  rfl

/-- A walk plays the recording, as long as the recording of a node is put together from those of its
    children. -/
theorem walkWith_eq_play_of_recordFilled {v : Visitor α σ} {onFault : Fault → σ → σ}
    (hrecord : ∀ {n : α} {k : Kind} {cs : List α}, Node.kind? n = some k →
      Node.childrenAs k n = .ok cs →
        (∀ c ∈ cs, ∀ s, walkWith v onFault c s = (record c).playWith v onFault s) →
          record n = recordFilled n cs) (n : α) :
    ∀ s, walkWith v onFault n s = (record n).playWith v onFault s := by
  induction n using Node.children_induction with
  | unknown n hk =>
    intro s
    rw [walkWith_of_unknown v onFault s hk, record_of_unknown hk]
    rfl
  | malformed n k f hk hc =>
    intro s
    rw [walkWith_of_malformed v onFault s hk hc, record_of_malformed hk hc]
    rfl
  | filled n k cs hk hc ih =>
    intro s
    rw [hrecord hk hc ih]
    exact walkWith_eq_play_of_filled hk hc ih s

/-- What the recorder already holds when a walk begins makes no difference to what it is shown. -/
theorem walkWith_recorder (n : α) : ∀ es, walkWith recorder (fun _ es => es) n es =
    (record n).playWith recorder (fun _ es => es) es := by
  refine walkWith_eq_play_of_recordFilled ?_ n
  intro n k cs hk hc ih
  exact record_eq_of_walk (walkWith_eq_play_of_filled hk hc ih #[])

theorem record_of_filled {n : α} {k : Kind} {cs : List α} (hk : Node.kind? n = some k)
    (hc : Node.childrenAs k n = .ok cs) : record n = recordFilled n cs := by
  apply record_eq_of_walk
  exact walkWith_eq_play_of_filled hk hc (fun c _ => walkWith_recorder c) #[]

/-! ## Siblings

A row of trees is walked to its end, or up to the first tree that has a fault. -/

/-- Siblings without fault are recorded one after the other. -/
theorem recordAll_of_none {ns : List α} (h : ∀ n ∈ ns, (record n).fault = none) :
    recordAll ns = ⟨ns.flatMap fun n => (record n).events, none⟩ := by
  induction ns with
  | nil => rfl
  | cons n ns ih =>
    obtain ⟨hn, hns⟩ := List.forall_mem_cons.mp h
    rw [recordAll, Recording.andThen_of_none hn, ih hns, List.flatMap_cons]

/-- The first sibling with a fault is the last one that is recorded. -/
theorem recordAll_of_some {before after : List α} {n : α} {f : Fault}
    (h : ∀ b ∈ before, (record b).fault = none) (hn : (record n).fault = some f) :
    recordAll (before ++ n :: after) =
      ⟨(before.flatMap fun b => (record b).events) ++ (record n).events, some f⟩ := by
  induction before with
  | nil =>
    rw [List.nil_append, recordAll, Recording.andThen_of_some hn, ← hn]
    rfl
  | cons b before ih =>
    obtain ⟨hb, hbefore⟩ := List.forall_mem_cons.mp h
    rw [List.cons_append, recordAll, Recording.andThen_of_none hb, ih hbefore, List.flatMap_cons,
      List.append_assoc]

/-- Either no tree of a row has a fault or there is a first one that has. -/
theorem fault_cases (ns : List α) :
    (∀ n ∈ ns, (record n).fault = none) ∨
      ∃ before n after f, ns = before ++ n :: after ∧
        (∀ b ∈ before, (record b).fault = none) ∧ (record n).fault = some f := by
  induction ns with
  | nil => exact .inl fun n hn => absurd hn List.not_mem_nil
  | cons n ns ih =>
    cases hn : (record n).fault with
    | some f => exact .inr ⟨[], n, ns, f, rfl, fun b hb => absurd hb List.not_mem_nil, hn⟩
    | none =>
      rcases ih with hall | ⟨before, m, after, f, rfl, hbefore, hm⟩
      · exact .inl (List.forall_mem_cons.mpr ⟨hn, hall⟩)
      · exact .inr ⟨n :: before, m, after, f, rfl, List.forall_mem_cons.mpr ⟨hn, hbefore⟩, hm⟩

theorem recordFilled_of_none (n : α) {cs : List α} (h : ∀ c ∈ cs, (record c).fault = none) :
    recordFilled n cs =
      ⟨.enter n :: ((cs.flatMap fun c => (record c).events) ++ [.leave n]), none⟩ := by
  rw [recordFilled, recordAll_of_none h]
  rfl

/-- With a fault below it a node is entered and never left. -/
theorem recordFilled_of_some (n : α) {before after : List α} {c : α} {f : Fault}
    (h : ∀ b ∈ before, (record b).fault = none) (hc : (record c).fault = some f) :
    recordFilled n (before ++ c :: after) =
      ⟨.enter n :: ((before.flatMap fun b => (record b).events) ++ (record c).events),
        some f⟩ := by
  rw [recordFilled, recordAll_of_some h hc]
  rfl

/-! ## Every walk plays the recording -/

/-- A walk shows its visitor the events of the recording and ends as the recording does.  Then, if it
    ends with a fault, the fault is told. -/
theorem walkWith_eq_play (v : Visitor α σ) (onFault : Fault → σ → σ) (n : α) :
    ∀ s, walkWith v onFault n s = (record n).playWith v onFault s :=
  walkWith_eq_play_of_recordFilled (fun hk hc _ => record_of_filled hk hc) n

/-- Every walk is the recording of its tree, played to the visitor.  So what is proved of recordings
    is proved of all visitors. -/
theorem walk_eq_play (v : Visitor α σ) (n : α) : ∀ s, walk v n s = (record n).play v s := by
  intro s
  rw [walk, walkWith_eq_play, Recording.playWith_silent]

/-- One recording stands for every walk of a tree.  Whatever a visitor does with its state, the walk
    ends as the recording does, and the state is the one that its two functions make of the recorded
    events, first to last.  Hence a traversal calls what it was given on just the entries, just the
    leaves, all events or none; a visitor that does nothing still learns of the fault; and the
    events can be had as a list unless there is a fault, and then the fault alone. -/
theorem walk_folds_recording (n : α) :
    (∀ (v : Visitor α σ) (s : σ), (walk v n s).fault = (record n).fault ∧
      (walk v n s).state = (record n).events.foldl v.see s) ∧
    (∀ (f : α → σ → σ) (s : σ), traverse (some f) none n s =
      ⟨((record n).events.filter (·.isEnter)).foldl (fun s e => f e.node s) s,
        (record n).fault⟩) ∧
    (∀ (f : α → σ → σ) (s : σ), traverse none (some f) n s =
      ⟨((record n).events.filter (! ·.isEnter)).foldl (fun s e => f e.node s) s,
        (record n).fault⟩) ∧
    (∀ (f g : α → σ → σ) (s : σ), traverse (some f) (some g) n s =
      ⟨(record n).events.foldl (fun s e => if e.isEnter then f e.node s else g e.node s) s,
        (record n).fault⟩) ∧
    (∀ s : σ, traverse none none n s = ⟨s, (record n).fault⟩) ∧
    (∀ s : σ, walk ({} : Visitor α σ) n s = ⟨s, (record n).fault⟩) ∧
    (∀ es, events n = .ok es ↔ (record n).fault = none ∧ es = (record n).events) ∧
    (∀ f, events n = .error f ↔ (record n).fault = some f) := by
  refine ⟨?_, ?_, ?_, ?_, ?_, ?_, ?_, ?_⟩
  · intro v s
    rw [walk_eq_play]
    exact ⟨rfl, rfl⟩
  · -- entries only
    intro f s
    rw [traverse, walk_eq_play, ← foldl_see_enter]
    rfl
  · -- leaves only
    intro f s
    rw [traverse, walk_eq_play, ← foldl_see_leave]
    rfl
  · intro f g s
    rw [traverse, walk_eq_play, ← foldl_see_both]
    rfl
  · intro s
    rw [traverse, walk_eq_play]
    exact (record n).play_default s
  · intro s
    rw [walk_eq_play]
    exact (record n).play_default s
  · intro es
    rw [events]
    cases (record n).fault with
    | none => simp [eq_comm]
    | some f => simp
  · intro f
    rw [events]
    cases (record n).fault with
    | none => simp
    | some g => simp

end TypeTree
