/-
  Readers that make progress.

  A reader takes the unread text and, if it succeeds, returns a value with a text that is SHORTER
  than a bound.  A loop of readers ends because what is left gets shorter each time.
-/

namespace TypeTree.Text

/-- A value read from a text, and the text after it, which has fewer than `n` characters. -/
structure Scanned (α : Type) (n : Nat) where
  value : α
  rest : List Char
  shorter : rest.length < n

/-- Changes the value. -/
def Scanned.map {α β : Type} {n : Nat} (f : α → β) (s : Scanned α n) : Scanned β n :=
  ⟨f s.value, s.rest, s.shorter⟩

theorem length_dropWhile_le (p : Char → Bool) (s : List Char) :
    (s.dropWhile p).length ≤ s.length :=
  (List.dropWhile_suffix p).length_le

/-- What reading gives: a failure, or a value and a text of fewer than `n` characters. -/
abbrev Scanning (ε α : Type) (n : Nat) := Except ε (Scanned α n)

namespace Scanning

variable {ε α β : Type} {n m : Nat}

/-- A value for which nothing was read. -/
def stay (v : α) (s : List Char) : Scanning ε α (s.length + 1) :=
  .ok ⟨v, s, Nat.lt_succ_self _⟩

/-- A value for which one character was read. -/
def next (v : α) (c : Char) (t : List Char) : Scanning ε α (c :: t).length :=
  .ok ⟨v, t, Nat.lt_succ_self _⟩

/-- A value for which one character was read, and those with a property after it. -/
def nextWhile (v : α) (p : Char → Bool) (c : Char) (t : List Char) : Scanning ε α (c :: t).length :=
  .ok ⟨v, t.dropWhile p, Nat.lt_succ_of_le (length_dropWhile_le p t)⟩

/-- Changes the value. -/
def map (f : α → β) : Scanning ε α n → Scanning ε β n
  | .ok s => .ok (s.map f)
  | .error e => .error e

/-- Loosens the bound. -/
def loosen (h : n ≤ m) : Scanning ε α n → Scanning ε α m
  | .ok s => .ok ⟨s.value, s.rest, Nat.lt_of_lt_of_le s.shorter h⟩
  | .error e => .error e

/-- Loosens the bound by one, for a character that was read before. -/
def widen (s : Scanning ε α n) : Scanning ε α (n + 1) :=
  s.loosen (Nat.le_succ n)

/-! ## What was read

Without its bound, the type of an outcome no longer depends on the length of the text, so that a
text in it can be replaced by an equal one. -/

/-- The outcome of reading, without its bound. -/
def view : Scanning ε α n → Except ε (α × List Char)
  | .ok s => .ok (s.value, s.rest)
  | .error e => .error e

@[simp] theorem view_stay (v : α) (s : List Char) :
    (stay v s : Scanning ε α _).view = .ok (v, s) := rfl

@[simp] theorem view_next (v : α) (c : Char) (t : List Char) :
    (next v c t : Scanning ε α _).view = .ok (v, t) := rfl

@[simp] theorem view_nextWhile (v : α) (p : Char → Bool) (c : Char) (t : List Char) :
    (nextWhile v p c t : Scanning ε α _).view = .ok (v, t.dropWhile p) := rfl

/-- What is made of the value leaves the rest as it is. -/
@[simp] theorem view_map (f : α → β) (s : Scanning ε α n) :
    (s.map f).view = s.view.map fun p => (f p.1, p.2) := by
  cases s <;> rfl

/-- A weaker bound on the rest does not change what is read. -/
@[simp] theorem view_loosen (h : n ≤ m) (s : Scanning ε α n) : (s.loosen h).view = s.view := by
  cases s <;> rfl

@[simp] theorem view_widen (s : Scanning ε α n) : s.widen.view = s.view :=
  view_loosen _ s

/-- The view forgets the bound and nothing else. -/
theorem view_eq_ok_iff {s : Scanning ε α n} {v : α} {rest : List Char} :
    s.view = .ok (v, rest) ↔ ∃ h, s = .ok ⟨v, rest, h⟩ := by
  constructor
  · intro h
    cases s with
    | error e => exact absurd h (by simp [view])
    | ok r =>
      obtain ⟨v', rest', h'⟩ := r
      obtain ⟨rfl, rfl⟩ : v' = v ∧ rest' = rest := by simpa [view] using h
      exact ⟨h', rfl⟩
  · rintro ⟨h, rfl⟩
    rfl

theorem view_eq_error_iff {s : Scanning ε α n} {e : ε} : s.view = .error e ↔ s = .error e := by
  cases s <;> simp [view]

end Scanning

end TypeTree.Text
