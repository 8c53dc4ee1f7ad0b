/-
  Spelling: which texts stand for a document.

  `Spells j t` says that `t` is a way to write the document `j`: its scalars as they are always
  written, commas and colons where they belong, and white space wherever the grammar allows it.  An
  object that begins with the key of an embedded text has no spelling, since it would be read as
  something else.

  A layout chooses one of the spellings.  On one line there is no white space
  (`spells_compactText`).
-/
import TypeTree.Proofs.Scalars

namespace TypeTree.Json

open Text (Scanning)

/-! ## White space -/

/-- White space alone. -/
def Blank (w : List Char) : Prop :=
  ∀ c ∈ w, isSpace c = true

theorem blank_nil : Blank [] := fun _ hc => absurd hc List.not_mem_nil

/-- Space in front is skipped, however much there is. -/
theorem skipSpace_append {w : List Char} (h : Blank w) (s : List Char) :
    skipSpace (w ++ s) = skipSpace s :=
  List.dropWhile_append_of_pos h

theorem skipSpace_cons {c : Char} (h : isSpace c = false) (s : List Char) :
    skipSpace (c :: s) = c :: s := by
  rw [skipSpace, List.dropWhile_cons_of_neg]
  simp [h]

/-- The white space before a character that is not white space is skipped. -/
theorem skipSpace_append_cons {w : List Char} (h : Blank w) {c : Char} (hc : isSpace c = false)
    (s : List Char) : skipSpace (w ++ c :: s) = c :: s := by
  rw [skipSpace_append h, skipSpace_cons hc]

/-- No space goes on with a number. -/
theorem not_numeric_of_isSpace {c : Char} (h : isSpace c = true) :
    isDigit c = false ∧ c ≠ '.' ∧ c ≠ 'e' ∧ c ≠ 'E' := by
  simp only [isSpace, Bool.or_eq_true, beq_iff_eq] at h
  rcases h with ((rfl | rfl) | rfl) | rfl <;> decide

/-- A number ends at white space and at the end of the text. -/
theorem ends_of_blank {w : List Char} (h : Blank w) : Ends w :=
  fun c hc => not_numeric_of_isSpace (h c (List.mem_of_mem_head? hc))

/-- A number ends before a comma or a bracket, with or without white space between. -/
theorem ends_append_cons {w : List Char} (h : Blank w) {c : Char} (hc : c ∈ [',', ']', '}'])
    (s : List Char) : Ends (w ++ c :: s) := by
  cases w with
  | cons e w =>
    intro d hd
    obtain rfl : e = d := Option.some.inj hd
    exact not_numeric_of_isSpace (h e List.mem_cons_self)
  | nil =>
    intro d hd
    obtain rfl : c = d := Option.some.inj hd
    simp only [List.mem_cons, List.not_mem_nil, or_false] at hc
    rcases hc with rfl | rfl | rfl <;> decide

theorem ends_comma (t : List Char) : Ends (',' :: t) :=
  ends_append_cons blank_nil (by decide) t

theorem ends_break (t : List Char) : Ends ('\n' :: t) := by
  intro c hc
  obtain rfl := Option.some.inj hc
  decide

/-! ## The grammar -/

/-- A row of one or more parts with commas between them.  White space may follow a part and a
    comma. -/
inductive Row {β : Type} (R : β → List Char → Prop) : List β → List Char → Prop where
  | last {b : β} {t w : List Char} (part : R b t) (after : Blank w) : Row R [b] (t ++ w)
  | cons {b : β} {bs : List β} {t w w' ts : List Char} (part : R b t) (after : Blank w)
      (before : Blank w') (rest : Row R bs ts) : Row R (b :: bs) (t ++ (w ++ ',' :: (w' ++ ts)))

/-- A member: its key, a colon, and its value as `R` has it. -/
inductive Member (R : Json → List Char → Prop) : String × Json → List Char → Prop where
  | intro (key : String) {j : Json} {t w w' : List Char} (after : Blank w) (before : Blank w')
      (value : R j t) : Member R (key, j) (quoted key ++ (w ++ ':' :: (w' ++ t)))

/-- `Spells j t`: the text `t` is a way to write the document `j`. -/
inductive Spells : Json → List Char → Prop where
  | null : Spells .null nullText
  | bool (b : Bool) : Spells (.bool b) (boolText b)
  | nat {n : Nat} (h : n ≤ Numeral.wordMax) : Spells (int n) (Nat.toDigits 10 n)
  | str (s : String) : Spells (.str s) (quoted s)
  | noItems {w : List Char} (inside : Blank w) : Spells (.arr []) ('[' :: (w ++ [']']))
  | arr {items : List Json} {w t : List Char} (before : Blank w) (row : Row Spells items t) :
      Spells (.arr items) ('[' :: (w ++ (t ++ [']'])))
  | noMembers {w : List Char} (inside : Blank w) : Spells (.obj []) ('{' :: (w ++ ['}']))
  | obj {m : String × Json} {ms : List (String × Json)} {w t : List Char} (before : Blank w)
      (row : Row (Member Spells) (m :: ms) t) (key : m.1 ≠ embedKey) :
      Spells (.obj (m :: ms)) ('{' :: (w ++ (t ++ ['}'])))

/-! ## First characters -/

/-- The text begins with a character that is not white space and closes nothing. -/
def Begins (t : List Char) : Prop :=
  ∃ c u, t = c :: u ∧ isSpace c = false ∧ c ≠ ']' ∧ c ≠ '}'

/-- A digit is neither white space nor a bracket. -/
theorem isSpace_of_isDigit {d : Char} (h : isDigit d = true) :
    isSpace d = false ∧ d ∉ ['[', '{', ']', '}'] := by
  constructor
  · rw [Bool.eq_false_iff]
    intro hspace
    simp only [isSpace, Bool.or_eq_true, beq_iff_eq] at hspace
    rcases hspace with ((rfl | rfl) | rfl) | rfl <;> exact absurd h (by decide)
  · intro hmem
    simp only [List.mem_cons, List.not_mem_nil, or_false] at hmem
    rcases hmem with rfl | rfl | rfl | rfl <;> exact absurd h (by decide)

/-- A spelled document begins with an opening bracket exactly where it is an array or object. -/
theorem Spells.first {j : Json} {t : List Char} (h : Spells j t) :
    ∃ c u, t = c :: u ∧ isSpace c = false ∧ (c ≠ ']' ∧ c ≠ '}') ∧
      (c = '[' ∨ c = '{' ↔ 0 < j.depth) := by
  cases h with
  | null => exact ⟨'n', _, rfl, by decide, by decide, by simp [depth]⟩
  | bool b =>
    cases b with
    | true => exact ⟨'t', _, rfl, by decide, by decide, by simp [depth]⟩
    | false => exact ⟨'f', _, rfl, by decide, by decide, by simp [depth]⟩
  | @nat n _ =>
    obtain ⟨d, ds, hdigits, hd⟩ := toDigits_eq_cons n
    obtain ⟨hspace, hbracket⟩ := isSpace_of_isDigit hd
    simp only [List.mem_cons, List.not_mem_nil, or_false, not_or] at hbracket
    refine ⟨d, ds, hdigits, hspace, hbracket.2.2, ?_⟩
    simp [int, depth, hbracket.1, hbracket.2.1]
  | str s => exact ⟨'"', _, rfl, by decide, by decide, by simp [depth]⟩
  | noItems _ => exact ⟨'[', _, rfl, by decide, by decide, by simp [depth]⟩
  | arr _ _ => exact ⟨'[', _, rfl, by decide, by decide, by simp [depth]⟩
  | noMembers _ => exact ⟨'{', _, rfl, by decide, by decide, by simp [depth]⟩
  | obj _ _ _ => exact ⟨'{', _, rfl, by decide, by decide, by simp [depth]⟩

/-- A spelled value begins with a character that is no space and closes nothing. -/
theorem Spells.begins {j : Json} {t : List Char} (h : Spells j t) : Begins t := by
  obtain ⟨c, u, ht, hspace, hclose, -⟩ := h.first
  exact ⟨c, u, ht, hspace, hclose⟩

theorem Row.begins {β : Type} {R : β → List Char → Prop} (hR : ∀ {b t}, R b t → Begins t)
    {bs : List β} {t : List Char} (h : Row R bs t) : Begins t := by
  cases h with
  | last part _ =>
    obtain ⟨c, u, rfl, hc⟩ := hR part
    exact ⟨c, _, rfl, hc⟩
  | cons part _ _ _ =>
    obtain ⟨c, u, rfl, hc⟩ := hR part
    exact ⟨c, _, rfl, hc⟩

/-! ## Written documents -/

/-- The documents whose written form is a spelling: their numbers are whole and fit a word, and no
    object begins with the key of an embedded text. -/
inductive Readable : Json → Prop where
  | null : Readable .null
  | bool (b : Bool) : Readable (.bool b)
  | nat {n : Nat} (h : n ≤ Numeral.wordMax) : Readable (int n)
  | str (s : String) : Readable (.str s)
  | arr {items : List Json} (parts : ∀ j ∈ items, Readable j) : Readable (.arr items)
  | obj {members : List (String × Json)} (parts : ∀ m ∈ members, Readable m.2)
      (key : ∀ m, members.head? = some m → m.1 ≠ embedKey) : Readable (.obj members)

/-- Items with nothing but commas between them are a row. -/
theorem row_compactItems : ∀ {items : List Json}, items ≠ [] →
    (∀ j ∈ items, Spells j (compactText j)) → Row Spells items (compactItems items)
  | [], hne, _ => absurd rfl hne
  | [j], _, h => by
    have hrow : Row Spells [j] (compactText j ++ []) :=
      .last (h j List.mem_cons_self) blank_nil
    rwa [List.append_nil] at hrow
  | j :: next :: items, _, h => by
    have hrest := row_compactItems (List.cons_ne_nil next items)
      fun k hk => h k (List.mem_cons_of_mem j hk)
    exact .cons (h j List.mem_cons_self) blank_nil blank_nil hrest

theorem row_compactMembers : ∀ {members : List (String × Json)}, members ≠ [] →
    (∀ m ∈ members, Spells m.2 (compactText m.2)) →
      Row (Member Spells) members (compactMembers members)
  | [], hne, _ => absurd rfl hne
  | [(key, j)], _, h => by
    have hone : Member Spells (key, j) (quoted key ++ ([] ++ ':' :: ([] ++ compactText j))) :=
      .intro key blank_nil blank_nil (h _ List.mem_cons_self)
    have hrow := Row.last hone blank_nil
    rwa [List.append_nil] at hrow
  | (key, j) :: next :: members, _, h => by
    have hone : Member Spells (key, j) (quoted key ++ ([] ++ ':' :: ([] ++ compactText j))) :=
      .intro key blank_nil blank_nil (h _ List.mem_cons_self)
    have hrest := row_compactMembers (List.cons_ne_nil next members)
      fun m hm => h m (List.mem_cons_of_mem _ hm)
    exact .cons hone blank_nil blank_nil hrest

/-- On one line a document is spelled without any white space. -/
theorem spells_compactText {j : Json} (h : Readable j) : Spells j (compactText j) := by
  induction h with
  | null => exact .null
  | bool b => exact .bool b
  | @nat n h =>
    have hdigits : compactText (int n) = Nat.toDigits 10 n := by
      rw [int, compactText, numberText, if_neg (by omega), Int.natAbs_natCast]
    rw [hdigits]
    exact .nat h
  | str s => exact .str s
  | @arr items parts ih =>
    rw [compactText]
    cases items with
    | nil => exact .noItems blank_nil
    | cons j items => exact .arr blank_nil (row_compactItems (List.cons_ne_nil j items) ih)
  | @obj members parts key ih =>
    rw [compactText]
    cases members with
    | nil => exact .noMembers blank_nil
    | cons m members =>
      exact .obj blank_nil (row_compactMembers (List.cons_ne_nil m members) ih) (key m rfl)

end TypeTree.Json
