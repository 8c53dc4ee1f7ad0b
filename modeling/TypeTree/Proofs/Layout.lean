/-
  Layout: a document over several lines is spelled as it is on one line, but for white space.

  Items and members are laid out in the same way, each on a new line and all but the last with a
  comma after it (`stacked`).  New lines and the indentation after them are white space that the
  grammar allows, so what is laid out is a spelling (`spells_prettyText`), and reading it gives the
  document back in normal form, within the levels that may be open (`read_pretty`).
-/
import TypeTree.Proofs.ReadBack

namespace TypeTree.Json

/-- A line break and its indentation are space between tokens. -/
theorem blank_newLine (level : Nat) : Blank (newLine level) := by
  intro c hc
  rcases List.mem_cons.mp hc with rfl | hc
  · decide
  · obtain rfl := List.eq_of_mem_replicate hc
    decide

theorem blank_space : Blank [' '] := by
  intro c hc
  obtain rfl := List.mem_singleton.mp hc
  decide

/-! ## Stacks of parts -/

/-- Parts on lines of their own, with commas between them. -/
def stacked {β : Type} (level : Nat) (text : β → List Char) : List β → List Char
  | [] => []
  | b :: [] => newLine level ++ text b
  | b :: next :: bs => newLine level ++ text b ++ ',' :: stacked level text (next :: bs)

/-- Items stand each on a line of its own. -/
theorem prettyItems_eq_stacked (level : Nat) : ∀ items : List Json,
    prettyItems level items = stacked level (prettyText level) items
  | [] => by rw [prettyItems, stacked]
  | [j] => by rw [prettyItems, stacked]
  | j :: next :: items => by
    rw [prettyItems, stacked, prettyItems_eq_stacked level (next :: items)]

/-- A member as it is laid out. -/
def prettyMember (level : Nat) (m : String × Json) : List Char :=
  quoted m.1 ++ ':' :: ' ' :: prettyText level m.2

theorem prettyMembers_eq_stacked (level : Nat) : ∀ members : List (String × Json),
    prettyMembers level members = stacked level (prettyMember level) members
  | [] => by rw [prettyMembers, stacked]
  | [(key, j)] => by
    rw [prettyMembers, stacked, prettyMember, List.append_assoc]
  | (key, j) :: next :: members => by
    rw [prettyMembers, stacked, prettyMembers_eq_stacked level (next :: members), prettyMember,
      List.append_assoc (newLine level)]

/-- A stack is a row whose white space is new lines.  The new line that follows the last part belongs
    to the bracket that closes the stack. -/
theorem row_stacked {β : Type} {R : β → List Char → Prop} {text : β → List Char} (level : Nat)
    {w : List Char} (hw : Blank w) : ∀ {bs : List β}, bs ≠ [] → (∀ b ∈ bs, R b (text b)) →
      ∃ t, stacked level text bs ++ w = newLine level ++ t ∧ Row R bs t
  | [], hne, _ => absurd rfl hne
  | [b], _, h => by
    refine ⟨text b ++ w, ?_, .last (h b List.mem_cons_self) hw⟩
    rw [stacked, List.append_assoc]
  | b :: next :: bs, _, h => by
    obtain ⟨t, ht, hrow⟩ := row_stacked level hw (List.cons_ne_nil next bs)
      fun b' hb' => h b' (List.mem_cons_of_mem b hb')
    refine ⟨text b ++ ([] ++ ',' :: (newLine level ++ t)), ?_,
      .cons (h b List.mem_cons_self) blank_nil (blank_newLine level) hrow⟩
    rw [stacked, ← ht]
    simp

/-! ## Laid-out documents -/

/-- Over several lines a document is spelled with new lines and spaces as its white space. -/
theorem spells_prettyText {j : Json} (h : Readable j) (level : Nat) :
    Spells j (prettyText level j) := by
  induction h generalizing level with
  | null => exact .null
  | bool b => exact .bool b
  | @nat n h =>
    have hdigits : prettyText level (int n) = Nat.toDigits 10 n := by
      rw [int, prettyText, numberText, if_neg (by omega), Int.natAbs_natCast]
    rw [hdigits]
    exact .nat h
  | str s => exact .str s
  | @arr items parts ih =>
    cases items with
    | nil => exact .noItems blank_nil
    | cons j items =>
      obtain ⟨t, ht, hrow⟩ : ∃ t, stacked (level + 1) (prettyText (level + 1)) (j :: items) ++
          newLine level = newLine (level + 1) ++ t ∧ Row Spells (j :: items) t :=
        row_stacked (level + 1) (blank_newLine level) (List.cons_ne_nil j items)
          fun k hk => ih k hk (level + 1)
      have htext : prettyText level (arr (j :: items)) =
          '[' :: (newLine (level + 1) ++ (t ++ [']'])) := by
        rw [prettyText, prettyItems_eq_stacked, List.cons_append, List.cons_append, ht,
          List.append_assoc]
      rw [htext]
      exact .arr (blank_newLine (level + 1)) hrow
  | @obj members parts key ih =>
    cases members with
    | nil => exact .noMembers blank_nil
    | cons m members =>
      -- a member is spelled with nothing before its colon and one space after it
      have hmember : ∀ p ∈ m :: members, Member Spells p (prettyMember (level + 1) p) :=
        fun p hp => .intro p.1 blank_nil blank_space (ih p hp (level + 1))
      obtain ⟨t, ht, hrow⟩ := row_stacked (level + 1) (blank_newLine level)
        (List.cons_ne_nil m members) hmember
      have htext : prettyText level (obj (m :: members)) =
          '{' :: (newLine (level + 1) ++ (t ++ ['}'])) := by
        rw [prettyText, prettyMembers_eq_stacked, List.cons_append, List.cons_append, ht,
          List.append_assoc]
      rw [htext]
      exact .obj (blank_newLine (level + 1)) hrow (key m rfl)

/-- A document that was laid out is read back in normal form. -/
theorem read_pretty {j : Json} (h : Readable j) (fits : j.depth ≤ levelLimit) :
    read j.pretty = .ok j.normal := by
  have hread := read_spelled (spells_prettyText h 0) blank_nil blank_nil
  rw [List.nil_append, List.append_nil] at hread
  rcases hread with ⟨-, hok⟩ | ⟨deep, -⟩
  · exact hok
  · omega

end TypeTree.Json
