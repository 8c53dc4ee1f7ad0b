/-
  Unique layout: two documents that are laid out alike are the same document.

  Reading gives a document back only in normal form, and only if its numbers fit a word.  What is laid
  out says more: every member in the order in which it was written, and every digit.  So a text
  determines the document itself, whatever the size of its whole numbers (`pretty_injective`).

  The first character tells which form a document has (`form_of_first`).  Strings end at the quote
  that closes them, numbers where their digits end, and after each part of an array or object comes
  either a comma, if there are more, or a line break (`stacked_append_inj`).  Hence the statement with
  a rest on either side, which is the one that the induction goes through.
-/
import TypeTree.Proofs.Layout

namespace TypeTree.Json

/-! ## Scalars -/

/-- Where a quoted text ends can be told from the text itself. -/
theorem quoted_append_inj {s t : String} {r u : List Char} (h : quoted s ++ r = quoted t ++ u) :
    s = t ∧ r = u := by
  rw [quoted_append, quoted_append] at h
  have hread := stringBody_escaped s.toList r
  rw [(List.cons.inj h).2, stringBody_escaped t.toList u] at hread
  obtain ⟨hchars, hrest⟩ := Prod.mk.inj (Except.ok.inj hread)
  exact ⟨(String.toList_inj.mp hchars).symm, hrest.symm⟩

/-- The sign and the digits of a whole number. -/
theorem numberText_int (n : Int) :
    numberText (.int n) = (if n < 0 then ['-'] else []) ++ Nat.toDigits 10 n.natAbs := by
  rw [numberText]
  split <;> rfl

/-- Where an integer ends can be told from what may follow it. -/
theorem numberText_append_inj {m n : Int} {r s : List Char} (hr : Ends r) (hs : Ends s)
    (h : numberText (.int m) ++ r = numberText (.int n) ++ s) : m = n ∧ r = s := by
  -- digits do not begin with a sign
  have hsign : ∀ {k : Nat} {t u : List Char}, '-' :: t ≠ Nat.toDigits 10 k ++ u := by
    intro k t u heq
    obtain ⟨d, ds, hdigits, hd⟩ := toDigits_eq_cons k
    rw [hdigits] at heq
    rw [← (List.cons.inj heq).1] at hd
    exact absurd hd (by decide)
  rw [numberText_int, numberText_int, List.append_assoc, List.append_assoc] at h
  by_cases hm : m < 0
  · by_cases hn : n < 0
    · rw [if_pos hm, if_pos hn] at h
      obtain ⟨habs, hrest⟩ := toDigits_append_inj hr hs (List.append_cancel_left h)
      exact ⟨by omega, hrest⟩
    · rw [if_pos hm, if_neg hn] at h
      exact absurd h hsign
  · by_cases hn : n < 0
    · rw [if_neg hm, if_pos hn] at h
      exact absurd h.symm hsign
    · rw [if_neg hm, if_neg hn] at h
      obtain ⟨habs, hrest⟩ := toDigits_append_inj hr hs (List.append_cancel_left h)
      exact ⟨by omega, hrest⟩

/-! ## Stacks of parts -/

/-- If parts are told by their texts, so are stacks of them: the comma or the line break after a part
    tells whether there is another one. -/
theorem stacked_append_inj {β : Type} {text : β → List Char} {level : Nat} : ∀ {bs cs : List β},
    (∀ b ∈ bs, ∀ c ∈ cs, ∀ {r s : List Char}, Ends r → Ends s → text b ++ r = text c ++ s →
      b = c ∧ r = s) →
    bs ≠ [] → cs ≠ [] → ∀ {r s : List Char},
      stacked level text bs ++ '\n' :: r = stacked level text cs ++ '\n' :: s → bs = cs ∧ r = s
  | [], _, _, hbs, _, _, _, _ => absurd rfl hbs
  | _, [], _, _, hcs, _, _, _ => absurd rfl hcs
  | [b], [c], inj, _, _, r, s, h => by
    rw [stacked, stacked, List.append_assoc, List.append_assoc] at h
    obtain ⟨rfl, hrest⟩ := inj b List.mem_cons_self c List.mem_cons_self (ends_break r) (ends_break s)
      (List.append_cancel_left h)
    exact ⟨rfl, (List.cons.inj hrest).2⟩
  | [b], c :: c' :: cs, inj, _, _, r, s, h => by
    rw [stacked, stacked, List.append_assoc, List.append_assoc, List.append_assoc] at h
    obtain ⟨-, hrest⟩ := inj b List.mem_cons_self c List.mem_cons_self (ends_break r) (ends_comma _)
      (List.append_cancel_left h)
    exact absurd (List.cons.inj hrest).1 (by decide)
  | b :: b' :: bs, [c], inj, _, _, r, s, h => by
    rw [stacked, stacked, List.append_assoc, List.append_assoc, List.append_assoc] at h
    obtain ⟨-, hrest⟩ := inj b List.mem_cons_self c List.mem_cons_self (ends_comma _) (ends_break s)
      (List.append_cancel_left h)
    exact absurd (List.cons.inj hrest).1 (by decide)
  | b :: b' :: bs, c :: c' :: cs, inj, _, _, r, s, h => by
    rw [stacked, stacked, List.append_assoc, List.append_assoc, List.append_assoc,
      List.append_assoc] at h
    obtain ⟨rfl, hrest⟩ := inj b List.mem_cons_self c List.mem_cons_self (ends_comma _) (ends_comma _)
      (List.append_cancel_left h)
    obtain ⟨hmore, hrest⟩ := stacked_append_inj
      (fun p hp q hq => inj p (List.mem_cons_of_mem b hp) q (List.mem_cons_of_mem b hq))
      (List.cons_ne_nil b' bs) (List.cons_ne_nil c' cs) (List.cons.inj hrest).2
    exact ⟨by rw [hmore], hrest⟩

theorem stacked_eq_cons {β : Type} {text : β → List Char} {level : Nat} {bs : List β} (h : bs ≠ []) :
    ∃ t, stacked level text bs = '\n' :: t := by
  match bs with
  | [] => exact absurd rfl h
  | [b] => exact ⟨_, rfl⟩
  | b :: b' :: bs => exact ⟨_, rfl⟩

/-- A stack and the bracket that closes it, on a line of its own.  Without parts the bracket stands
    alone. -/
def enclosed {β : Type} (level : Nat) (text : β → List Char) (close : Char) : List β → List Char
  | [] => [close]
  | b :: bs => stacked (level + 1) text (b :: bs) ++ newLine level ++ [close]

/-- An array is its items between brackets, one level deeper. -/
theorem prettyText_arr (level : Nat) (items : List Json) :
    prettyText level (.arr items) = '[' :: enclosed level (prettyText (level + 1)) ']' items := by
  cases items with
  | nil => rw [prettyText, enclosed]
  | cons item items =>
    rw [prettyText, enclosed, prettyItems_eq_stacked]
    rfl

/-- An object is its members between braces, one level deeper. -/
theorem prettyText_obj (level : Nat) (members : List (String × Json)) :
    prettyText level (.obj members) =
      '{' :: enclosed level (prettyMember (level + 1)) '}' members := by
  cases members with
  | nil => rw [prettyText, enclosed]
  | cons m members =>
    rw [prettyText, enclosed, prettyMembers_eq_stacked]
    rfl

/-- What is enclosed can be told, item by item, if each item can. -/
theorem enclosed_append_inj {β : Type} {text : β → List Char} {level : Nat} {close : Char}
    (hclose : close ≠ '\n') {bs cs : List β}
    (inj : ∀ b ∈ bs, ∀ c ∈ cs, ∀ {r s : List Char}, Ends r → Ends s → text b ++ r = text c ++ s →
      b = c ∧ r = s) {r s : List Char}
    (h : enclosed level text close bs ++ r = enclosed level text close cs ++ s) : bs = cs ∧ r = s := by
  -- a bracket that stands alone is not the line break before a part
  have halone : ∀ {b : β} {bs : List β} {r s : List Char},
      [close] ++ r ≠ enclosed level text close (b :: bs) ++ s := by
    intro b bs r s heq
    obtain ⟨t, ht⟩ : ∃ t, stacked (level + 1) text (b :: bs) = '\n' :: t :=
      stacked_eq_cons (List.cons_ne_nil b bs)
    rw [enclosed, ht] at heq
    exact hclose (List.cons.inj heq).1
  match bs, cs with
  | [], [] => exact ⟨rfl, List.append_cancel_left h⟩
  | [], c :: cs => exact absurd h halone
  | b :: bs, [] => exact absurd h.symm halone
  | b :: bs, c :: cs =>
    simp only [enclosed, newLine, List.append_assoc, List.cons_append] at h
    obtain ⟨hparts, hrest⟩ :=
      stacked_append_inj inj (List.cons_ne_nil b bs) (List.cons_ne_nil c cs) h
    exact ⟨hparts, (List.cons.inj (List.append_cancel_left hrest)).2⟩

/-! ## Forms -/

/-- The documents whose numbers are whole. -/
inductive Whole : Json → Prop where
  | null : Whole .null
  | bool (b : Bool) : Whole (.bool b)
  | int (n : Int) : Whole (.num (.int n))
  | str (s : String) : Whole (.str s)
  | arr {items : List Json} (parts : ∀ j ∈ items, Whole j) : Whole (.arr items)
  | obj {members : List (String × Json)} (parts : ∀ m ∈ members, Whole m.2) : Whole (.obj members)

/-- The form of a document, by a character that can stand first in its text. -/
def form : Json → Char
  | .null => 'n'
  | .bool _ => 't'
  | .num _ => '0'
  | .str _ => '"'
  | .arr _ => '['
  | .obj _ => '{'

/-- The form that a first character stands for. -/
def formOf (c : Char) : Char :=
  if c = 'f' then 't' else if c = '-' ∨ isDigit c = true then '0' else c

/-- The first character of a text tells the form of the document. -/
theorem form_of_first {j : Json} (h : Whole j) (level : Nat) :
    ∃ c t, prettyText level j = c :: t ∧ formOf c = j.form := by
  cases h with
  | null => exact ⟨'n', _, rfl, rfl⟩
  | bool b =>
    cases b with
    | true => exact ⟨'t', _, rfl, rfl⟩
    | false => exact ⟨'f', _, rfl, rfl⟩
  | int n =>
    obtain ⟨d, ds, hdigits, hd⟩ := toDigits_eq_cons n.natAbs
    rw [prettyText, numberText_int, hdigits]
    split
    · exact ⟨'-', _, rfl, rfl⟩
    · have hne : d ≠ 'f' := fun heq => absurd (heq ▸ hd) (by decide)
      refine ⟨d, ds, rfl, ?_⟩
      rw [formOf, if_neg hne, if_pos (.inr hd)]
      rfl
  | str s => exact ⟨'"', _, rfl, rfl⟩
  | @arr items _ =>
    rw [prettyText_arr]
    exact ⟨'[', _, rfl, rfl⟩
  | @obj members _ =>
    rw [prettyText_obj]
    exact ⟨'{', _, rfl, rfl⟩

/-- The first character tells what form of value it is. -/
theorem form_eq {j k : Json} (hj : Whole j) (hk : Whole k) {level : Nat} {r s : List Char}
    (h : prettyText level j ++ r = prettyText level k ++ s) : j.form = k.form := by
  obtain ⟨c, t, hjtext, hjform⟩ := form_of_first hj level
  obtain ⟨d, u, hktext, hkform⟩ := form_of_first hk level
  rw [hjtext, hktext] at h
  rw [← hjform, ← hkform, (List.cons.inj h).1]

/-! ## Documents -/

/-- What is laid out for a document tells the document, and where its text ends in a longer one. -/
theorem prettyText_append_inj {j : Json} (hj : Whole j) : ∀ {k : Json}, Whole k → ∀ {level : Nat}
    {r s : List Char}, Ends r → Ends s → prettyText level j ++ r = prettyText level k ++ s →
      j = k ∧ r = s := by
  induction hj with
  | null =>
    intro k hk level r s hr hs h
    have hform := form_eq .null hk h
    cases hk with
    | null => exact ⟨rfl, List.append_cancel_left h⟩
    | _ => simp [form] at hform
  | bool b =>
    intro k hk level r s hr hs h
    have hform := form_eq (.bool b) hk h
    cases hk with
    | bool c =>
      cases b <;> cases c <;> simp_all [prettyText, boolText]
    | _ => simp [form] at hform
  | int n =>
    intro k hk level r s hr hs h
    have hform := form_eq (.int n) hk h
    cases hk with
    | int m =>
      rw [prettyText, prettyText] at h
      obtain ⟨rfl, hrest⟩ := numberText_append_inj hr hs h
      exact ⟨rfl, hrest⟩
    | _ => simp [form] at hform
  | str t =>
    intro k hk level r s hr hs h
    have hform := form_eq (.str t) hk h
    cases hk with
    | str u =>
      rw [prettyText, prettyText] at h
      obtain ⟨rfl, hrest⟩ := quoted_append_inj h
      exact ⟨rfl, hrest⟩
    | _ => simp [form] at hform
  | @arr items parts ih =>
    intro k hk level r s hr hs h
    have hform := form_eq (.arr parts) hk h
    cases hk with
    | arr parts' =>
      rw [prettyText_arr, prettyText_arr] at h
      obtain ⟨rfl, hrest⟩ := enclosed_append_inj (by decide)
        (fun j hj k hk => ih j hj (parts' k hk)) (List.cons.inj h).2
      exact ⟨rfl, hrest⟩
    | _ => simp [form] at hform
  | @obj members parts ih =>
    intro k hk level r s hr hs h
    have hform := form_eq (.obj parts) hk h
    cases hk with
    | @obj members' parts' =>
      rw [prettyText_obj, prettyText_obj] at h
      have hmember : ∀ m ∈ members, ∀ m' ∈ members', ∀ {r s : List Char}, Ends r → Ends s →
          prettyMember (level + 1) m ++ r = prettyMember (level + 1) m' ++ s → m = m' ∧ r = s := by
        intro m hm m' hm' r s hr hs heq
        rw [prettyMember, prettyMember, List.append_assoc, List.append_assoc] at heq
        obtain ⟨hkey, hvalue⟩ := quoted_append_inj heq
        obtain ⟨hvalue, hrest⟩ :=
          ih m hm (parts' m' hm') hr hs (List.cons.inj (List.cons.inj hvalue).2).2
        exact ⟨Prod.ext hkey hvalue, hrest⟩
      obtain ⟨rfl, hrest⟩ := enclosed_append_inj (by decide) hmember (List.cons.inj h).2
      exact ⟨rfl, hrest⟩
    | _ => simp [form] at hform

/-- Documents with whole numbers that are laid out alike are equal. -/
theorem pretty_injective {j k : Json} (hj : Whole j) (hk : Whole k) (h : j.pretty = k.pretty) :
    j = k := by
  have htext : prettyText 0 j ++ [] = prettyText 0 k ++ [] := by
    rw [List.append_nil, List.append_nil]
    exact String.ofList_injective h
  exact (prettyText_append_inj hj hk (ends_of_blank blank_nil) (ends_of_blank blank_nil) htext).1

end TypeTree.Json
