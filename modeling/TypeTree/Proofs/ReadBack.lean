/-
  What reading makes of a spelled document.

  A spelled document is read back in normal form as long as its arrays and objects fit the levels
  that may be open; otherwise reading is refused at the first bracket that is one too many.
  `Outcome` holds the two cases, so that each is followed through rows and brackets once.

  The induction is on the levels, as in the reader (`reads_value`): the parts of an array or object
  are read by a reader of values with one level less, of which `items_of_row` and `members_of_row`
  only ask that it reads what is spelled.
-/
import TypeTree.Proofs.Spelling

namespace TypeTree.Json

open Text (Scanning)
open Reading

/-! ## The reader, step by step

What a reader does next, told by the text that is left.  The readers themselves carry bounds on the
length of that text, which these lemmas leave behind. -/

section Steps

variable {v : ValueReader} {inner : TextReader} {s s₁ s₂ t u key key' : List Char} {j : Json}
  {c : Char} {e : Failure}

theorem items_of_error (h : (v s).view = .error e) : (items v s).view = .error e := by
  rw [items, Scanning.view_eq_error_iff.mp h]
  rfl

/-- A bracket after an item ends the items. -/
theorem items_of_bracket (h : (v s).view = .ok (j, s₁)) (hnext : skipSpace s₁ = ']' :: t) :
    (items v s).view = .ok ([j], t) := by
  obtain ⟨_, hv⟩ := Scanning.view_eq_ok_iff.mp h
  rw [items, hv]
  dsimp only
  split
  case h_2 heq =>
    obtain ⟨-, rfl⟩ := List.cons.inj (hnext.symm.trans heq)
    rw [Scanning.view_loosen, Scanning.view_next]
  all_goals grind

/-- A comma after an item needs another item: a bracket may not follow it. -/
theorem items_of_comma (h : (v s).view = .ok (j, s₁)) (hcomma : skipSpace s₁ = ',' :: t)
    (hnext : skipSpace t = c :: u) (hc : c ≠ ']') :
    (items v s).view = (items v (c :: u)).view.map fun p => (j :: p.1, p.2) := by
  obtain ⟨_, hv⟩ := Scanning.view_eq_ok_iff.mp h
  rw [items, hv]
  dsimp only
  split
  case h_3 heq =>
    obtain ⟨-, rfl⟩ := List.cons.inj (hcomma.symm.trans heq)
    split
    case h_3 heq =>
      obtain ⟨rfl, rfl⟩ := List.cons.inj (hnext.symm.trans heq)
      rw [Scanning.view_loosen, Scanning.view_map]
    all_goals grind
  all_goals grind

theorem array_of_bracket (h : skipSpace s = ']' :: t) : (array v s).view = .ok ([], t) := by
  unfold array
  dsimp only
  split
  case h_2 heq =>
    obtain ⟨-, rfl⟩ := List.cons.inj (h.symm.trans heq)
    rw [Scanning.view_loosen, Scanning.view_next]
  all_goals grind

theorem array_of_items (h : skipSpace s = c :: t) (hc : c ≠ ']') :
    (array v s).view = (items v (c :: t)).view := by
  unfold array
  dsimp only
  split
  case h_3 heq =>
    obtain ⟨rfl, rfl⟩ := List.cons.inj (h.symm.trans heq)
    rw [Scanning.view_loosen]
  all_goals grind

theorem afterColon_of_colon {α : Type} {content : (s : List Char) → Reading α s.length}
    (h : skipSpace s = ':' :: t) : (afterColon content s).view = (content t).view := by
  unfold afterColon
  dsimp only
  split
  case h_2 heq =>
    obtain ⟨-, rfl⟩ := List.cons.inj (h.symm.trans heq)
    rw [Scanning.view_loosen]
  all_goals grind

theorem members_of_error (h : (afterColon v s).view = .error e) :
    (members v key s).view = .error e := by
  rw [members, Scanning.view_eq_error_iff.mp h]
  rfl

/-- A brace after a member ends the members. -/
theorem members_of_brace (h : (afterColon v s).view = .ok (j, s₁))
    (hnext : skipSpace s₁ = '}' :: t) :
    (members v key s).view = .ok ([(String.ofList key, j)], t) := by
  obtain ⟨_, hv⟩ := Scanning.view_eq_ok_iff.mp h
  rw [members, hv]
  dsimp only
  split
  case h_2 heq =>
    obtain ⟨-, rfl⟩ := List.cons.inj (hnext.symm.trans heq)
    rw [Scanning.view_loosen, Scanning.view_next]
  all_goals grind

/-- A comma after a member needs another key. -/
theorem members_of_comma (h : (afterColon v s).view = .ok (j, s₁))
    (hcomma : skipSpace s₁ = ',' :: t) (hquote : skipSpace t = '"' :: u)
    (hkey : (stringBody u).view = .ok (key', s₂)) :
    (members v key s).view =
      (members v key' s₂).view.map fun p => ((String.ofList key, j) :: p.1, p.2) := by
  obtain ⟨_, hv⟩ := Scanning.view_eq_ok_iff.mp h
  obtain ⟨_, hb⟩ := Scanning.view_eq_ok_iff.mp hkey
  rw [members, hv]
  dsimp only
  split
  case h_3 heq =>
    obtain ⟨-, rfl⟩ := List.cons.inj (hcomma.symm.trans heq)
    split
    case h_2 heq =>
      obtain ⟨-, rfl⟩ := List.cons.inj (hquote.symm.trans heq)
      rw [hb]
      dsimp only
      rw [Scanning.view_loosen, Scanning.view_map]
    all_goals grind
  all_goals grind

theorem object_of_brace (h : skipSpace s = '}' :: t) :
    (object inner v s).view = .ok (obj [], t) := by
  unfold object
  dsimp only
  split
  case h_2 heq =>
    obtain ⟨-, rfl⟩ := List.cons.inj (h.symm.trans heq)
    rw [Scanning.view_loosen, Scanning.view_next]
  all_goals grind

/-- The first key of an object decides that it is read member by member. -/
theorem object_of_quote (h : skipSpace s = '"' :: t) (hkey : (stringBody t).view = .ok (key, s₁))
    (hne : String.ofList key ≠ embedKey) :
    (object inner v s).view =
      (members v key s₁).view.map fun p => (obj (Dict.ofPairs p.1), p.2) := by
  obtain ⟨_, hb⟩ := Scanning.view_eq_ok_iff.mp hkey
  unfold object
  dsimp only
  split
  case h_3 heq =>
    obtain ⟨-, rfl⟩ := List.cons.inj (h.symm.trans heq)
    rw [hb]
    dsimp only
    rw [if_neg hne, Scanning.view_loosen, Scanning.view_map]
  all_goals grind

/-- Where no level is left, a bracket is refused. -/
theorem value_zero (h : skipSpace s = c :: t) (hc : c = '[' ∨ c = '{') :
    (value inner 0 s).view = .error (.here .nestedTooDeep (c :: t) 1) := by
  rcases hc with rfl | rfl <;>
  · unfold value
    dsimp only
    split <;> grind [refuse, Scanning.view]

/-- An array takes one of the levels that are left. -/
theorem value_of_bracket (below : Nat) (h : skipSpace s = '[' :: t) :
    (value inner (below + 1) s).view =
      (array (value inner below) t).view.map fun p => (arr p.1, p.2) := by
  rw [value]
  dsimp only
  split
  case h_1 heq =>
    obtain ⟨-, rfl⟩ := List.cons.inj (h.symm.trans heq)
    rw [Scanning.view_loosen, Scanning.view_map]
  all_goals grind

/-- An object takes one of the levels that are left. -/
theorem value_of_brace (below : Nat) (h : skipSpace s = '{' :: t) :
    (value inner (below + 1) s).view = (object inner (value inner below) t).view := by
  rw [value]
  dsimp only
  split
  case h_2 heq =>
    obtain ⟨-, rfl⟩ := List.cons.inj (h.symm.trans heq)
    rw [Scanning.view_loosen]
  all_goals grind

/-- Everything else takes none. -/
theorem value_of_scalar (levels : Nat) (h : skipSpace s = c :: t) (hc : c ≠ '[' ∧ c ≠ '{') :
    (value inner levels s).view = (scalar (c :: t)).view := by
  unfold value
  dsimp only
  split
  case h_3 => rw [Scanning.view_loosen, h]
  all_goals grind

end Steps

/-! ## Read or refused -/

/-- What reading a part comes to that is `depth` deep, where `levels` levels are left: what the part
    stands for and the text after it, or a refusal at a bracket inside it. -/
inductive Outcome {β : Type} (levels depth : Nat) (b : β) (rest : List Char) :
    Except Failure (β × List Char) → Prop where
  | read (fits : depth ≤ levels) : Outcome levels depth b rest (.ok (b, rest))
  | refused (deep : levels < depth) (unread : List Char) :
      Outcome levels depth b rest (.error (.here .nestedTooDeep unread 1))

namespace Outcome

variable {β γ : Type} {levels depth : Nat} {b : β} {rest : List Char}
  {r : Except Failure (β × List Char)}

/-- An outcome is the value, if there are levels enough for it, and the refusal otherwise. -/
theorem eq_ok_or_error (h : Outcome levels depth b rest r) :
    (depth ≤ levels ∧ r = .ok (b, rest)) ∨
      (levels < depth ∧ ∃ unread, r = .error (.here .nestedTooDeep unread 1)) := by
  cases h with
  | read fits => exact .inl ⟨fits, rfl⟩
  | refused deep unread => exact .inr ⟨deep, unread, rfl⟩

/-- What is made of the value does not change whether there is one. -/
theorem map (f : β → γ) (h : Outcome levels depth b rest r) :
    Outcome levels depth (f b) rest (r.map fun p => (f p.1, p.2)) := by
  cases h with
  | read fits => exact .read fits
  | refused deep unread => exact .refused deep unread

/-- Inside a bracket there is one level less, and the part is one less deep. -/
theorem inside (h : Outcome levels depth b rest r) : Outcome (levels + 1) (depth + 1) b rest r := by
  cases h with
  | read fits => exact .read (by omega)
  | refused deep unread => exact .refused (by omega) unread

/-- A part before this one that was read changes nothing. -/
theorem after {before : Nat} (fits : before ≤ levels) (h : Outcome levels depth b rest r) :
    Outcome levels (max before depth) b rest r := by
  cases h with
  | read fits' => exact .read (by omega)
  | refused deep unread => exact .refused (by omega) unread

end Outcome

/-! ## Scalars -/

theorem quoted_append (s : String) (t : List Char) :
    quoted s ++ t = '"' :: (s.toList.flatMap escapeChar ++ '"' :: t) := by
  simp [quoted]

/-- A spelled document without brackets is read by `scalar`. -/
theorem scalar_spelled {j : Json} {t rest : List Char} (h : Spells j t) (hflat : j.depth = 0)
    (hrest : Ends rest) : (scalar (t ++ rest)).view = .ok (j.normal, rest) := by
  cases h with
  | null => rfl
  | bool b => cases b <;> rfl
  | @nat n h =>
    obtain ⟨d, ds, hdigits, hd⟩ := toDigits_eq_cons n
    have hnumber := number_toDigits h hrest
    rw [hdigits, List.cons_append] at hnumber
    rw [hdigits, List.cons_append, scalar]
    · rw [if_pos (Or.inr hd), Scanning.view_map, hnumber]
      rfl
    all_goals
      rintro rfl
      exact absurd hd (by decide)
  | str s =>
    rw [quoted_append, scalar, Scanning.view_widen, Scanning.view_map, stringBody_escaped]
    simp [Except.map, normal]
  | noItems _ => exact absurd hflat (Nat.succ_ne_zero _)
  | arr _ _ => exact absurd hflat (Nat.succ_ne_zero _)
  | noMembers _ => exact absurd hflat (Nat.succ_ne_zero _)
  | obj _ _ _ => exact absurd hflat (Nat.succ_ne_zero _)

/-! ## Rows -/

/-- The reader reads what is spelled, up to `levels` levels deep and no deeper. -/
def Reads (v : ValueReader) (levels : Nat) : Prop :=
  ∀ {j : Json} {w t rest : List Char}, Spells j t → Blank w → Ends rest →
    Outcome levels j.depth j.normal rest (v (w ++ (t ++ rest))).view

section Rows

variable {v : ValueReader} {levels : Nat}

/-- The items of a row are read back, by induction on the row. -/
theorem items_of_row (hv : Reads v levels) {js : List Json} {t : List Char} (row : Row Spells js t)
    (rest : List Char) :
    Outcome levels (depthItems js) (normalItems js) rest (items v (t ++ ']' :: rest)).view := by
  -- in either case the first item is read, or it is refused and the row with it
  induction row with
  | @last j t w part after =>
    have hends : Ends (w ++ ']' :: rest) := ends_append_cons after (by decide) rest
    have hone := hv part blank_nil hends
    rw [List.nil_append] at hone
    rw [List.append_assoc, depthItems, depthItems, Nat.max_zero]
    rcases hone.eq_ok_or_error with ⟨fits, hread⟩ | ⟨deep, unread, hrefused⟩
    · rw [items_of_bracket hread (skipSpace_append_cons after (by decide) rest)]
      exact .read fits
    · rw [items_of_error hrefused]
      exact .refused deep unread
  | @cons j js t w w' ts part after before row ih =>
    obtain ⟨c, u, rfl, hspace, hc, -⟩ := row.begins Spells.begins
    have hends : Ends (w ++ ',' :: (w' ++ (c :: u ++ ']' :: rest))) :=
      ends_append_cons after (by decide) _
    have hone := hv part blank_nil hends
    rw [List.nil_append] at hone
    rw [List.append_assoc, List.append_assoc, List.cons_append, List.append_assoc, depthItems]
    rcases hone.eq_ok_or_error with ⟨fits, hread⟩ | ⟨deep, unread, hrefused⟩
    · rw [items_of_comma hread (skipSpace_append_cons after (by decide) _)
        (skipSpace_append_cons before hspace _) hc]
      exact (ih.map (j.normal :: ·)).after fits
    · rw [items_of_error hrefused]
      exact .refused (by omega) unread

/-- The value of a member, after its key. -/
theorem afterColon_spelled (hv : Reads v levels) {j : Json} {w w' t rest : List Char}
    (after : Blank w) (before : Blank w') (value : Spells j t) (hrest : Ends rest) :
    Outcome levels j.depth j.normal rest (afterColon v (w ++ ':' :: (w' ++ (t ++ rest)))).view := by
  rw [afterColon_of_colon (skipSpace_append_cons after (by decide) _)]
  exact hv value before hrest

/-- The members of a row, after its first key has been read. -/
theorem members_of_row (hv : Reads v levels) {ms : List (String × Json)} {t : List Char}
    (row : Row (Member Spells) ms t) (rest : List Char) :
    ∃ key u s, (ms.map Prod.fst).head? = some key ∧ t ++ '}' :: rest = '"' :: u ∧
      (stringBody u).view = .ok (key.toList, s) ∧
      Outcome levels (depthMembers ms) (normalMembers ms) rest (members v key.toList s).view := by
  induction row with
  | @last m t w part after =>
    obtain ⟨key, afterKey, before, value⟩ := part
    have hends : Ends (w ++ '}' :: rest) := ends_append_cons after (by decide) rest
    have hone := afterColon_spelled hv afterKey before value hends
    simp only [List.append_assoc, List.cons_append, quoted_append]
    refine ⟨key, _, _, rfl, rfl, stringBody_escaped key.toList _, ?_⟩
    rw [depthMembers, depthMembers, Nat.max_zero]
    rcases hone.eq_ok_or_error with ⟨fits, hread⟩ | ⟨deep, unread, hrefused⟩
    · rw [members_of_brace hread (skipSpace_append_cons after (by decide) rest),
        String.ofList_toList]
      exact .read fits
    · rw [members_of_error hrefused]
      exact .refused deep unread
  | @cons m ms t w w' ts part after before row ih =>
    obtain @⟨key, j, _, _, _, afterKey, beforeValue, value⟩ := part
    obtain ⟨key', u, s, -, hquote, hkey, hrest⟩ := ih
    have hends : Ends (w ++ ',' :: (w' ++ (ts ++ '}' :: rest))) :=
      ends_append_cons after (by decide) _
    have hone := afterColon_spelled hv afterKey beforeValue value hends
    -- after the comma the rest of the row begins with its own first key
    have hnext : skipSpace (w' ++ (ts ++ '}' :: rest)) = '"' :: u := by
      rw [hquote]
      exact skipSpace_append_cons before (by decide) u
    simp only [List.append_assoc, List.cons_append, quoted_append]
    refine ⟨key, _, _, rfl, rfl, stringBody_escaped key.toList _, ?_⟩
    rw [depthMembers]
    rcases hone.eq_ok_or_error with ⟨fits, hread⟩ | ⟨deep, unread, hrefused⟩
    · rw [members_of_comma hread (skipSpace_append_cons after (by decide) _) hnext hkey,
        String.ofList_toList]
      exact (hrest.map ((key, j.normal) :: ·)).after fits
    · rw [members_of_error hrefused]
      exact .refused (by omega) unread

/-! ## Arrays and objects -/

/-- A spelled array is read back, if its items are. -/
theorem array_spelled (hv : Reads v levels) {js : List Json} {t : List Char}
    (h : Spells (.arr js) ('[' :: t)) (rest : List Char) :
    Outcome levels (depthItems js) (normalItems js) rest (array v (t ++ rest)).view := by
  cases h with
  | noItems inside =>
    rw [List.append_assoc, List.singleton_append,
      array_of_bracket (skipSpace_append_cons inside (by decide) rest)]
    exact .read (Nat.zero_le _)
  | arr before row =>
    obtain ⟨c, u, rfl, hspace, hc, -⟩ := row.begins Spells.begins
    rw [List.append_assoc, List.append_assoc, List.singleton_append, List.cons_append,
      array_of_items (skipSpace_append_cons before hspace _) hc]
    exact items_of_row hv row rest

/-- A spelled object is read back, if its members are. -/
theorem object_spelled (inner : TextReader) (hv : Reads v levels) {ms : List (String × Json)}
    {t : List Char} (h : Spells (.obj ms) ('{' :: t)) (rest : List Char) :
    Outcome levels (depthMembers ms) (obj (Dict.ofPairs (normalMembers ms))) rest
      (object inner v (t ++ rest)).view := by
  cases h with
  | noMembers inside =>
    rw [List.append_assoc, List.singleton_append,
      object_of_brace (skipSpace_append_cons inside (by decide) rest)]
    exact .read (Nat.zero_le _)
  | @obj m ms w t before row hne =>
    obtain ⟨key, u, s, hhead, hquote, hkey, hmembers⟩ := members_of_row hv row rest
    obtain rfl : m.1 = key := Option.some.inj hhead
    have hnext : skipSpace (w ++ (t ++ '}' :: rest)) = '"' :: u := by
      rw [hquote]
      exact skipSpace_append_cons before (by decide) u
    rw [List.append_assoc, List.append_assoc, List.singleton_append,
      object_of_quote hnext hkey (by rw [String.ofList_toList]; exact hne)]
    exact hmembers.map fun ms => obj (Dict.ofPairs ms)

end Rows

/-! ## Values -/

/-- A spelled scalar is read back at any level, also at the last. -/
theorem value_spelled_of_flat (inner : TextReader) (levels : Nat) {j : Json} {w t rest : List Char}
    (h : Spells j t) (hflat : j.depth = 0) (hw : Blank w) (hrest : Ends rest) :
    (value inner levels (w ++ (t ++ rest))).view = .ok (j.normal, rest) := by
  obtain ⟨c, u, rfl, hspace, -, hbracket⟩ := h.first
  have hc : c ≠ '[' ∧ c ≠ '{' := by
    rw [← not_or, hbracket]
    omega
  rw [List.cons_append, value_of_scalar levels (skipSpace_append_cons hw hspace _) hc]
  exact scalar_spelled h hflat hrest

/-- A value is read with as many levels as are left, and no more.  The induction is on the levels:
    what stands in an array or object is read with one less. -/
theorem reads_value (inner : TextReader) (levels : Nat) : Reads (value inner levels) levels := by
  induction levels with
  | zero =>
    intro j w t rest h hw hrest
    by_cases hflat : j.depth = 0
    · rw [value_spelled_of_flat inner 0 h hflat hw hrest]
      exact .read (by omega)
    · -- an array or object, and no level left to open it
      obtain ⟨c, u, rfl, hspace, -, hbracket⟩ := h.first
      have hc : c = '[' ∨ c = '{' := hbracket.mpr (by omega)
      rw [List.cons_append, value_zero (skipSpace_append_cons hw hspace _) hc]
      exact .refused (by omega) _
  | succ below ih =>
    intro j w t rest h hw hrest
    cases j with
    | arr js =>
      obtain ⟨u, rfl⟩ : ∃ u, t = '[' :: u := by cases h <;> exact ⟨_, rfl⟩
      rw [List.cons_append, value_of_bracket below (skipSpace_append_cons hw (by decide) _), depth,
        normal]
      exact ((array_spelled ih h rest).map arr).inside
    | obj ms =>
      obtain ⟨u, rfl⟩ : ∃ u, t = '{' :: u := by cases h <;> exact ⟨_, rfl⟩
      rw [List.cons_append, value_of_brace below (skipSpace_append_cons hw (by decide) _), depth,
        normal]
      exact (object_spelled inner ih h rest).inside
    | _ =>
      rw [value_spelled_of_flat inner (below + 1) h rfl hw hrest]
      exact .read (Nat.zero_le _)

/-! ## Whole texts -/

section Whole

variable {j : Json} {w t w' : List Char}

/-- A spelled document is read back, or it is refused for the level that it lacks. -/
theorem document_spelled (inner : TextReader) (h : Spells j t) (before : Blank w)
    (after : Blank w') :
    (j.depth ≤ levelLimit ∧ document inner (w ++ (t ++ w')) = .ok j.normal) ∨
      (levelLimit < j.depth ∧
        ∃ unread, document inner (w ++ (t ++ w')) = .error (.here .nestedTooDeep unread 1)) := by
  have hvalue := reads_value inner levelLimit h before (ends_of_blank after)
  rcases hvalue.eq_ok_or_error with ⟨fits, hread⟩ | ⟨deep, unread, hrefused⟩
  · obtain ⟨_, hv⟩ := Scanning.view_eq_ok_iff.mp hread
    have hend : skipSpace w' = [] := by
      rw [← List.append_nil w', skipSpace_append after]
      rfl
    refine .inl ⟨fits, ?_⟩
    rw [document, hv]
    dsimp only
    rw [hend]
  · refine .inr ⟨deep, unread, ?_⟩
    rw [document, Scanning.view_eq_error_iff.mp hrefused]

/-- A text that spells a document is read as its normal form, or is nested too deep. -/
theorem read_spelled (h : Spells j t) (before : Blank w) (after : Blank w') :
    (j.depth ≤ levelLimit ∧ read (String.ofList (w ++ (t ++ w'))) = .ok j.normal) ∨
      (levelLimit < j.depth ∧
        ∃ place, read (String.ofList (w ++ (t ++ w'))) = .error ⟨.nestedTooDeep, place⟩) := by
  rw [read, String.toList_ofList, readChars]
  rcases document_spelled _ h before after with ⟨fits, hdocument⟩ | ⟨deep, unread, hdocument⟩
  · rw [hdocument]
    exact .inl ⟨fits, rfl⟩
  · rw [hdocument]
    exact .inr ⟨deep, _, rfl⟩

end Whole

end TypeTree.Json
