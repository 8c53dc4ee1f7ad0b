/-
  How deep a document can be that was read from a text.

  At most 127 arrays and objects may be open at once, so one would expect no document to be deeper.
  But an object may stand for a document that is given as text, and that text is read with levels of
  its own; the one level that its object takes is not to be found in the document.  So a document is
  as deep as the levels of all texts around its deepest part allow: 127 for the innermost one, and
  126 for each text outside of it (`depth_le_of_readWithin`).

  Success of a reader is turned around first: what was read is told by a relation for each of the
  loops (`ItemsRead`, `MembersRead`) and by the cases of an array, an object and a value.  All that
  is needed of the readers later on follows from these.
-/
import TypeTree.Proofs.ReadBack

namespace TypeTree.Json

open Text (Scanning)
open Reading

/-! ## What has been read

Each relation has one constructor for each way in which its reader can succeed. -/

/-- `ItemsRead v s js rest`: from the text `s` on, `v` reads the items `js` up to the closing
    bracket, and `rest` is the text after it. -/
inductive ItemsRead (v : ValueReader) : List Char → List Json → List Char → Prop where
  | last {s s₁ rest : List Char} {j : Json} (item : (v s).view = .ok (j, s₁))
      (close : skipSpace s₁ = ']' :: rest) : ItemsRead v s [j] rest
  | cons {s s₁ t u rest : List Char} {c : Char} {j : Json} {js : List Json}
      (item : (v s).view = .ok (j, s₁)) (comma : skipSpace s₁ = ',' :: t)
      (next : skipSpace t = c :: u) (more : c ≠ ']') (items : ItemsRead v (c :: u) js rest) :
      ItemsRead v s (j :: js) rest

/-- An array, after its opening bracket. -/
inductive ArrayRead (v : ValueReader) : List Char → List Json → List Char → Prop where
  | empty {s rest : List Char} (close : skipSpace s = ']' :: rest) : ArrayRead v s [] rest
  | items {s t rest : List Char} {c : Char} {js : List Json} (next : skipSpace s = c :: t)
      (more : c ≠ ']') (items : ItemsRead v (c :: t) js rest) : ArrayRead v s js rest

/-- `MembersRead v key s ms rest`: the first of the members `ms` has the key `key`, which has been
    read, and from the text `s` on the others are read, with `v` for their values, up to the closing
    brace; `rest` is the text after it. -/
inductive MembersRead (v : ValueReader) :
    List Char → List Char → List (String × Json) → List Char → Prop where
  | last {key s s₁ rest : List Char} {j : Json} (value : (afterColon v s).view = .ok (j, s₁))
      (close : skipSpace s₁ = '}' :: rest) : MembersRead v key s [(String.ofList key, j)] rest
  | cons {key key' s s₁ s₂ t u rest : List Char} {j : Json} {ms : List (String × Json)}
      (value : (afterColon v s).view = .ok (j, s₁)) (comma : skipSpace s₁ = ',' :: t)
      (quote : skipSpace t = '"' :: u) (name : (stringBody u).view = .ok (key', s₂))
      (members : MembersRead v key' s₂ ms rest) :
      MembersRead v key s ((String.ofList key, j) :: ms) rest

/-- An object, after its opening brace; the last case is one that stands for the document `j`, which
    is given as the text `cs`. -/
inductive ObjectRead (inner : TextReader) (v : ValueReader) :
    List Char → Json → List Char → Prop where
  | empty {s rest : List Char} (close : skipSpace s = '}' :: rest) :
      ObjectRead inner v s (obj []) rest
  | members {s s₁ t key rest : List Char} {ms : List (String × Json)}
      (quote : skipSpace s = '"' :: t) (name : (stringBody t).view = .ok (key, s₁))
      (plain : String.ofList key ≠ embedKey) (members : MembersRead v key s₁ ms rest) :
      ObjectRead inner v s (obj (Dict.ofPairs ms)) rest
  | embedded {s s₁ s₂ t t₁ t₂ key cs rest : List Char} {j : Json}
      (quote : skipSpace s = '"' :: t) (name : (stringBody t).view = .ok (key, s₁))
      (embed : String.ofList key = embedKey) (colon : skipSpace s₁ = ':' :: t₁)
      (opening : skipSpace t₁ = '"' :: t₂) (text : (stringBody t₂).view = .ok (cs, s₂))
      (document : inner cs = .ok j) (close : skipSpace s₂ = '}' :: rest) :
      ObjectRead inner v s j rest

/-- A value for which `levels` levels are left. -/
inductive ValueRead (inner : TextReader) : Nat → List Char → Json → List Char → Prop where
  | array {below : Nat} {s t rest : List Char} {js : List Json} (bracket : skipSpace s = '[' :: t)
      (array : ArrayRead (value inner below) t js rest) :
      ValueRead inner (below + 1) s (arr js) rest
  | object {below : Nat} {s t rest : List Char} {j : Json} (brace : skipSpace s = '{' :: t)
      (object : ObjectRead inner (value inner below) t j rest) :
      ValueRead inner (below + 1) s j rest
  | scalar {levels : Nat} {s t rest : List Char} {c : Char} {j : Json} (next : skipSpace s = c :: t)
      (flat : c ≠ '[' ∧ c ≠ '{') (scalar : (scalar (c :: t)).view = .ok (j, rest)) :
      ValueRead inner levels s j rest

/-! ## Readers that succeed -/

/-- What a reader yields after a map is the image of what it yields before. -/
theorem view_map_eq_ok_iff {ε α β : Type} {n : Nat} {f : α → β} {r : Scanning ε α n} {b : β}
    {rest : List Char} :
    (r.map f).view = .ok (b, rest) ↔ ∃ a, r.view = .ok (a, rest) ∧ f a = b := by
  rw [Scanning.view_map]
  cases r.view with
  | error e => simp [Except.map]
  | ok p =>
    obtain ⟨a, u⟩ := p
    simp only [Except.map, Except.ok.injEq, Prod.mk.injEq]
    constructor
    · rintro ⟨rfl, rfl⟩
      exact ⟨a, ⟨rfl, rfl⟩, rfl⟩
    · rintro ⟨_, ⟨rfl, rfl⟩, rfl⟩
      exact ⟨rfl, rfl⟩

theorem view_error_ne_ok {ε α : Type} {n : Nat} {e : ε} {p : α × List Char} :
    Scanning.view (.error e : Scanning ε α n) ≠ .ok p := by
  simp [Scanning.view]

section Success

variable {v : ValueReader} {inner : TextReader} {s rest key : List Char} {j : Json}

/-- The loop over items succeeds exactly on what `ItemsRead` tells.  One direction follows the
    recursion of the loop, the other one the derivation. -/
theorem items_eq_ok_iff {js : List Json} :
    (items v s).view = .ok (js, rest) ↔ ItemsRead v s js rest := by
  constructor
  · intro h
    fun_induction items v s generalizing js with
    | case3 s w s₁ hlt hv hle t hclose =>
      obtain ⟨rfl, rfl⟩ : [w] = js ∧ t = rest := by simpa using h
      exact .last (Scanning.view_eq_ok_iff.mpr ⟨_, hv⟩) hclose
    | case6 s w s₁ hlt hv hle t hcomma hle' c u hmore hnext ih =>
      rw [Scanning.view_loosen, view_map_eq_ok_iff] at h
      obtain ⟨js, hitems, rfl⟩ := h
      exact .cons (Scanning.view_eq_ok_iff.mpr ⟨_, hv⟩) hcomma hnext hmore (ih hitems)
    | _ => exact absurd h view_error_ne_ok
  · intro h
    induction h with
    | last item close => exact items_of_bracket item close
    | cons item comma next more _ ih =>
      rw [items_of_comma item comma next more, ih]
      rfl

/-- An array is read exactly as `ArrayRead` tells. -/
theorem array_eq_ok_iff {js : List Json} :
    (array v s).view = .ok (js, rest) ↔ ArrayRead v s js rest := by
  constructor
  · fun_cases array v s with
    | case1 => exact fun h => absurd h view_error_ne_ok
    | case2 _ t hclose =>
      intro h
      obtain ⟨rfl, rfl⟩ : [] = js ∧ t = rest := by simpa using h
      exact .empty hclose
    | case3 _ c t hmore hnext =>
      intro h
      rw [Scanning.view_loosen] at h
      exact .items hnext hmore (items_eq_ok_iff.mp h)
  · intro h
    cases h with
    | empty close => exact array_of_bracket close
    | items next more items =>
      rw [array_of_items next more]
      exact items_eq_ok_iff.mpr items

/-- The loop over members succeeds exactly on what `MembersRead` tells; the key of the member to
    come is an argument of the loop. -/
theorem members_eq_ok_iff {ms : List (String × Json)} :
    (members v key s).view = .ok (ms, rest) ↔ MembersRead v key s ms rest := by
  constructor
  · intro h
    fun_induction members v key s generalizing ms with
    | case3 key s w s₁ hlt hv hle t hclose =>
      obtain ⟨rfl, rfl⟩ : [(String.ofList key, w)] = ms ∧ t = rest := by simpa using h
      exact .last (Scanning.view_eq_ok_iff.mpr ⟨_, hv⟩) hclose
    | case6 key s w s₁ hlt hv hle t hcomma hle' u hquote key' s₂ hlt' hname ih =>
      rw [Scanning.view_loosen, view_map_eq_ok_iff] at h
      obtain ⟨ms, hmembers, rfl⟩ := h
      exact .cons (Scanning.view_eq_ok_iff.mpr ⟨_, hv⟩) hcomma hquote
        (Scanning.view_eq_ok_iff.mpr ⟨_, hname⟩) (ih hmembers)
    | _ => exact absurd h view_error_ne_ok
  · intro h
    induction h with
    | last value close => exact members_of_brace value close
    | cons value comma quote name _ ih =>
      rw [members_of_comma value comma quote name, ih]
      rfl

/-- A content after a colon is read exactly if the colon is there and the content is read. -/
theorem afterColon_eq_ok_iff {α : Type} {content : (s : List Char) → Reading α s.length} {a : α} :
    (afterColon content s).view = .ok (a, rest) ↔
      ∃ t, skipSpace s = ':' :: t ∧ (content t).view = .ok (a, rest) := by
  constructor
  · fun_cases afterColon content s with
    | case1 => exact fun h => absurd h view_error_ne_ok
    | case2 _ t hcolon =>
      intro h
      rw [Scanning.view_loosen] at h
      exact ⟨t, hcolon, h⟩
    | case3 => exact fun h => absurd h view_error_ne_ok
  · rintro ⟨t, hcolon, h⟩
    rw [afterColon_of_colon hcolon]
    exact h

/-- A text is read exactly if it is in quotes. -/
theorem text_eq_ok_iff {cs : List Char} :
    (text s).view = .ok (cs, rest) ↔
      ∃ t, skipSpace s = '"' :: t ∧ (stringBody t).view = .ok (cs, rest) := by
  constructor
  · fun_cases text s with
    | case1 _ t hquote =>
      intro h
      rw [Scanning.view_loosen] at h
      exact ⟨t, hquote, h⟩
    | _ => exact fun h => absurd h view_error_ne_ok
  · rintro ⟨t, hquote, h⟩
    unfold text
    dsimp only
    split
    case h_1 heq =>
      obtain ⟨-, rfl⟩ := List.cons.inj (hquote.symm.trans heq)
      rw [Scanning.view_loosen]
      exact h
    all_goals grind

/-- An object closes with nothing but spaces before its brace, and yields what it is given. -/
theorem closing_eq_ok_iff {α : Type} {a b : α} :
    (closing a s).view = .ok (b, rest) ↔ a = b ∧ skipSpace s = '}' :: rest := by
  fun_cases closing a s with
  | case2 _ t hclose => simp [hclose]
  | _ => simp_all [refuse, Scanning.view]

/-- An embedded text is read exactly if there is a text after the colon, this text is a document on
    its own, and no other member follows. -/
theorem embedded_eq_ok_iff :
    (embedded inner s).view = .ok (j, rest) ↔
      ∃ cs s₁, (afterColon text s).view = .ok (cs, s₁) ∧ inner cs = .ok j ∧
        skipSpace s₁ = '}' :: rest := by
  constructor
  · fun_cases embedded inner s with
    | case1 => exact fun h => absurd h view_error_ne_ok
    | case2 => exact fun h => absurd h view_error_ne_ok
    | case3 cs s₁ hlt htext k hk =>
      intro h
      rw [Scanning.view_loosen, closing_eq_ok_iff] at h
      obtain ⟨rfl, hclose⟩ := h
      exact ⟨cs, s₁, Scanning.view_eq_ok_iff.mpr ⟨_, htext⟩, hk, hclose⟩
  · rintro ⟨cs, s₁, htext, hinner, hclose⟩
    obtain ⟨_, htext⟩ := Scanning.view_eq_ok_iff.mp htext
    rw [embedded, htext]
    simp only [hinner]
    rw [Scanning.view_loosen, closing_eq_ok_iff]
    exact ⟨rfl, hclose⟩

/-- An object that stands for a document is what that document is. -/
theorem object_of_embed {t s₁ : List Char} (quote : skipSpace s = '"' :: t)
    (name : (stringBody t).view = .ok (key, s₁)) (embed : String.ofList key = embedKey) :
    (object inner v s).view = (embedded inner s₁).view := by
  obtain ⟨_, hb⟩ := Scanning.view_eq_ok_iff.mp name
  unfold object
  dsimp only
  split
  case h_3 heq =>
    obtain ⟨-, rfl⟩ := List.cons.inj (quote.symm.trans heq)
    rw [hb]
    dsimp only
    rw [if_pos embed, Scanning.view_loosen]
  all_goals grind

/-- An object is read exactly as `ObjectRead` tells.  Its first key alone decides whether it stands
    for an embedded text. -/
theorem object_eq_ok_iff :
    (object inner v s).view = .ok (j, rest) ↔ ObjectRead inner v s j rest := by
  constructor
  · fun_cases object inner v s with
    | case1 => exact fun h => absurd h view_error_ne_ok
    | case2 _ t hclose =>
      intro h
      obtain ⟨rfl, rfl⟩ : obj [] = j ∧ t = rest := by simpa using h
      exact .empty hclose
    | case3 => exact fun h => absurd h view_error_ne_ok
    | case4 _ t hquote key s₁ _ hname hembed =>
      intro h
      rw [Scanning.view_loosen, embedded_eq_ok_iff] at h
      obtain ⟨cs, s₂, htext, hinner, hclose⟩ := h
      obtain ⟨t₁, hcolon, htext⟩ := afterColon_eq_ok_iff.mp htext
      obtain ⟨t₂, hopening, htext⟩ := text_eq_ok_iff.mp htext
      exact .embedded hquote (Scanning.view_eq_ok_iff.mpr ⟨_, hname⟩) hembed hcolon hopening htext
        hinner hclose
    | case5 _ t hquote key s₁ _ hname hplain =>
      intro h
      rw [Scanning.view_loosen, view_map_eq_ok_iff] at h
      obtain ⟨ms, hmembers, rfl⟩ := h
      exact .members hquote (Scanning.view_eq_ok_iff.mpr ⟨_, hname⟩) hplain
        (members_eq_ok_iff.mp hmembers)
    | case6 => exact fun h => absurd h view_error_ne_ok
  · intro h
    cases h with
    | empty close => exact object_of_brace close
    | members quote name plain members =>
      rw [object_of_quote quote name plain, members_eq_ok_iff.mpr members]
      rfl
    | embedded quote name embed colon opening text document close =>
      rw [object_of_embed quote name embed, embedded_eq_ok_iff]
      exact ⟨_, _, afterColon_eq_ok_iff.mpr ⟨_, colon, text_eq_ok_iff.mpr ⟨_, opening, text⟩⟩,
        document, close⟩

/-- A value is read exactly as `ValueRead` tells; without levels left only scalars are. -/
theorem value_eq_ok_iff {levels : Nat} :
    (value inner levels s).view = .ok (j, rest) ↔ ValueRead inner levels s j rest := by
  constructor
  · fun_cases value inner levels s with
    | case1 => exact fun h => absurd h view_error_ne_ok
    | case2 _ t hbracket below =>
      intro h
      rw [Scanning.view_loosen, view_map_eq_ok_iff] at h
      obtain ⟨js, harray, rfl⟩ := h
      exact .array hbracket (array_eq_ok_iff.mp harray)
    | case3 => exact fun h => absurd h view_error_ne_ok
    | case4 _ t hbrace below =>
      intro h
      rw [Scanning.view_loosen] at h
      exact .object hbrace (object_eq_ok_iff.mp h)
    | case5 _ _ hbracket hbrace =>
      intro h
      rw [Scanning.view_loosen] at h
      cases hs : skipSpace s with
      | nil =>
        rw [hs] at h
        exact absurd h view_error_ne_ok
      | cons c t =>
        rw [hs] at h
        exact .scalar hs ⟨fun hc => hbracket t (hc ▸ hs), fun hc => hbrace t (hc ▸ hs)⟩ h
  · intro h
    cases h with
    | array bracket array =>
      rw [value_of_bracket _ bracket, array_eq_ok_iff.mpr array]
      rfl
    | object brace object =>
      rw [value_of_brace _ brace]
      exact object_eq_ok_iff.mpr object
    | scalar next flat scalar =>
      rw [value_of_scalar _ next flat]
      exact scalar

/-- A document is a value with all levels left and nothing but spaces after it. -/
theorem document_eq_ok_iff :
    document inner s = .ok j ↔
      ∃ rest, ValueRead inner levelLimit s j rest ∧ skipSpace rest = [] := by
  constructor
  · intro h
    rw [document] at h
    split at h
    · exact absurd h (by simp)
    · rename_i k rest hlt hvalue
      split at h
      · rename_i hend
        obtain rfl := Except.ok.inj h
        exact ⟨rest, value_eq_ok_iff.mp (Scanning.view_eq_ok_iff.mpr ⟨_, hvalue⟩), hend⟩
      · exact absurd h (by simp)
  · rintro ⟨rest, hvalue, hend⟩
    obtain ⟨_, hv⟩ := Scanning.view_eq_ok_iff.mp (value_eq_ok_iff.mpr hvalue)
    rw [document, hv]
    simp only [hend]

end Success

/-! ## Readers of embedded texts -/

/-- Every reader that succeeds has read something. -/
theorem length_lt_of_view {ε α : Type} {n : Nat} {r : Scanning ε α n} {a : α} {rest : List Char}
    (h : r.view = .ok (a, rest)) : rest.length < n := by
  obtain ⟨hlt, -⟩ := Scanning.view_eq_ok_iff.mp h
  exact hlt

theorem length_lt_of_skipSpace {s t : List Char} {c : Char} (h : skipSpace s = c :: t) :
    t.length < s.length := by
  have hle := length_skipSpace_le s
  rw [h, List.length_cons] at hle
  exact hle

/-- What `v` reads from fewer than `n` characters, `v'` reads as well. -/
def Covers (n : Nat) (v v' : ValueReader) : Prop :=
  ∀ s, s.length < n → ∀ j rest, (v s).view = .ok (j, rest) → (v' s).view = .ok (j, rest)

/-- The same of readers of texts. -/
def CoversTexts (n : Nat) (inner inner' : TextReader) : Prop :=
  ∀ s, s.length < n → ∀ j, inner s = .ok j → inner' s = .ok j

section Covers

variable {v v' : ValueReader} {inner inner' : TextReader} {n m : Nat} {s rest key : List Char}
  {j : Json}

/-- A reader that covers another one on longer texts does so on shorter ones. -/
theorem Covers.mono (h : Covers m v v') (hnm : n ≤ m) : Covers n v v' :=
  fun s hs => h s (Nat.lt_of_lt_of_le hs hnm)

theorem CoversTexts.mono (h : CoversTexts m inner inner') (hnm : n ≤ m) :
    CoversTexts n inner inner' :=
  fun s hs => h s (Nat.lt_of_lt_of_le hs hnm)

/-- Items that were read with one reader of values are read with any that covers it.  What is left
    gets shorter with each item, so covering texts of this length is enough. -/
theorem ItemsRead.covered {js : List Json} (h : ItemsRead v s js rest)
    (hv : Covers (s.length + 1) v v') : ItemsRead v' s js rest := by
  induction h with
  | last item close => exact .last (hv _ (Nat.lt_succ_self _) _ _ item) close
  | @cons s s₁ t u rest c j js item comma next more _ ih =>
    have h₁ := length_lt_of_view item
    have h₂ := length_lt_of_skipSpace comma
    have h₃ := length_lt_of_skipSpace next
    refine .cons (hv _ (Nat.lt_succ_self _) _ _ item) comma next more (ih (hv.mono ?_))
    rw [List.length_cons]
    omega

theorem ArrayRead.covered {js : List Json} (h : ArrayRead v s js rest)
    (hv : Covers (s.length + 1) v v') : ArrayRead v' s js rest := by
  cases h with
  | empty close => exact .empty close
  | items next more items =>
    have h₁ := length_lt_of_skipSpace next
    refine .items next more (items.covered (hv.mono ?_))
    rw [List.length_cons]
    omega

/-- The colon takes a character, so here covering shorter texts is enough. -/
theorem afterColon_covered (hv : Covers s.length v v')
    (h : (afterColon v s).view = .ok (j, rest)) : (afterColon v' s).view = .ok (j, rest) := by
  obtain ⟨t, hcolon, hvalue⟩ := afterColon_eq_ok_iff.mp h
  exact afterColon_eq_ok_iff.mpr ⟨t, hcolon, hv t (length_lt_of_skipSpace hcolon) _ _ hvalue⟩

/-- Members that were read with one reader of values are read with any that covers it. -/
theorem MembersRead.covered {ms : List (String × Json)} (h : MembersRead v key s ms rest)
    (hv : Covers s.length v v') : MembersRead v' key s ms rest := by
  induction h with
  | last value close => exact .last (afterColon_covered hv value) close
  | @cons key key' s s₁ s₂ t u rest j ms value comma quote name _ ih =>
    have h₁ := length_lt_of_view value
    have h₂ := length_lt_of_skipSpace comma
    have h₃ := length_lt_of_skipSpace quote
    have h₄ := length_lt_of_view name
    exact .cons (afterColon_covered hv value) comma quote name (ih (hv.mono (by omega)))

/-- An embedded text is shorter than what is left of the text around it, so it does not matter what
    the readers of embedded texts make of longer ones. -/
theorem ObjectRead.covered (h : ObjectRead inner v s j rest) (hv : Covers s.length v v')
    (hinner : CoversTexts s.length inner inner') : ObjectRead inner' v' s j rest := by
  cases h with
  | empty close => exact .empty close
  | members quote name plain members =>
    have h₁ := length_lt_of_skipSpace quote
    have h₂ := length_lt_of_view name
    exact .members quote name plain (members.covered (hv.mono (by omega)))
  | embedded quote name embed colon opening text document close =>
    have h₁ := length_lt_of_skipSpace quote
    have h₂ := length_lt_of_view name
    have h₃ := length_lt_of_skipSpace colon
    have h₄ := length_lt_of_skipSpace opening
    have h₅ := length_add_length_lt_of_stringBody text
    exact .embedded quote name embed colon opening text (hinner _ (by omega) _ document) close

/-- The induction is on the levels, as in the reader. -/
theorem covers_value (hinner : CoversTexts n inner inner') (levels : Nat) :
    Covers (n + 1) (value inner levels) (value inner' levels) := by
  induction levels with
  | zero =>
    intro s hs j rest h
    rw [value_eq_ok_iff] at h ⊢
    cases h with
    | scalar next flat scalar => exact .scalar next flat scalar
  | succ below ih =>
    intro s hs j rest h
    rw [value_eq_ok_iff] at h ⊢
    cases h with
    | array bracket array =>
      have h₁ := length_lt_of_skipSpace bracket
      exact .array bracket (array.covered (ih.mono (by omega)))
    | object brace object =>
      have h₁ := length_lt_of_skipSpace brace
      exact .object brace (object.covered (ih.mono (by omega)) (hinner.mono (by omega)))
    | scalar next flat scalar => exact .scalar next flat scalar

/-- A document that was read with one reader of embedded texts is read with any that does as well on
    shorter texts. -/
theorem document_covered (h : document inner s = .ok j)
    (hinner : CoversTexts s.length inner inner') : document inner' s = .ok j := by
  obtain ⟨rest, hvalue, hend⟩ := document_eq_ok_iff.mp h
  have hcovers := covers_value hinner levelLimit
  have hread := hcovers s (Nat.lt_succ_self _) j rest (value_eq_ok_iff.mpr hvalue)
  exact document_eq_ok_iff.mpr ⟨rest, value_eq_ok_iff.mp hread, hend⟩

end Covers

/-! ## Texts inside texts -/

/-- Reads a text, with `inner` for the texts that are embedded in it. -/
def readUsing (inner : TextReader) : TextReader := fun s =>
  (document inner s).mapError (Failure.toError s)

/-- Reads a text that has embedded texts at most `e` deep inside one another, and refuses any
    other. -/
def readWithin : Nat → TextReader
  | 0 => readUsing fun _ => .error ⟨.endInValue, ⟨1, 0⟩⟩
  | e + 1 => readUsing (readWithin e)

section ReadWithin

variable {inner inner' : TextReader} {e : Nat} {s : List Char} {j : Json}

theorem readUsing_eq_ok_iff : readUsing inner s = .ok j ↔ document inner s = .ok j := by
  rw [readUsing]
  cases document inner s with
  | error e =>
    show Except.error (Failure.toError s e) = .ok j ↔ _
    simp
  | ok k =>
    show Except.ok k = .ok j ↔ _
    simp

/-- The same with failures placed in the text. -/
theorem readUsing_covered (h : readUsing inner s = .ok j)
    (hinner : CoversTexts s.length inner inner') : readUsing inner' s = .ok j := by
  rw [readUsing_eq_ok_iff] at h ⊢
  exact document_covered h hinner

/-- The reader reads with itself for the embedded texts, as long as they are shorter. -/
theorem readChars_eq_readUsing (s : List Char) :
    readChars s = readUsing
      (fun t => if t.length < s.length then readChars t else .error ⟨.endInValue, ⟨1, 0⟩⟩) s := by
  rw [readChars]
  rfl

/-- A bound on the embedding only refuses texts; it does not change what is read. -/
theorem readChars_of_readWithin (h : readWithin e s = .ok j) : readChars s = .ok j := by
  induction e generalizing s j with
  | zero =>
    rw [readChars_eq_readUsing]
    refine readUsing_covered h fun t _ k hk => ?_
    exact absurd hk (by simp)
  | succ e ih =>
    rw [readChars_eq_readUsing]
    refine readUsing_covered h fun t ht k hk => ?_
    rw [if_pos ht]
    exact ih hk

/-- Texts inside one another get shorter, so there are no more of them than characters. -/
theorem readWithin_of_readChars (hlength : s.length ≤ e) (h : readChars s = .ok j) :
    readWithin e s = .ok j := by
  induction e generalizing s j with
  | zero =>
    rw [readChars_eq_readUsing] at h
    refine readUsing_covered h fun t ht k _ => ?_
    omega
  | succ e ih =>
    rw [readChars_eq_readUsing] at h
    refine readUsing_covered h fun t ht k hk => ?_
    rw [if_pos ht] at hk
    exact ih (by omega) hk

/-- A text is read exactly if it is read with some bound on its embedding. -/
theorem readChars_eq_ok_iff : readChars s = .ok j ↔ ∃ e, readWithin e s = .ok j := by
  constructor
  · intro h
    exact ⟨s.length, readWithin_of_readChars (Nat.le_refl _) h⟩
  · rintro ⟨e, h⟩
    exact readChars_of_readWithin h

end ReadWithin

/-! ## Depth -/

/-- A literal yields the value it is given and no other. -/
theorem literal_eq {α : Type} {a b : α} {word s rest : List Char}
    (h : (literal a word s).view = .ok (b, rest)) : a = b := by
  fun_induction literal a word s with
  | case1 s => exact (Prod.mk.inj (Except.ok.inj h)).1
  | case3 w ws s ih =>
    rw [Scanning.view_widen] at h
    exact ih h
  | _ => exact absurd h view_error_ne_ok

/-- What is no array and no object opens no level. -/
theorem depth_of_scalar {s rest : List Char} {j : Json} (h : (scalar s).view = .ok (j, rest)) :
    j.depth = 0 := by
  unfold scalar at h
  split at h
  · rw [← literal_eq h, depth]
  · rw [← literal_eq h, depth]
  · rw [← literal_eq h, depth]
  · rw [Scanning.view_widen, view_map_eq_ok_iff] at h
    obtain ⟨cs, -, rfl⟩ := h
    rfl
  · exact absurd h view_error_ne_ok
  · split at h
    · rw [view_map_eq_ok_iff] at h
      obtain ⟨n, -, rfl⟩ := h
      rfl
    · exact absurd h view_error_ne_ok

section Depth

variable {v : ValueReader} {inner : TextReader} {d : Nat} {s rest key : List Char}

/-- Items are as deep as the reader of values can get. -/
theorem ItemsRead.depth_le {js : List Json} (h : ItemsRead v s js rest)
    (hv : ∀ s j rest, (v s).view = .ok (j, rest) → j.depth ≤ d) : depthItems js ≤ d := by
  induction h with
  | last item _ =>
    rw [depthItems, depthItems, Nat.max_zero]
    exact hv _ _ _ item
  | cons item _ _ _ _ ih =>
    rw [depthItems]
    exact Nat.max_le.mpr ⟨hv _ _ _ item, ih⟩

/-- Members are as deep as the reader of values can get. -/
theorem MembersRead.depth_le {ms : List (String × Json)} (h : MembersRead v key s ms rest)
    (hv : ∀ s j rest, (v s).view = .ok (j, rest) → j.depth ≤ d) : ∀ m ∈ ms, m.2.depth ≤ d := by
  induction h with
  | last value _ =>
    obtain ⟨_, -, hvalue⟩ := afterColon_eq_ok_iff.mp value
    exact List.forall_mem_singleton.mpr (hv _ _ _ hvalue)
  | cons value _ _ _ _ ih =>
    obtain ⟨_, -, hvalue⟩ := afterColon_eq_ok_iff.mp value
    exact List.forall_mem_cons.mpr ⟨hv _ _ _ hvalue, ih⟩

/-- A value is as deep as the levels that were left, and `extra` deeper if it holds a document that
    is given as text: of that document's depth one level is its object's. -/
theorem ValueRead.depth_le (extra : Nat) (hinner : ∀ t j, inner t = .ok j → j.depth ≤ extra + 1)
    {levels : Nat} : ∀ {s rest : List Char} {j : Json},
      ValueRead inner levels s j rest → j.depth ≤ levels + extra := by
  induction levels with
  | zero =>
    intro s rest j h
    cases h with
    | scalar _ _ scalar =>
      rw [depth_of_scalar scalar]
      omega
  | succ below ih =>
    have hbelow : ∀ s j rest, (value inner below s).view = .ok (j, rest) →
        j.depth ≤ below + extra := fun s j rest h => ih (value_eq_ok_iff.mp h)
    intro s rest j h
    cases h with
    | array _ array =>
      rw [depth]
      cases array with
      | empty _ =>
        rw [depthItems]
        omega
      | items _ _ items =>
        have := items.depth_le hbelow
        omega
    | object _ object =>
      cases object with
      | empty _ =>
        rw [depth, depthMembers]
        omega
      | members _ _ _ members =>
        -- of two members with one key only the last is kept
        have hparts := depthMembers_le fun m hm =>
          members.depth_le hbelow m (Dict.mem_of_mem_ofPairs hm)
        rw [depth]
        omega
      | embedded _ _ _ _ _ _ document _ =>
        have := hinner _ _ document
        omega
    | scalar _ _ scalar =>
      rw [depth_of_scalar scalar]
      omega

/-- Each text around the innermost one adds at most the levels that were left when it opened the
    object that stands for the text inside. -/
theorem depth_le_of_readWithin {e : Nat} {s : List Char} {j : Json}
    (h : readWithin e s = .ok j) : j.depth ≤ 127 + 126 * e := by
  induction e generalizing s j with
  | zero =>
    obtain ⟨rest, hvalue, -⟩ := document_eq_ok_iff.mp (readUsing_eq_ok_iff.mp h)
    refine hvalue.depth_le 0 ?_
    intro t k hk
    exact absurd hk (by simp)
  | succ e ih =>
    obtain ⟨rest, hvalue, -⟩ := document_eq_ok_iff.mp (readUsing_eq_ok_iff.mp h)
    have hinner : ∀ t j, readWithin e t = .ok j → j.depth ≤ (126 + 126 * e) + 1 := by
      intro t k hk
      have := ih hk
      omega
    have hle := hvalue.depth_le _ hinner
    rw [levelLimit] at hle
    omega

end Depth

end TypeTree.Json
