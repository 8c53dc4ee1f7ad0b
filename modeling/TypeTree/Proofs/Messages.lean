/-
  Messages: a fault is known from its wording, and the wording stays on one line.

  A tag that names no kind can be any text at all, and the message about it quotes it.  Quoting mixes
  several spellings: most characters stand for themselves, some are written behind a backslash, and
  the others by their code, in as many digits as it has.  A reader can still tell the next character
  from the left (`unescape?_escape`), and the quote that ends the text stands for none.  So different
  tags are quoted differently (`quote_injective`).

  The message about a malformed node quotes nothing: its parts are words, and each ends at the first
  character that cannot belong to it.
-/
import TypeTree.Proofs.Rows

namespace TypeTree

universe u

namespace Text

/-! ## Controls -/

/-- The character is no control of ASCII: it is not below the space, and not the delete character. -/
def isPlain (c : Char) : Bool :=
  decide (' ' ≤ c) && c != '\x7f'

/-- All characters are plain but those below the space, and delete. -/
theorem isPlain_iff {c : Char} : isPlain c = true ↔ 0x20 ≤ c.toNat ∧ c.toNat ≠ 0x7F := by
  have hspace : ' ' ≤ c ↔ 0x20 ≤ c.toNat := Iff.rfl
  have hdelete : c = '\x7f' ↔ c.toNat = 0x7F := by
    rw [← Char.toNat_inj]
    rfl
  rw [isPlain, Bool.and_eq_true, decide_eq_true_eq, bne_iff_ne, hspace, ne_eq, hdelete]

theorem isPlain_of_isAlpha {c : Char} (h : c.isAlpha = true) : isPlain c = true := by
  rw [isPlain_iff]
  simp only [Char.isAlpha, Char.isUpper, Char.isLower, Bool.or_eq_true, Bool.and_eq_true,
    decide_eq_true_eq, ge_iff_le, UInt32.le_iff_toNat_le] at h
  have htoNat : c.toNat = c.val.toNat := rfl
  have hupper : 'A'.val.toNat = 65 ∧ 'Z'.val.toNat = 90 := ⟨rfl, rfl⟩
  have hlower : 'a'.val.toNat = 97 ∧ 'z'.val.toNat = 122 := ⟨rfl, rfl⟩
  omega

/-- What shows by itself is no control. -/
theorem isPlain_of_printable {c : Char} (h : ¬ isUnprintable c = true) : isPlain c = true := by
  rw [isPlain_iff]
  refine ⟨Nat.le_of_not_lt fun hlow => h (isUnprintable_of_lt hlow), ?_⟩
  exact fun hdelete => h (isUnprintable_of_delete hdelete)

/-! ## Hexadecimal digits -/

theorem hexDigit?_digitChar : ∀ d < 16, hexDigit? d.digitChar = some d := by
  decide

/-- One more digit is one more place. -/
theorem hexValue?_append {ds : List Char} {v d : Nat} (hds : hexValue? ds = some v) (hd : d < 16) :
    hexValue? (ds ++ [d.digitChar]) = some (16 * v + d) := by
  rw [hexValue?, List.foldlM_append, ← hexValue?, hds]
  simp [hexDigit?_digitChar d hd]

/-- The digits of a number are read as the number. -/
theorem hexValue?_hexDigits (n : Nat) : hexValue? (hexDigits n) = some n := by
  induction n using Nat.strongRecOn with
  | ind n ih =>
    by_cases hn : n < 16
    · rw [hexDigits, Nat.toDigits_of_lt_base hn]
      have hone : hexValue? ([] ++ [n.digitChar]) = some (16 * 0 + n) := hexValue?_append rfl hn
      rwa [Nat.zero_add] at hone
    · have hhigh := ih (n / 16) (by omega)
      have hlow : n % 16 < 16 := Nat.mod_lt n (by decide)
      rw [hexDigits, Nat.toDigits_of_base_le (by decide) (by omega), ← hexDigits,
        hexValue?_append hhigh hlow, Nat.div_add_mod]

/-- Digits are plain, and they are not braces. -/
theorem digitChar_plain : ∀ d < 16, isPlain d.digitChar = true ∧ d.digitChar ≠ '\x7d' := by
  decide

/-- Escapes have the sixteen digits only. -/
theorem exists_digit_of_mem_hexDigits {n : Nat} :
    ∀ c ∈ hexDigits n, ∃ d < 16, c = d.digitChar := by
  induction n using Nat.strongRecOn with
  | ind n ih =>
    intro c hc
    by_cases hn : n < 16
    · rw [hexDigits, Nat.toDigits_of_lt_base hn] at hc
      exact ⟨n, hn, List.mem_singleton.mp hc⟩
    · rw [hexDigits, Nat.toDigits_of_base_le (by decide) (by omega), ← hexDigits] at hc
      rcases List.mem_append.mp hc with hc | hc
      · exact ih (n / 16) (by omega) c hc
      · exact ⟨n % 16, Nat.mod_lt n (by decide), List.mem_singleton.mp hc⟩

/-! ## Quoted text -/

/-- The character that a letter stands for behind a backslash. -/
def unescapeLetter? : Char → Option Char
  | '"' => some '"'
  | '\\' => some '\\'
  | 'n' => some '\n'
  | 'r' => some '\r'
  | 't' => some '\t'
  | '0' => some '\x00'
  | _ => none

/-- The first character of a text as it stands inside quotes, and the text after it.  A quote by itself
    ends the text, so it is no character. -/
def unescape? : List Char → Option (Char × List Char)
  | [] => none
  | '"' :: _ => none
  | '\\' :: 'u' :: '\x7b' :: t =>
    match hexValue? (t.takeWhile (· != '\x7d')), t.dropWhile (· != '\x7d') with
    | some v, _ :: rest => some (Char.ofNat v, rest)
    | _, _ => none
  | '\\' :: c :: t => (unescapeLetter? c).map (·, t)
  | c :: t => some (c, t)

/-- A code in braces is read as its character. -/
theorem unescape?_code (c : Char) (t : List Char) :
    unescape? ('\\' :: 'u' :: '\x7b' :: (hexDigits c.toNat ++ '\x7d' :: t)) = some (c, t) := by
  have hdigits : ∀ d ∈ hexDigits c.toNat, (d != '\x7d') = true := by
    intro d hd
    obtain ⟨k, hk, rfl⟩ := exists_digit_of_mem_hexDigits d hd
    exact bne_iff_ne.mpr (digitChar_plain k hk).2
  rw [unescape?, List.takeWhile_append_of_pos hdigits, List.dropWhile_append_of_pos hdigits]
  simp [hexValue?_hexDigits]

/-- Whatever is written for a character is read as that character. -/
theorem unescape?_escape (c : Char) (t : List Char) : unescape? (escape c ++ t) = some (c, t) := by
  unfold escape
  split
  · rfl
  · rfl
  · rfl
  · rfl
  · rfl
  · rfl
  · rename_i hquote hslash _ _ _ _
    split
    · have hcode := unescape?_code c t
      simpa using hcode
    · -- a character that stands for itself
      rw [List.singleton_append, unescape?]
      · exact hquote
      · exact fun _ heq _ => hslash heq
      · exact fun _ _ heq _ => hslash heq

/-- Quoted characters end where a quote stands by itself. -/
theorem escaped_append_inj {cs : List Char} : ∀ {ds r s : List Char},
    cs.flatMap escape ++ '"' :: r = ds.flatMap escape ++ '"' :: s → cs = ds ∧ r = s := by
  have hend : ∀ {c : Char} {t r : List Char}, '"' :: r ≠ escape c ++ t := by
    intro c t r heq
    have hread := unescape?_escape c t
    rw [← heq] at hread
    exact absurd hread (by simp [unescape?])
  induction cs with
  | nil =>
    intro ds r s h
    cases ds with
    | nil => exact ⟨rfl, (List.cons.inj h).2⟩
    | cons d ds =>
      rw [List.flatMap_cons, List.append_assoc] at h
      exact absurd h hend
  | cons c cs ih =>
    intro ds r s h
    cases ds with
    | nil =>
      rw [List.flatMap_cons, List.append_assoc] at h
      exact absurd h.symm hend
    | cons d ds =>
      rw [List.flatMap_cons, List.flatMap_cons, List.append_assoc, List.append_assoc] at h
      have hread := unescape?_escape c (cs.flatMap escape ++ '"' :: r)
      rw [h, unescape?_escape] at hread
      obtain ⟨rfl, hmore⟩ := Prod.mk.inj (Option.some.inj hread)
      obtain ⟨rfl, hrest⟩ := ih hmore.symm
      exact ⟨rfl, hrest⟩

/-- Different texts are quoted differently. -/
theorem quote_injective {s t : String} (h : quote s = quote t) : s = t := by
  have hchars := (List.cons.inj (String.ofList_injective h)).2
  exact String.toList_inj.mp (escaped_append_inj hchars).1

/-- A control is written by a letter or by its code. -/
theorem all_isPlain_escape (c : Char) : (escape c).all isPlain = true := by
  unfold escape
  split
  · decide
  · decide
  · decide
  · decide
  · decide
  · decide
  · split
    · have hdigits : (hexDigits c.toNat).all isPlain = true := by
        refine List.all_eq_true.mpr fun d hd => ?_
        obtain ⟨k, hk, rfl⟩ := exists_digit_of_mem_hexDigits d hd
        exact (digitChar_plain k hk).1
      rw [List.all_append, List.all_append, hdigits]
      decide
    · rename_i hshows
      rw [List.all_cons, isPlain_of_printable hshows]
      rfl

/-- A quoted text has plain characters only, whatever the text has. -/
theorem all_isPlain_quote (s : String) : (quote s).toList.all isPlain = true := by
  have hchars : (s.toList.flatMap escape).all isPlain = true := by
    rw [List.all_flatMap]
    exact List.all_eq_true.mpr fun c _ => all_isPlain_escape c
  rw [quote, String.toList_ofList, List.all_append, List.all_cons, hchars]
  decide

end Text

/-! ## Faults -/

namespace Fault

/-- The faults that a tree can have: a tag can be any text, and the slot that is not filled is one of
    the kind's own. -/
def Raisable : Fault → Prop
  | unknownTag _ => True
  | malformed kind slot => slot ∈ kind.slots

open Text (isPlain)

/-- Every fault that a walk comes to can be raised. -/
theorem raisable_of_offends {α : Type u} [Node α] {n : α} {f : Fault} (h : Node.Offends n f) :
    f.Raisable := by
  cases h with
  | unknownTag _ => exact trivial
  | @malformed k before after slot _ order _ _ =>
    show slot ∈ k.slots
    rw [order]
    exact List.mem_append_right before List.mem_cons_self

/-- The parts of a message about a malformed node.  A space ends the tag, and a backtick the
    property. -/
theorem message_malformed (k : Kind) (slot : Slot) :
    (malformed k slot).message.toList =
      "Malformed ".toList ++ (k.tag.toList ++ ' ' :: ("node: property `".toList ++
        (slot.property.toList ++ '\x60' :: (" must hold ".toList ++ slot.shape.phrase.toList)))) := by
  have hnode : " node: property `".toList = ' ' :: "node: property `".toList := by simp
  have hmust : "` must hold ".toList = '\x60' :: " must hold ".toList := by simp
  show ("Malformed " ++ k.tag ++ " node: property `" ++ slot.property ++ "` must hold " ++
    slot.shape.phrase).toList = _
  simp only [String.toList_append, List.append_assoc, hnode, hmust, List.cons_append]

theorem message_unknownTag (tag : String) :
    (unknownTag tag).message.toList =
      "No schema for node type ".toList ++ (Text.quote tag).toList := by
  show ("No schema for node type " ++ Text.quote tag).toList = _
  rw [String.toList_append]

theorem phrase_injective {a b : Shape} (h : a.phrase.toList = b.phrase.toList) : a = b := by
  cases a <;> cases b <;> simp_all [Shape.phrase]

/-- The two kinds of message begin with different words. -/
theorem message_unknownTag_ne (tag : String) (k : Kind) (slot : Slot) :
    (unknownTag tag).message ≠ (malformed k slot).message := by
  intro h
  have hchars := congrArg String.toList h
  rw [message_unknownTag, message_malformed] at hchars
  simp at hchars

/-- The message of a malformed node tells the kind and the slot.  Tags are letters and properties
    are too, so the marks around them are found again. -/
theorem message_malformed_inj {k l : Kind} {a b : Slot} (ha : a ∈ k.slots) (hb : b ∈ l.slots)
    (h : (malformed k a).message = (malformed l b).message) : k = l ∧ a = b := by
  have hchars := congrArg String.toList h
  rw [message_malformed, message_malformed] at hchars
  obtain ⟨htag, -, hchars⟩ := cut_unique (fun c hc => (k.not_blank_of_mem_tag c hc).1)
    (fun c hc => (l.not_blank_of_mem_tag c hc).1) (by decide) (by decide)
    (List.append_cancel_left hchars)
  obtain ⟨hproperty, -, hchars⟩ := cut_unique (k.isAlpha_of_mem_property a ha)
    (l.isAlpha_of_mem_property b hb) (by decide) (by decide) (List.append_cancel_left hchars)
  have hshape := phrase_injective (List.append_cancel_left hchars)
  obtain ⟨property, shape⟩ := a
  obtain ⟨property', shape'⟩ := b
  obtain rfl : property = property' := String.toList_inj.mp hproperty
  obtain rfl : shape = shape' := hshape
  exact ⟨Kind.tag_injective (String.toList_inj.mp htag), rfl⟩

/-- A message tells its fault. -/
theorem message_inj {f g : Fault} (hf : f.Raisable) (hg : g.Raisable) (h : f.message = g.message) :
    f = g := by
  cases f with
  | unknownTag tag =>
    cases g with
    | unknownTag tag' =>
      have hchars := congrArg String.toList h
      rw [message_unknownTag, message_unknownTag] at hchars
      have hquoted := String.toList_inj.mp (List.append_cancel_left hchars)
      exact congrArg unknownTag (Text.quote_injective hquoted)
    | malformed k slot => exact absurd h (message_unknownTag_ne tag k slot)
  | malformed k slot =>
    cases g with
    | unknownTag tag => exact absurd h.symm (message_unknownTag_ne tag k slot)
    | malformed l slot' =>
      obtain ⟨rfl, rfl⟩ := message_malformed_inj hf hg h
      rfl

theorem all_isPlain_tag (k : Kind) : k.tag.toList.all isPlain = true := by
  cases k <;> decide

theorem all_isPlain_phrase (s : Shape) : s.phrase.toList.all isPlain = true := by
  cases s <;> decide

/-- A message has no controls, whatever the tag has. -/
theorem all_isPlain_message {f : Fault} (h : f.Raisable) : f.message.toList.all isPlain = true := by
  cases f with
  | unknownTag tag =>
    rw [message_unknownTag, List.all_append, Text.all_isPlain_quote]
    decide
  | malformed k slot =>
    have hproperty : slot.property.toList.all isPlain = true :=
      List.all_eq_true.mpr fun c hc =>
        Text.isPlain_of_isAlpha (k.isAlpha_of_mem_property slot h c hc)
    rw [message_malformed]
    simp only [List.all_append, List.all_cons, all_isPlain_tag, hproperty, all_isPlain_phrase]
    decide

end Fault

/-! ## Wordings -/

/-- The wording of a fault identifies it and stays on one line.  Whatever tree is walked and by
    whichever visitor, and whatever node is asked for its children, a fault is a tag, or a kind with
    one of its own slots.  Of these no two have the same wording, and no wording has a control
    character in it, not even if the tag has. -/
theorem wording_identifies_fault :
    (∀ (α σ : Type) [Node α] (v : Visitor α σ) (n : α) (s : σ) (f : Fault),
      (walk v n s).fault = some f ∨ Node.children n = .error f → f.Raisable) ∧
    (∀ f g : Fault, f.Raisable → g.Raisable → f.message = g.message → f = g) ∧
    ∀ f : Fault, f.Raisable → ∀ c ∈ f.message.toList, 0x20 ≤ c.toNat ∧ c.toNat ≠ 0x7F := by
  refine ⟨?_, fun f g => Fault.message_inj, ?_⟩
  · intro α σ _ v n s f h
    rcases h with h | h
    · rw [walk_eq_play] at h
      obtain ⟨p, m, hm⟩ := fault_eq_some_iff.mp h
      exact Fault.raisable_of_offends hm.offends
    · exact Fault.raisable_of_offends (Node.children_eq_error_iff.mp h)
  · intro f hf c hc
    exact Text.isPlain_iff.mp (List.all_eq_true.mp (Fault.all_isPlain_message hf) c hc)

/-- A node with a line break and a delete character in its tag. -/
def oddlyTagged : Json :=
  .obj [("type", .str "a\n\x7f")]

/-- A tag with control characters is shown with escapes, and can still be told from the message. -/
theorem oddlyTagged_worded :
    ∃ f, Node.children oddlyTagged = .error f ∧ f.Raisable ∧
      f.message = "No schema for node type \"a\\n\\u\x7b7f\x7d\"" ∧
      (∀ c ∈ f.message.toList, 0x20 ≤ c.toNat ∧ c.toNat ≠ 0x7F) ∧
      ∀ g : Fault, g.Raisable → g.message = f.message → g = f := by
  obtain ⟨hraisable, htold, hplain⟩ := wording_identifies_fault
  have hfault : Node.children oddlyTagged = .error (.unknownTag "a\n\x7f") := by cbv
  have hf := hraisable Json Unit {} oddlyTagged () _ (.inr hfault)
  exact ⟨_, hfault, hf, by decide +kernel, hplain _ hf, fun g hg h => htold g _ hg hf h⟩

end TypeTree
