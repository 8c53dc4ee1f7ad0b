/-
  Scalars: a string or a number is read back as it was written.

  What follows a scalar in a text is not looked at, except that a number goes on as long as its text
  can be a longer number.  So strings are read back whatever comes after them, and numbers where the
  text after them does not go on with a digit, a point or an exponent (`Ends`).

    * `stringBody_escaped`  the characters of a string, each of them escaped or not;
    * `number_toDigits`     a natural number that fits a word.
-/
import TypeTree.Json.Reader
import TypeTree.Json.Writer

namespace TypeTree.Json

open Text (Scanning)

/-! ## Strings -/

/-- An escaped character is read, and the rest of the string after it. -/
theorem stringBody_of_escaped {t rest : List Char} {c : Char}
    (h : (escaped t).view = .ok (c, rest)) :
    (stringBody ('\\' :: t)).view = (stringBody rest).view.map fun p => (c :: p.1, p.2) := by
  obtain ⟨hlt, he⟩ := Scanning.view_eq_ok_iff.mp h
  rw [stringBody, he]
  simp

/-- A character that needs no escape is read as it stands. -/
theorem stringBody_of_raw {c : Char} (hquote : c ≠ '"') (hslash : c ≠ '\\') (hc : ¬ c.toNat < 0x20)
    (t : List Char) :
    (stringBody (c :: t)).view = (stringBody t).view.map fun p => (c :: p.1, p.2) := by
  rw [stringBody]
  · rw [if_neg hc]
    simp
  · exact hquote
  · exact hslash

/-- Four digits below the surrogates stand for one character, and no second escape is asked for. -/
theorem codeEscape_of_hexValue {a b c d : Char} {v : Nat} (h : Text.hexValue? [a, b, c, d] = some v)
    (hv : v < 0xD800) (t : List Char) :
    (codeEscape (a :: b :: c :: d :: t)).view = .ok (Char.ofNat v, t) := by
  have hlow : Text.isLowSurrogate v = false := by
    simp only [Text.isLowSurrogate, Bool.and_eq_false_iff, decide_eq_false_iff_not]
    omega
  have hhigh : Text.isHighSurrogate v = false := by
    simp only [Text.isHighSurrogate, Bool.and_eq_false_iff, decide_eq_false_iff_not]
    omega
  simp [codeEscape, hexQuad, Text.hexQuad?, h, Text.Scanned.map, hlow, hhigh, Scanning.view]

/-- A control character below 16, by its code. -/
theorem hexValue?_of_lt_0x10 : ∀ n < 0x10, ∃ d, Text.hexDigits n = [d] ∧
    Text.hexValue? ['0', '0', '0', d] = some n := by
  intro n hn
  refine ⟨n.digitChar, Nat.toDigits_of_lt_base hn, ?_⟩
  revert n
  decide

/-- A control character from 16 on, by its code. -/
theorem hexValue?_of_lt_0x20 : ∀ n < 0x20, 0x10 ≤ n → ∃ d e, Text.hexDigits n = [d, e] ∧
    Text.hexValue? ['0', '0', d, e] = some n := by
  intro n hn hle
  refine ⟨(n / 16).digitChar, (n % 16).digitChar, ?_, ?_⟩
  · have hsmall : n / 16 < 16 := by omega
    rw [Text.hexDigits, Nat.toDigits_of_base_le (by decide) hle, Nat.toDigits_of_lt_base hsmall]
    rfl
  · revert n
    decide

theorem escaped_of_hexValue {a b c d k : Char}
    (h : Text.hexValue? [a, b, c, d] = some k.toNat) (hk : k.toNat < 0x20) (t : List Char) :
    (escaped ('u' :: a :: b :: c :: d :: t)).view = .ok (k, t) := by
  have hcode := codeEscape_of_hexValue h (by omega) t
  rw [Char.ofNat_toNat] at hcode
  exact hcode

/-- The characters with an escape of their own. -/
def shortEscapes : List Char :=
  ['"', '\\', '\x08', '\t', '\n', '\x0c', '\r']

/-- A character without a short escape is written with four digits if it is a control, and else as
    it is. -/
theorem escapeChar_of_not_mem {c : Char} (h : c ∉ shortEscapes) :
    escapeChar c =
      if c.toNat < 0x10 then ['\\', 'u', '0', '0', '0'] ++ Text.hexDigits c.toNat
      else if c.toNat < 0x20 then ['\\', 'u', '0', '0'] ++ Text.hexDigits c.toNat
      else [c] := by
  simp only [shortEscapes, List.mem_cons, List.not_mem_nil, or_false, not_or] at h
  obtain ⟨h₁, h₂, h₃, h₄, h₅, h₆, h₇⟩ := h
  rw [escapeChar] <;> assumption

/-- Whatever is written for a character is read as that character. -/
theorem stringBody_escapeChar (c : Char) (t : List Char) :
    (stringBody (escapeChar c ++ t)).view =
      (stringBody t).view.map fun p => (c :: p.1, p.2) := by
  by_cases h : c ∈ shortEscapes
  · simp only [shortEscapes, List.mem_cons, List.not_mem_nil, or_false] at h
    rcases h with rfl | rfl | rfl | rfl | rfl | rfl | rfl <;> exact stringBody_of_escaped rfl
  · have hwritten := escapeChar_of_not_mem h
    by_cases hlow : c.toNat < 0x10
    · obtain ⟨d, hdigits, hvalue⟩ := hexValue?_of_lt_0x10 c.toNat hlow
      rw [hwritten, if_pos hlow, hdigits]
      exact stringBody_of_escaped (escaped_of_hexValue hvalue (by omega) t)
    · by_cases hhigh : c.toNat < 0x20
      · obtain ⟨d, e, hdigits, hvalue⟩ := hexValue?_of_lt_0x20 c.toNat hhigh (by omega)
        rw [hwritten, if_neg hlow, if_pos hhigh, hdigits]
        exact stringBody_of_escaped (escaped_of_hexValue hvalue hhigh t)
      · have hquote : c ≠ '"' := fun heq => h (heq ▸ by decide)
        have hslash : c ≠ '\\' := fun heq => h (heq ▸ by decide)
        rw [hwritten, if_neg hlow, if_neg hhigh]
        exact stringBody_of_raw hquote hslash hhigh t

/-- A string is read up to the quote that closes it. -/
theorem stringBody_escaped (cs rest : List Char) :
    (stringBody (cs.flatMap escapeChar ++ '"' :: rest)).view = .ok (cs, rest) := by
  induction cs with
  | nil =>
    rw [List.flatMap_nil, List.nil_append, stringBody]
    rfl
  | cons c cs ih =>
    rw [List.flatMap_cons, List.append_assoc, stringBody_escapeChar, ih]
    rfl

/-! ## Natural numbers -/

/-- The text does not go on with something that would belong to a number before it. -/
def Ends (rest : List Char) : Prop :=
  ∀ c ∈ rest.head?, isDigit c = false ∧ c ≠ '.' ∧ c ≠ 'e' ∧ c ≠ 'E'

theorem isDigit_of_mem_toDigits {n : Nat} {c : Char} (h : c ∈ Nat.toDigits 10 n) :
    isDigit c = true :=
  Nat.isDigit_of_mem_toDigits (by decide) (by decide) h

/-- A number has at least one digit. -/
theorem toDigits_eq_cons (n : Nat) : ∃ d ds, Nat.toDigits 10 n = d :: ds ∧ isDigit d = true := by
  obtain ⟨d, ds, hdigits⟩ := List.exists_cons_of_ne_nil (Nat.toDigits_ne_nil (n := n) (b := 10))
  have hmem : d ∈ Nat.toDigits 10 n := by rw [hdigits]; exact List.mem_cons_self
  exact ⟨d, ds, hdigits, isDigit_of_mem_toDigits hmem⟩

theorem digitChar_ne_zero : ∀ n < 10, n ≠ 0 → n.digitChar ≠ '0' := by
  decide

/-- Only zero is written with a zero in front. -/
theorem head_toDigits {n : Nat} (h : n ≠ 0) : ∃ d ds, Nat.toDigits 10 n = d :: ds ∧ d ≠ '0' := by
  induction n using Nat.strongRecOn with
  | ind n ih =>
    rw [Nat.toDigits_eq_if (by decide)]
    split
    · rename_i hlt
      exact ⟨n.digitChar, [], rfl, digitChar_ne_zero n hlt h⟩
    · rename_i hge
      obtain ⟨d, ds, hdigits, hd⟩ := ih (n / 10) (by omega) (by omega)
      exact ⟨d, ds ++ [(n % 10).digitChar], by rw [hdigits]; rfl, hd⟩

/-- Digits end where the number ends. -/
theorem takeWhile_digits {ds rest : List Char} (h : ∀ c ∈ ds, isDigit c = true)
    (hrest : Ends rest) :
    (ds ++ rest).takeWhile isDigit = ds ∧ (ds ++ rest).dropWhile isDigit = rest := by
  have hstop : rest.takeWhile isDigit = [] ∧ rest.dropWhile isDigit = rest := by
    cases rest with
    | nil => exact ⟨rfl, rfl⟩
    | cons c t =>
      have hc := (hrest c rfl).1
      simp [hc]
  rw [List.takeWhile_append_of_pos h, List.dropWhile_append_of_pos h, hstop.1, hstop.2,
    List.append_nil]
  exact ⟨rfl, rfl⟩

/-- Digits tell their number, and where they end in a longer text. -/
theorem toDigits_append_inj {m n : Nat} {r s : List Char} (hr : Ends r) (hs : Ends s)
    (h : Nat.toDigits 10 m ++ r = Nat.toDigits 10 n ++ s) : m = n ∧ r = s := by
  obtain ⟨htake, hdrop⟩ := takeWhile_digits (fun c hc => isDigit_of_mem_toDigits (n := m) hc) hr
  obtain ⟨htake', hdrop'⟩ := takeWhile_digits (fun c hc => isDigit_of_mem_toDigits (n := n) hc) hs
  have hdigits : Nat.toDigits 10 m = Nat.toDigits 10 n := by rw [← htake, h, htake']
  refine ⟨?_, by rw [← hdrop, h, hdrop']⟩
  calc m = Nat.ofDigitChars 10 (Nat.toDigits 10 m) 0 := Nat.ofDigitChars_ten_toDigits.symm
    _ = Nat.ofDigitChars 10 (Nat.toDigits 10 n) 0 := by rw [hdigits]
    _ = n := Nat.ofDigitChars_ten_toDigits

/-- The digits of a number have no zero in front, so they are read as one whole part. -/
theorem wholePart_toDigits (n : Nat) {rest : List Char} (hrest : Ends rest) :
    (wholePart (Nat.toDigits 10 n ++ rest)).view = .ok (Nat.toDigits 10 n, rest) := by
  by_cases hn : n = 0
  · subst hn
    cases rest with
    | nil => rfl
    | cons c t =>
      have hc := (hrest c rfl).1
      show (wholePart ('0' :: c :: t)).view = _
      rw [wholePart, hc]
      rfl
  · obtain ⟨d, ds, hdigits, hd⟩ := head_toDigits hn
    have hall : ∀ c ∈ d :: ds, isDigit c = true := fun c hc =>
      isDigit_of_mem_toDigits (n := n) (by rw [hdigits]; exact hc)
    obtain ⟨htake, hdrop⟩ :=
      takeWhile_digits (fun c hc => hall c (List.mem_cons_of_mem d hc)) hrest
    rw [hdigits, List.cons_append, wholePart]
    · rw [hall d List.mem_cons_self]
      show Except.ok (d :: (ds ++ rest).takeWhile isDigit, (ds ++ rest).dropWhile isDigit) = _
      rw [htake, hdrop]
    · rintro c t rfl
      exact absurd rfl hd

/-- Where a number ends there is no fraction. -/
theorem fractionPart_of_ends {rest : List Char} (h : Ends rest) :
    (fractionPart rest).view = .ok (none, rest) := by
  cases rest with
  | nil => rfl
  | cons c t =>
    have hpoint := (h c rfl).2.1
    rw [fractionPart]
    · rfl
    · intro heq
      exact hpoint (List.cons.inj heq).1
    · intro d u heq
      exact hpoint (List.cons.inj heq).1

/-- Nor is there an exponent. -/
theorem exponentPart_of_ends {rest : List Char} (h : Ends rest) :
    (exponentPart rest).view = .ok (none, rest) := by
  cases rest with
  | nil => rfl
  | cons c t =>
    obtain ⟨_, _, hsmall, hgreat⟩ := h c rfl
    rw [exponentPart]
    · rfl
    · intro u heq
      exact hsmall (List.cons.inj heq).1
    · intro u heq
      exact hgreat (List.cons.inj heq).1

theorem unsigned_of_parts {negative : Bool} {s s₁ s₂ rest whole : List Char}
    {fraction : Option (List Char)} {exponent : Option (Bool × List Char)}
    (hwhole : (wholePart s).view = .ok (whole, s₁))
    (hfraction : (fractionPart s₁).view = .ok (fraction, s₂))
    (hexponent : (exponentPart s₂).view = .ok (exponent, rest)) :
    (unsigned negative s).view = .ok (⟨negative, whole, fraction, exponent⟩, rest) := by
  obtain ⟨h₁, hwhole⟩ := Scanning.view_eq_ok_iff.mp hwhole
  obtain ⟨h₂, hfraction⟩ := Scanning.view_eq_ok_iff.mp hfraction
  rw [unsigned]
  simp only [hwhole, hfraction, Scanning.view_loosen, Scanning.view_map, hexponent]
  rfl

/-- More digits make a number no smaller. -/
theorem le_ofDigitChars (ds : List Char) (v : Nat) : v ≤ Nat.ofDigitChars 10 ds v := by
  induction ds generalizing v with
  | nil => exact Nat.le_refl v
  | cons d ds ih =>
    have hstep := ih (10 * v + (d.toNat - '0'.toNat))
    rw [Nat.ofDigitChars, List.foldl_cons]
    rw [Nat.ofDigitChars] at hstep
    omega

/-- Digits whose value fits a word are collected one by one. -/
theorem collectWhole_eq {ds : List Char} {v : Nat}
    (h : Nat.ofDigitChars 10 ds v ≤ Numeral.wordMax) :
    Numeral.collectWhole ⟨v, 0⟩ ds = ⟨Nat.ofDigitChars 10 ds v, 0⟩ := by
  induction ds generalizing v with
  | nil => rfl
  | cons d ds ih =>
    have hnext : Nat.ofDigitChars 10 ds (10 * v + digitValue d) ≤ Numeral.wordMax := h
    have hfits := Nat.le_trans (le_ofDigitChars ds (10 * v + digitValue d)) hnext
    rw [Numeral.collectWhole, if_pos hfits]
    exact ih hnext

/-- A number of one word is read as this integer, not as a number with a point. -/
theorem value_toDigits {n : Nat} (h : n ≤ Numeral.wordMax) :
    Numeral.value ⟨false, Nat.toDigits 10 n, none, none⟩ = .ok (.int n) := by
  have hvalue : Nat.ofDigitChars 10 (Nat.toDigits 10 n) 0 = n := Nat.ofDigitChars_ten_toDigits
  have hcollect : Numeral.collectWhole ⟨0, 0⟩ (Nat.toDigits 10 n) = ⟨n, 0⟩ := by
    rw [collectWhole_eq (by rw [hvalue]; exact h), hvalue]
  simp only [Numeral.value, hcollect, if_true]
  rfl

/-- A natural number that fits a word is read back. -/
theorem number_toDigits {n : Nat} (h : n ≤ Numeral.wordMax) {rest : List Char} (hrest : Ends rest) :
    (number (Nat.toDigits 10 n ++ rest)).view = .ok (.int n, rest) := by
  have hparts : (numeral (Nat.toDigits 10 n ++ rest)).view =
      .ok (⟨false, Nat.toDigits 10 n, none, none⟩, rest) := by
    rw [numeral]
    · exact unsigned_of_parts (wholePart_toDigits n hrest) (fractionPart_of_ends hrest)
        (exponentPart_of_ends hrest)
    · -- digits do not start with a sign
      intro t heq
      obtain ⟨d, ds, hdigits, hd⟩ := toDigits_eq_cons n
      rw [hdigits, List.cons_append] at heq
      rw [(List.cons.inj heq).1] at hd
      exact absurd hd (by decide)
  obtain ⟨hlt, hparts⟩ := Scanning.view_eq_ok_iff.mp hparts
  rw [number]
  simp only [hparts, value_toDigits h]
  rfl

end TypeTree.Json
