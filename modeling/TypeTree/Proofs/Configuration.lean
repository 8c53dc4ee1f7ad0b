/-
  The language of configurations: which documents describe one, and which one.

  A document sets fields one after another, each from the value that is given for it, and is refused
  at the first value that its field does not admit.  Each step changes one field only
  (`set_eq_ok_iff`).  No field is set twice: a document that was read has no key twice
  (`Jsonc.nodup_of_read`), and in an array each field has a place of its own.  So the steps can be
  told without their order (`setAll_eq_ok_iff`): a configuration has what is given for its fields,
  and its default everywhere else.

    * `Config.Admits`   the values that a field admits;
    * `Config.Has`      what a configuration has in a field, in the ways to write it;
    * `Config.Gives`    the fields that a document gives, with their values;
    * `Config.Extends`  the configuration that has what is given, and the rest as before.
-/
import TypeTree.Config

namespace TypeTree

/-! ## Values of single fields -/

/-- A format is known by its name. -/
theorem Format.name_injective {f g : Format} (h : f.name = g.name) : f = g := by
  cases f <;> cases g <;> simp_all [name]

/-- The value of a name among the formats. -/
theorem Format.named_eq_ok_iff {s : String} {f : Format} :
    Json.toVariant.named named s = .ok f ↔ s = f.name := by
  rw [Json.toVariant.named, named, Dict.lookup_cons, Dict.lookup_cons]
  by_cases htext : s = "text"
  · subst htext
    cases f <;> simp [name]
  · by_cases hjson : s = "json"
    · subst hjson
      cases f <;> simp [name]
    · cases f <;> simp [name, htext, hjson]

namespace Json

theorem toUnit_eq_ok_iff {j : Json} : j.toUnit = .ok () ↔ j = .null := by
  cases j <;> simp [toUnit]

theorem toBool_eq_ok_iff {j : Json} {b : Bool} : j.toBool = .ok b ↔ j = .bool b := by
  cases j <;> simp [toBool]

/-- A word is decoded exactly from an integer that fits into 64 bits. -/
theorem toWord64_eq_ok_iff {j : Json} {w : UInt64} : j.toWord64 = .ok w ↔ j = int w.toNat := by
  have hword := w.toNat_lt
  constructor
  · intro h
    unfold toWord64 at h
    split at h
    · rename_i n
      split at h
      · rename_i hrange
        obtain rfl : UInt64.ofNat n.toNat = w := Except.ok.inj h
        have hn : n.toNat < 2 ^ 64 := by omega
        rw [UInt64.toNat_ofNat_of_lt' hn, Int.toNat_of_nonneg hrange.1]
        rfl
      · exact absurd h (by simp)
    · exact absurd h (by simp)
  · rintro rfl
    have hrange : (0 : Int) ≤ w.toNat ∧ (w.toNat : Int) < 0x10000000000000000 := by omega
    rw [int, toWord64, if_pos hrange, Int.toNat_natCast, UInt64.ofNat_toNat]

/-- A format is given by its name, or by an object that has `null` under that name and nothing
    else. -/
theorem toVariant_eq_ok_iff {j : Json} {f : Format} :
    j.toVariant Format.named = .ok f ↔ j = .str f.name ∨ j = .obj [(f.name, .null)] := by
  constructor
  · intro h
    unfold toVariant at h
    split at h
    · rename_i s
      exact .inl (congrArg Json.str (Format.named_eq_ok_iff.mp h))
    · rename_i key value
      cases hkey : toVariant.named Format.named key with
      | error e => simp [hkey] at h
      | ok g =>
        simp only [hkey] at h
        cases hvalue : value.toUnit with
        | error e => simp [hvalue, Except.map] at h
        | ok u =>
          obtain rfl := toUnit_eq_ok_iff.mp hvalue
          obtain rfl : g = f := by simpa [hvalue, Except.map] using h
          exact .inr (by rw [Format.named_eq_ok_iff.mp hkey])
    · exact absurd h (by simp)
    · exact absurd h (by simp)
  · have hname := Format.named_eq_ok_iff.mpr (rfl : f.name = f.name)
    rintro (rfl | rfl)
    · exact hname
    · rw [toVariant, hname]
      rfl

end Json

/-! ## Fields -/

namespace Config

/-- The values that a field admits. -/
def Admits (field : String) (j : Json) : Prop :=
  match field with
  | "format" => ∃ name, (name = "text" ∨ name = "json") ∧
      (j = .str name ∨ j = .obj [(name, .null)])
  | "indent" => ∃ n : Int, 0 ≤ n ∧ n < 0x10000000000000000 ∧ j = .num (.int n)
  | "showValues" => ∃ b, j = .bool b
  | "leaveEvents" => ∃ b, j = .bool b
  | _ => False

/-- The value of a field, as a document. -/
def entry (c : Config) (field : String) : Option Json :=
  match field with
  | "format" => some (.str c.format.name)
  | "indent" => some (Json.int c.indent.toNat)
  | "showValues" => some (.bool c.showValues)
  | "leaveEvents" => some (.bool c.leaveEvents)
  | _ => none

/-- The configuration has in a field what `j` gives for it: the value itself or, where that is a
    name, an object that has `null` under that name and nothing else. -/
def Has (c : Config) (field : String) (j : Json) : Prop :=
  ∃ v, c.entry field = some v ∧ (j = v ∨ ∃ name, v = .str name ∧ j = .obj [(name, .null)])

/-- Nothing but its fields makes a configuration. -/
theorem eq_of_entries {c c' : Config} (h : ∀ field, c.entry field = c'.entry field) : c = c' := by
  obtain ⟨format, indent, showValues, leaveEvents⟩ := c
  obtain ⟨format', indent', showValues', leaveEvents'⟩ := c'
  have hformat : format.name = format'.name := by simpa [entry] using h "format"
  have hindent : (indent.toNat : Int) = indent'.toNat := by simpa [entry, Json.int] using h "indent"
  have hvalues : showValues = showValues' := by simpa [entry] using h "showValues"
  have hleaves : leaveEvents = leaveEvents' := by simpa [entry] using h "leaveEvents"
  rw [Format.name_injective hformat, UInt64.toNat_inj.mp (Int.ofNat.inj hindent), hvalues, hleaves]

/-- No field of a configuration is written as an object. -/
theorem entry_ne_obj {c : Config} {field : String} {members : List (String × Json)} :
    c.entry field ≠ some (.obj members) := by
  unfold entry
  split <;> simp [Json.int]

/-- What is given for a field determines the value of the field. -/
theorem Has.entry_eq {c c' : Config} {field : String} {j : Json} (h : c.Has field j)
    (h' : c'.Has field j) : c.entry field = c'.entry field := by
  obtain ⟨v, hv, rfl | ⟨name, rfl, rfl⟩⟩ := h
  · obtain ⟨w, hw, rfl | ⟨name, rfl, rfl⟩⟩ := h'
    · rw [hv, hw]
    · exact absurd hv entry_ne_obj
  · obtain ⟨w, hw, rfl | ⟨name', rfl, hobj⟩⟩ := h'
    · exact absurd hw entry_ne_obj
    · obtain rfl : name = name' := by simpa using hobj
      rw [hv, hw]

theorem Has.of_entry_eq {c c' : Config} {field : String} {j : Json} (h : c.Has field j)
    (heq : c'.entry field = c.entry field) : c'.Has field j := by
  rw [Has, heq]
  exact h

/-- A configuration has in its fields only what they admit. -/
theorem Has.admits {c : Config} {field : String} {j : Json} (h : c.Has field j) :
    Admits field j := by
  obtain ⟨v, hv, hj⟩ := h
  unfold entry at hv
  split at hv
  case h_1 =>
    obtain rfl := Option.some.inj hv
    have hname : c.format.name = "text" ∨ c.format.name = "json" := by
      cases c.format
      · exact .inl rfl
      · exact .inr rfl
    exact ⟨c.format.name, hname, by simpa using hj⟩
  case h_2 =>
    obtain rfl := Option.some.inj hv
    have hword := c.indent.toNat_lt
    exact ⟨c.indent.toNat, by omega, by omega, by simpa [Json.int] using hj⟩
  case h_5 => exact absurd hv (by simp)
  all_goals
    obtain rfl := Option.some.inj hv
    exact ⟨_, by simpa using hj⟩

/-! ## Setting fields -/

/-- A decoder succeeds after a map exactly if it does so before. -/
theorem map_eq_ok_iff {α β : Type} {x : Decoded α} {f : α → β} {b : β} :
    x.map f = .ok b ↔ ∃ a, x = .ok a ∧ f a = b := by
  cases x <;> simp [Except.map]

/-- A field that was set has what was given for it. -/
theorem has_of_set {c c' : Config} {field : String} {j : Json} (h : c.set field j = .ok c') :
    c'.Has field j := by
  unfold set at h
  split at h
  · obtain ⟨f, hf, rfl⟩ := map_eq_ok_iff.mp h
    rcases Json.toVariant_eq_ok_iff.mp hf with rfl | rfl
    · exact ⟨_, rfl, .inl rfl⟩
    · exact ⟨_, rfl, .inr ⟨_, rfl, rfl⟩⟩
  · obtain ⟨w, hw, rfl⟩ := map_eq_ok_iff.mp h
    exact ⟨_, rfl, .inl (Json.toWord64_eq_ok_iff.mp hw)⟩
  · obtain ⟨b, hb, rfl⟩ := map_eq_ok_iff.mp h
    exact ⟨_, rfl, .inl (Json.toBool_eq_ok_iff.mp hb)⟩
  · obtain ⟨b, hb, rfl⟩ := map_eq_ok_iff.mp h
    exact ⟨_, rfl, .inl (Json.toBool_eq_ok_iff.mp hb)⟩
  · exact absurd h (by simp)

/-- Setting a field leaves the others as they are. -/
theorem entry_of_set {c c' : Config} {field other : String} {j : Json}
    (h : c.set field j = .ok c') (hne : other ≠ field) : c'.entry other = c.entry other := by
  unfold set at h
  split at h
  case h_5 => exact absurd h (by simp)
  all_goals
    obtain ⟨v, -, rfl⟩ := map_eq_ok_iff.mp h
    unfold entry
    split <;> simp_all

/-- A field can be set to all that it admits. -/
theorem exists_set_of_admits (c : Config) {field : String} {j : Json} (h : Admits field j) :
    ∃ c', c.set field j = .ok c' := by
  unfold Admits at h
  split at h
  · obtain ⟨name, hname, hj⟩ := h
    obtain ⟨f, rfl⟩ : ∃ f : Format, name = f.name := by
      rcases hname with rfl | rfl
      · exact ⟨.text, rfl⟩
      · exact ⟨.json, rfl⟩
    exact ⟨_, map_eq_ok_iff.mpr ⟨f, Json.toVariant_eq_ok_iff.mpr hj, rfl⟩⟩
  · obtain ⟨n, hsign, hword, rfl⟩ := h
    have hsmall : n.toNat < 2 ^ 64 := by omega
    have hn : Json.num (.int n) = Json.int (UInt64.ofNat n.toNat).toNat := by
      rw [UInt64.toNat_ofNat_of_lt' hsmall, Int.toNat_of_nonneg hsign]
      rfl
    exact ⟨_, map_eq_ok_iff.mpr ⟨_, Json.toWord64_eq_ok_iff.mpr hn, rfl⟩⟩
  · obtain ⟨b, rfl⟩ := h
    exact ⟨{ c with showValues := b }, rfl⟩
  · obtain ⟨b, rfl⟩ := h
    exact ⟨{ c with leaveEvents := b }, rfl⟩
  · exact absurd h id

/-- Setting a field succeeds exactly if there is a configuration that has this value and else is as
    before. -/
theorem set_eq_ok_iff {c c' : Config} {field : String} {j : Json} :
    c.set field j = .ok c' ↔
      c'.Has field j ∧ ∀ other, other ≠ field → c'.entry other = c.entry other := by
  constructor
  · intro h
    exact ⟨has_of_set h, fun other hne => entry_of_set h hne⟩
  · rintro ⟨hhas, hothers⟩
    -- what setting the field gives agrees with `c'` everywhere
    obtain ⟨d, hd⟩ := c.exists_set_of_admits hhas.admits
    have heq : d = c' := by
      refine eq_of_entries fun other => ?_
      by_cases hfield : other = field
      · rw [hfield]
        exact (has_of_set hd).entry_eq hhas
      · rw [entry_of_set hd hfield, hothers other hfield]
    rw [hd, heq]

/-! ## Setting several fields -/

/-- The configuration has what is given for its fields, and what `base` has in the others. -/
structure Extends (base : Config) (given : List (String × Json)) (c : Config) : Prop where
  has : ∀ m ∈ given, c.Has m.1 m.2
  others : ∀ field, (∀ m ∈ given, m.1 ≠ field) → c.entry field = base.entry field

/-- Fields are set one after the other. -/
theorem setAll_cons_eq_ok_iff {base c : Config} {field : String} {j : Json}
    {more : List (String × Json)} :
    base.setAll ((field, j) :: more) = .ok c ↔
      ∃ mid, base.set field j = .ok mid ∧ mid.setAll more = .ok c := by
  rw [setAll]
  cases base.set field j <;> simp

/-- Where no field is given twice, all that is given holds in the end, in whatever order it is set.
    The induction is on what is given; the first field keeps its value, since no later step has its
    name. -/
theorem setAll_eq_ok_iff {given : List (String × Json)} (distinct : (given.map Prod.fst).Nodup)
    {base c : Config} : base.setAll given = .ok c ↔ base.Extends given c := by
  induction given generalizing base with
  | nil =>
    rw [setAll]
    constructor
    · intro h
      obtain rfl := Except.ok.inj h
      exact ⟨fun m hm => absurd hm List.not_mem_nil, fun field _ => rfl⟩
    · intro h
      rw [eq_of_entries fun field => h.others field fun m hm => absurd hm List.not_mem_nil]
  | cons m more ih =>
    obtain ⟨field, j⟩ := m
    obtain ⟨hfresh, hmore⟩ := List.nodup_cons.mp distinct
    have hlater : ∀ m ∈ more, m.1 ≠ field := by
      intro m hm heq
      exact hfresh (List.mem_map.mpr ⟨m, hm, heq⟩)
    rw [setAll_cons_eq_ok_iff]
    constructor
    · rintro ⟨mid, hset, hrest⟩
      obtain ⟨hhas, hothers⟩ := set_eq_ok_iff.mp hset
      have hextends := (ih hmore).mp hrest
      refine ⟨List.forall_mem_cons.mpr ⟨?_, hextends.has⟩, ?_⟩
      · exact hhas.of_entry_eq (hextends.others field hlater)
      · intro other hother
        obtain ⟨hne, hother⟩ := List.forall_mem_cons.mp hother
        rw [hextends.others other hother, hothers other (Ne.symm hne)]
    · intro h
      obtain ⟨hfirst, hhas⟩ := List.forall_mem_cons.mp h.has
      obtain ⟨mid, hset⟩ := base.exists_set_of_admits hfirst.admits
      refine ⟨mid, hset, (ih hmore).mpr ⟨hhas, fun other hother => ?_⟩⟩
      by_cases heq : other = field
      · rw [heq]
        exact hfirst.entry_eq (has_of_set hset)
      · rw [entry_of_set hset heq]
        exact h.others other (List.forall_mem_cons.mpr ⟨Ne.symm heq, hother⟩)

/-- Fields can be set exactly if each value that is given is admitted, whichever fields are given
    how often. -/
theorem exists_setAll_iff {given : List (String × Json)} {base : Config} :
    (∃ c, base.setAll given = .ok c) ↔ ∀ m ∈ given, Admits m.1 m.2 := by
  induction given generalizing base with
  | nil => simp [setAll]
  | cons m more ih =>
    obtain ⟨field, j⟩ := m
    simp only [setAll_cons_eq_ok_iff, List.forall_mem_cons]
    constructor
    · rintro ⟨c, mid, hset, hrest⟩
      exact ⟨(has_of_set hset).admits, ih.mp ⟨c, hrest⟩⟩
    · rintro ⟨hfirst, hmore⟩
      obtain ⟨mid, hset⟩ := base.exists_set_of_admits hfirst
      obtain ⟨c, hrest⟩ : ∃ c, mid.setAll more = .ok c := ih.mpr hmore
      exact ⟨c, mid, hset, hrest⟩

end Config

/-! ## Documents that were read -/

namespace Jsonc

/-- No number is taken for an object. -/
theorem numberValue_ne_obj (text : String) (ms : List (String × Json)) :
    numberValue text ≠ .obj ms := by
  have hhex : ∀ negative digits, numberValue.hex text negative digits ≠ .obj ms := by
    intro negative digits
    unfold numberValue.hex
    split
    · split <;> simp [Json.int]
    · simp
  have hdecimal : ∀ cs, numberValue.decimal text cs ≠ .obj ms := by
    intro cs
    unfold numberValue.decimal
    split <;> simp
  unfold numberValue
  split <;> first | exact hhex _ _ | exact hdecimal _

/-- An object that was read is a dictionary. -/
theorem sorted_of_value {failure : Option Failure} {t : Token} {ts : List Token}
    {taken : Taken Json ts.length} {ms : List (String × Json)}
    (h : value failure t ts = .ok taken) (hobj : taken.value = .obj ms) : Dict.Sorted ms := by
  rw [value] at h
  dsimp only at h
  split at h
  case h_6 =>
    cases hms : members failure t.left ts with
    | error e => simp [hms, Taking.map] at h
    | ok u =>
      rw [hms] at h
      obtain rfl := Except.ok.inj h
      obtain rfl := Json.obj.inj hobj
      exact Dict.sorted_ofPairs u.value
  -- nothing else gives an object
  case h_5 =>
    cases hitems : items failure t.left ts with
    | error e => simp [hitems, Taking.map] at h
    | ok u =>
      rw [hitems] at h
      obtain rfl := Except.ok.inj h
      exact absurd hobj (by simp)
  case h_4 =>
    obtain rfl := Except.ok.inj h
    exact absurd hobj (numberValue_ne_obj _ ms)
  case h_1 | h_2 | h_3 =>
    obtain rfl := Except.ok.inj h
    exact absurd hobj (by simp)
  all_goals exact absurd h (by simp)

/-- An object that was read has every key once. -/
theorem nodup_of_read {text : String} {ms : List (String × Json)}
    (h : read text = .ok (some (.obj ms))) : (ms.map Prod.fst).Nodup := by
  have hroot : root (tokens text.toList) = .ok (some (.obj ms)) := by
    rw [read] at h
    split at h
    · rename_i hroot
      rw [hroot, Except.ok.inj h]
    · exact absurd h (by simp)
  unfold root at hroot
  split at hroot
  · split at hroot <;> simp at hroot
  · split at hroot
    · simp at hroot
    · simp at hroot
    · rename_i hvalue
      split at hroot
      · have hobj := Option.some.inj (Except.ok.inj hroot)
        exact (sorted_of_value hvalue hobj).nodup
      · simp at hroot

end Jsonc

namespace Config

/-! ## The language -/

/-- What a document gives: an object names the fields, and an array of at most four items has them
    in their order, from the first on. -/
inductive Gives : Json → List (String × Json) → Prop where
  | obj (members : List (String × Json)) : Gives (.obj members) members
  | arr {items : List Json} (short : items.length ≤ 4) :
      Gives (.arr items) (["format", "indent", "showValues", "leaveEvents"].zip items)

/-- A value is decoded exactly if it gives fields that can be set one after the other, starting from
    the defaults. -/
theorem ofJson_eq_ok_iff {v : Json} {c : Config} :
    ofJson v = .ok c ↔ ∃ given, Gives v given ∧ setAll {} given = .ok c := by
  constructor
  · intro h
    unfold ofJson at h
    split at h
    · exact ⟨_, .obj _, h⟩
    · rename_i items
      split at h
      · exact absurd h (by simp)
      · rename_i hset
        split at h
        · rename_i hshort
          obtain rfl := Except.ok.inj h
          exact ⟨_, .arr hshort, hset⟩
        · exact absurd h (by simp)
    · exact absurd h (by simp)
  · rintro ⟨given, hgives, hset⟩
    cases hgives with
    | obj => exact hset
    | arr short =>
      have hset' : setAll {} (fields.zip _) = .ok c := hset
      rw [ofJson, hset']
      exact if_pos short

/-- A text is decoded as the value that is read from it. -/
theorem ofText_eq_ok_iff {text : String} {v : Json} (h : Jsonc.read text = .ok (some v))
    {c : Config} : ofText text = .ok c ↔ ofJson v = .ok c := by
  rw [ofText, h]
  show (ofJson v).mapError _ = .ok c ↔ _
  cases ofJson v with
  | error e =>
    show Except.error (ConfigError.undecodable e) = .ok c ↔ _
    simp
  | ok d =>
    show Except.ok d = .ok c ↔ _
    simp

theorem nodup_zip {names : List String} (h : names.Nodup) (items : List Json) :
    ((names.zip items).map Prod.fst).Nodup := by
  induction names generalizing items with
  | nil => exact .nil
  | cons name names ih =>
    obtain ⟨hfresh, hnames⟩ := List.nodup_cons.mp h
    cases items with
    | nil => exact .nil
    | cons item items =>
      refine List.nodup_cons.mpr ⟨fun hmem => ?_, ih hnames items⟩
      obtain ⟨m, hm, rfl⟩ := List.mem_map.mp hmem
      exact hfresh (List.of_mem_zip hm).1

/-- A document that was read gives no field twice. -/
theorem Gives.nodup {text : String} {v : Json} {given : List (String × Json)}
    (hread : Jsonc.read text = .ok (some v)) (h : Gives v given) :
    (given.map Prod.fst).Nodup := by
  cases h with
  | obj => exact Jsonc.nodup_of_read hread
  | arr short => exact nodup_zip (by decide) _

/-- The order in which fields are given does not matter. -/
theorem Extends.of_perm {base c : Config} {given given' : List (String × Json)}
    (h : base.Extends given c) (hperm : given'.Perm given) : base.Extends given' c where
  has m hm := h.has m (hperm.mem_iff.mp hm)
  others field hfield := h.others field fun m hm => hfield m (hperm.mem_iff.mpr hm)

/-- Null is no value of any field, and does not stand for a default. -/
theorem not_admits_null (field : String) : ¬ Admits field .null := by
  unfold Admits
  split <;> simp

/-- The language of configurations.  A text without a value describes the default.  A text with a
    value describes a configuration exactly if the value is an object or an array of at most four
    items, and each value that it gives is admitted by the field that it is given for; no field
    admits `null`.  The configuration then has what is given, and the default in all other fields,
    so that the order in which an object has its members makes no difference. -/
theorem configuration_language (text : String) :
    (Jsonc.read text = .ok none → ofText text = .ok {}) ∧
    (∀ v, Jsonc.read text = .ok (some v) →
      ((∃ c, ofText text = .ok c) ↔ ∃ given, Gives v given ∧ ∀ m ∈ given, Admits m.1 m.2) ∧
      (∀ c, ofText text = .ok c ↔ ∃ given, Gives v given ∧ Extends {} given c) ∧
      (v = .obj [] ∨ v = .arr [] → ofText text = .ok {}) ∧
      ∀ members shuffled, v = .obj members → shuffled.Perm members →
        ∀ c, ofJson (.obj shuffled) = .ok c ↔ ofText text = .ok c) ∧
    ∀ field, ¬ Admits field .null := by
  refine ⟨?_, ?_, not_admits_null⟩
  · intro hread
    rw [ofText, hread]
    rfl
  · intro v hread
    refine ⟨?_, ?_, ?_, ?_⟩
    · simp only [ofText_eq_ok_iff hread, ofJson_eq_ok_iff]
      constructor
      · rintro ⟨c, given, hgives, hset⟩
        exact ⟨given, hgives, exists_setAll_iff.mp ⟨c, hset⟩⟩
      · rintro ⟨given, hgives, hadmits⟩
        obtain ⟨c, hset⟩ := exists_setAll_iff.mpr hadmits
        exact ⟨c, given, hgives, hset⟩
    · intro c
      rw [ofText_eq_ok_iff hread, ofJson_eq_ok_iff]
      constructor
      · rintro ⟨given, hgives, hset⟩
        exact ⟨given, hgives, (setAll_eq_ok_iff (hgives.nodup hread)).mp hset⟩
      · rintro ⟨given, hgives, hextends⟩
        exact ⟨given, hgives, (setAll_eq_ok_iff (hgives.nodup hread)).mpr hextends⟩
    · rintro (rfl | rfl)
      · exact (ofText_eq_ok_iff hread).mpr rfl
      · exact (ofText_eq_ok_iff hread).mpr rfl
    · rintro members shuffled rfl hperm c
      have hdistinct := Jsonc.nodup_of_read hread
      have hdistinct' := (hperm.map Prod.fst).nodup_iff.mpr hdistinct
      rw [ofText_eq_ok_iff hread]
      show setAll {} shuffled = .ok c ↔ setAll {} members = .ok c
      rw [setAll_eq_ok_iff hdistinct, setAll_eq_ok_iff hdistinct']
      exact ⟨fun h => h.of_perm hperm.symm, fun h => h.of_perm hperm⟩

/-- An array without a comma, of a name in single quotes and a number with a plus sign: the first
    two fields are given, and the other two have their defaults. -/
theorem twoItems_described :
    Jsonc.read "['json' +7]" = .ok (some (.arr [.str "json", Json.int 7])) ∧
      ofText "['json' +7]" = .ok { format := .json, indent := 7 } := by
  have hread : Jsonc.read "['json' +7]" = .ok (some (.arr [.str "json", Json.int 7])) := by cbv
  obtain ⟨-, hlanguage, -⟩ := configuration_language "['json' +7]"
  obtain ⟨-, hdescribed, -⟩ := hlanguage _ hread
  refine ⟨hread, (hdescribed _).mpr ⟨_, .arr (by decide), ?_, ?_⟩⟩
  · intro m hm
    simp only [List.zip_cons_cons, List.zip_nil_right, List.mem_cons, List.not_mem_nil,
      or_false] at hm
    rcases hm with rfl | rfl
    · exact ⟨_, rfl, .inl rfl⟩
    · exact ⟨_, rfl, .inl rfl⟩
  · intro field hfield
    have hformat : field ≠ "format" := (hfield ("format", .str "json") (by simp)).symm
    have hindent : field ≠ "indent" := (hfield ("indent", Json.int 7) (by simp)).symm
    unfold entry
    split <;> simp_all

end Config

end TypeTree
