/-
  Listings: what can be read off the schema of some kinds.

  A listing gives each kind with its slots.  In text it has no separators: a line that is not indented
  names a kind, and the indented lines after it are the slots of that kind, up to the next line that
  is not.  A leaf has no such lines, so that two kinds can stand right below each other, and a kind can
  stand twice.  In JSON each kind is an object of its own, and the shapes have other names.

  Both forms have a reader here (`Listing.ofText?`, `Listing.ofJson?`) that knows the tags of kinds and
  the names of shapes, but not which slots belong to which kind.  What the readers find is the schema
  of the kinds that were listed, one by one and in order.
-/
import TypeTree.Proofs.Tables

namespace TypeTree

/-- Kinds with the slots that are listed for them. -/
abbrev Listing := List (Kind × List Slot)

/-! ## Reading a listing -/

/-- The shape that is spelled in this way, where shapes are spelled by `spelling`. -/
def Shape.spelled? (spelling : Shape → String) (s : String) : Option Shape :=
  [one, optional, many].find? (spelling · == s)

/-- A slot from its line: two spaces, the property, a colon, a space and the mark of the shape. -/
def Slot.ofLine? : List Char → Option Slot
  | ' ' :: ' ' :: t =>
    match t.dropWhile (· != ':') with
    | ':' :: ' ' :: mark =>
      (Shape.spelled? Shape.mark (String.ofList mark)).map
        (Slot.mk (String.ofList (t.takeWhile (· != ':'))))
    | _ => none
  | _ => none

/-- A slot from its object. -/
def Slot.ofJson? (j : Json) : Option Slot :=
  match j.get? "name", j.get? "kind" with
  | some (.str property), some (.str identifier) =>
    (Shape.spelled? Shape.identifier identifier).map (Slot.mk property)
  | _, _ => none

namespace Listing

/-- The lines of a text, if every line has a line break at its end. -/
def splitLines? : List Char → Option (List (List Char))
  | [] => some []
  | c :: t =>
    match splitLines? t with
    | none => none
    | some ls =>
      if c = '\n' then some ([] :: ls)
      else
        match ls with
        | [] => none
        | l :: ls => some ((c :: l) :: ls)

/-- What the lines list, and the slots before the first kind among them. -/
def ofLines? : List (List Char) → Option (List Slot × Listing)
  | [] => some ([], [])
  | l :: ls =>
    match ofLines? ls with
    | none => none
    | some (slots, listing) =>
      if l.head? = some ' ' then (Slot.ofLine? l).map fun slot => (slot :: slots, listing)
      else (Kind.ofTag? (String.ofList l)).map fun k => ([], (k, slots) :: listing)

/-- A listing from its text.  The first line names a kind. -/
def ofText? (s : String) : Option Listing :=
  match (splitLines? s.toList).bind ofLines? with
  | some ([], listing) => some listing
  | _ => none

/-- A kind and its slots from their object. -/
def listed? (j : Json) : Option (Kind × List Slot) :=
  match j.get? "type", j.get? "properties" with
  | some (.str tag), some (.arr slots) =>
    match Kind.ofTag? tag, slots.mapM Slot.ofJson? with
    | some k, some slots => some (k, slots)
    | _, _ => none
  | _, _ => none

/-- A listing from its document. -/
def ofJson? : Json → Option Listing
  | .arr entries => entries.mapM listed?
  | _ => none

/-- The schema of some kinds. -/
def ofKinds (ks : List Kind) : Listing :=
  ks.map fun k => (k, k.slots)

/-- A listing tells the kinds and their order. -/
theorem ofKinds_injective {ks ls : List Kind} (h : ofKinds ks = ofKinds ls) : ks = ls := by
  have hkinds : ∀ ks : List Kind, (ofKinds ks).map Prod.fst = ks := by
    intro ks
    rw [ofKinds, List.map_map]
    exact List.map_id ks
  rw [← hkinds ks, h, hkinds]

end Listing

/-! ## Listings in text -/

theorem Shape.spelled?_mark (s : Shape) : spelled? mark s.mark = some s := by
  cases s <;> decide

theorem Shape.spelled?_identifier (s : Shape) : spelled? identifier s.identifier = some s := by
  cases s <;> decide

/-- The marks of shapes have no line breaks. -/
theorem Shape.not_break_of_mem_mark (s : Shape) : '\n' ∉ s.mark.toList := by
  cases s <;> decide

namespace Slot

/-- The line of a slot in a listing. -/
def line (s : Slot) : List Char :=
  ' ' :: ' ' :: (s.property.toList ++ ':' :: ' ' :: s.shape.mark.toList)

/-- A property that has no colon is read up to the colon after it. -/
theorem ofLine?_line {s : Slot} (h : ∀ c ∈ s.property.toList, c.isAlpha = true) :
    ofLine? s.line = some s := by
  have hproperty : ∀ c ∈ s.property.toList, (c != ':') = true := by
    intro c hc
    have hne : c ≠ ':' := fun heq => absurd (heq ▸ h c hc) (by decide)
    simpa using hne
  simp only [line, ofLine?]
  rw [List.takeWhile_append_of_pos hproperty, List.dropWhile_append_of_pos hproperty]
  simp [Shape.spelled?_mark]

/-- A slot is listed on one line. -/
theorem not_break_of_mem_line {s : Slot} (h : ∀ c ∈ s.property.toList, c.isAlpha = true) :
    '\n' ∉ s.line := by
  have hproperty : '\n' ∉ s.property.toList := fun hmem => absurd (h _ hmem) (by decide)
  simp [line, hproperty, s.shape.not_break_of_mem_mark]

end Slot

namespace Report.Text

/-- The lines of a kind: its tag, and a line for each slot. -/
theorem kind_toList (k : Kind) :
    (kind k).map String.toList = k.tag.toList :: k.slots.map Slot.line := by
  rw [kind, List.map_cons, List.map_map]
  refine congrArg (_ :: ·) (List.map_congr_left fun s _ => ?_)
  simp [Slot.line]

/-- A listing is a row of lines, one for each kind and each slot. -/
theorem schema_toList (ks : List Kind) :
    (schema ks).toList = unlines (ks.flatMap fun k => k.tag.toList :: k.slots.map Slot.line) := by
  simp only [← kind_toList]
  rw [schema, String.toList_join, unlines, ← List.map_flatMap, List.flatMap_map, List.flatMap_map]
  exact List.flatMap_congr fun s _ => by simp

theorem schema_append (ks ls : List Kind) : schema (ks ++ ls) = schema ks ++ schema ls := by
  rw [schema, List.flatMap_append, List.map_append, String.join_append]
  rfl

end Report.Text

namespace Listing

open Report.Text (unlines unlines_cons)

/-- A line without break of its own is split off as it was. -/
theorem splitLines?_append {l t : List Char} (h : '\n' ∉ l) {ls : List (List Char)}
    (ht : splitLines? t = some ls) : splitLines? (l ++ '\n' :: t) = some (l :: ls) := by
  induction l with
  | nil => simp [splitLines?, ht]
  | cons c l ih =>
    obtain ⟨hc, hl⟩ : c ≠ '\n' ∧ '\n' ∉ l := by simpa [eq_comm] using h
    rw [List.cons_append, splitLines?, ih hl]
    simp [hc]

/-- Lines that have no line breaks of their own are told apart. -/
theorem splitLines?_unlines {ls : List (List Char)} (h : ∀ l ∈ ls, '\n' ∉ l) :
    splitLines? (unlines ls) = some ls := by
  induction ls with
  | nil => rfl
  | cons l ls ih =>
    obtain ⟨hl, hls⟩ := List.forall_mem_cons.mp h
    rw [unlines_cons]
    exact splitLines?_append hl (ih hls)

/-- Lines of slots belong to the kind above them. -/
theorem ofLines?_slots {slots : List Slot}
    (h : ∀ s ∈ slots, ∀ c ∈ s.property.toList, c.isAlpha = true)
    {ls : List (List Char)} {listing : Listing} (hls : ofLines? ls = some ([], listing)) :
    ofLines? (slots.map Slot.line ++ ls) = some (slots, listing) := by
  induction slots with
  | nil => exact hls
  | cons s slots ih =>
    obtain ⟨hs, hslots⟩ := List.forall_mem_cons.mp h
    have hindented : s.line.head? = some ' ' := rfl
    simp only [List.map_cons, List.cons_append, ofLines?, ih hslots, hindented, if_true,
      Slot.ofLine?_line hs, Option.map_some]

/-- The line of a tag is not indented, so it begins a kind. -/
theorem ofLines?_kind (k : Kind) {ls : List (List Char)} {listing : Listing}
    (hls : ofLines? ls = some ([], listing)) :
    ofLines? ((k.tag.toList :: k.slots.map Slot.line) ++ ls) =
      some ([], (k, k.slots) :: listing) := by
  have hflush : k.tag.toList.head? ≠ some ' ' := fun heq =>
    (k.not_blank_of_mem_tag ' ' (List.mem_of_mem_head? heq)).1 rfl
  rw [List.cons_append, ofLines?, ofLines?_slots k.isAlpha_of_mem_property hls]
  simp only [hflush, if_false, String.ofList_toList, Kind.ofTag?_tag, Option.map_some]

/-- Lines are read back as the kinds they list: a line of a slot belongs to the kind before it. -/
theorem ofLines?_kinds (ks : List Kind) :
    ofLines? (ks.flatMap fun k => k.tag.toList :: k.slots.map Slot.line) =
      some ([], ofKinds ks) := by
  induction ks with
  | nil => rfl
  | cons k ks ih =>
    rw [List.flatMap_cons]
    exact ofLines?_kind k ih

/-- The text of a schema is read back. -/
theorem ofText?_schema (ks : List Kind) : ofText? (Report.Text.schema ks) = some (ofKinds ks) := by
  have hunbroken : ∀ l ∈ ks.flatMap (fun k => k.tag.toList :: k.slots.map Slot.line),
      '\n' ∉ l := by
    intro l hl
    obtain ⟨k, -, hl⟩ := List.mem_flatMap.mp hl
    rcases List.mem_cons.mp hl with rfl | hl
    · exact fun hmem => (k.not_blank_of_mem_tag _ hmem).2 rfl
    · obtain ⟨s, hs, rfl⟩ := List.mem_map.mp hl
      exact Slot.not_break_of_mem_line (k.isAlpha_of_mem_property s hs)
  rw [ofText?, Report.Text.schema_toList, splitLines?_unlines hunbroken, Option.bind_some,
    ofLines?_kinds]

-- the reader does not know the schema: these slots are not those of a union
example : ofText? "ANY\nANY\nUNION\n  types: node[]\n  value: node?\n" =
    some [(.any, []), (.any, []), (.union, [⟨"types", .many⟩, ⟨"value", .optional⟩])] := by
  decide +kernel

end Listing

/-! ## Listings in JSON -/

namespace Report.Json

open TypeTree (Json)

/-- The object of a kind. -/
def kind (k : Kind) : Json :=
  .obj [("properties", .arr (k.slots.map slot)), ("type", .str k.tag)]

theorem schema_eq (ks : List Kind) : schema ks = .arr (ks.map kind) := rfl

/-- An object of two members whose keys are in order. -/
theorem normal_pair {key key' : String} (h : key < key') (j k : Json) :
    (Json.obj [(key, j), (key', k)]).normal = .obj [(key, j.normal), (key', k.normal)] := by
  have hsorted : Dict.Sorted [(key, j.normal), (key', k.normal)] :=
    List.pairwise_cons.mpr ⟨by simpa using h, List.pairwise_singleton _ _⟩
  rw [Json.normal]
  exact congrArg Json.obj (Dict.ofPairs_of_sorted hsorted)

/-- An object of two members is readable if they are and it does not stand for a text. -/
theorem readable_pair {key key' : String} {j k : Json} (h : key ≠ Json.embedKey) (hj : j.Readable)
    (hk : k.Readable) : (Json.obj [(key, j), (key', k)]).Readable := by
  refine .obj (fun m hm => ?_) (fun m hm => ?_)
  · simp only [List.mem_cons, List.not_mem_nil, or_false] at hm
    rcases hm with rfl | rfl
    · exact hj
    · exact hk
  · obtain rfl := Option.some.inj hm
    exact h

theorem normal_slot (s : Slot) : (slot s).normal = slot s :=
  normal_pair (by decide) _ _

theorem normal_kind (k : Kind) : (kind k).normal = kind k := by
  have hslots : (Json.arr (k.slots.map slot)).normal = .arr (k.slots.map slot) := by
    rw [Json.normal, Json.normalItems_eq_map, List.map_map]
    exact congrArg Json.arr (List.map_congr_left fun s _ => normal_slot s)
  rw [kind, normal_pair (by decide), hslots]
  rfl

/-- A listed kind is read back as it is written. -/
theorem readable_kind (k : Kind) : (kind k).Readable := by
  refine readable_pair (by decide) (.arr fun j hj => ?_) (.str _)
  obtain ⟨s, -, rfl⟩ := List.mem_map.mp hj
  exact readable_pair (by decide) (.str _) (.str _)

/-- A listed kind is an object of an array of objects. -/
theorem depth_kind (k : Kind) : (kind k).depth ≤ 3 := by
  have hslots : Json.depthItems (k.slots.map slot) ≤ 1 := by
    apply Json.depthItems_le
    intro j hj
    obtain ⟨s, -, rfl⟩ := List.mem_map.mp hj
    exact Nat.le_refl 1
  show max (Json.depthItems (k.slots.map slot) + 1) 0 + 1 ≤ 3
  omega

/-- A schema in JSON is read back as it was written. -/
theorem read_schema (ks : List Kind) : Json.read (schema ks).pretty = .ok (schema ks) := by
  have hreadable : (schema ks).Readable := by
    refine .arr fun j hj => ?_
    obtain ⟨k, -, rfl⟩ := List.mem_map.mp hj
    exact readable_kind k
  have hfits : (schema ks).depth ≤ Json.levelLimit := by
    have hkinds : Json.depthItems (ks.map kind) ≤ 3 := by
      apply Json.depthItems_le
      intro j hj
      obtain ⟨k, -, rfl⟩ := List.mem_map.mp hj
      exact depth_kind k
    rw [schema_eq, Json.depth]
    show _ ≤ 127
    omega
  have hnormal : (schema ks).normal = schema ks := by
    rw [schema_eq, Json.normal, Json.normalItems_eq_map, List.map_map]
    exact congrArg Json.arr (List.map_congr_left fun k _ => normal_kind k)
  rw [Json.read_pretty hreadable hfits, hnormal]

end Report.Json

theorem Slot.ofJson?_slot (s : Slot) : ofJson? (Report.Json.slot s) = some s := by
  have hname : (Report.Json.slot s).get? "name" = some (.str s.property) := rfl
  have hkind : (Report.Json.slot s).get? "kind" = some (.str s.shape.identifier) := rfl
  simp only [ofJson?, hname, hkind, Shape.spelled?_identifier, Option.map_some]

namespace Listing

/-- Where each part is read back, so is a row of parts. -/
theorem mapM_map_eq_some {α β γ : Type} {read : β → Option γ} {write : α → β} {g : α → γ}
    (h : ∀ a, read (write a) = some (g a)) (as : List α) :
    (as.map write).mapM read = some (as.map g) := by
  have hread : read ∘ write = fun a => pure (g a) := funext h
  rw [List.mapM_map, hread, List.mapM_pure]
  rfl

theorem listed?_kind (k : Kind) : listed? (Report.Json.kind k) = some (k, k.slots) := by
  have hslots : (k.slots.map Report.Json.slot).mapM Slot.ofJson? = some k.slots :=
    (mapM_map_eq_some Slot.ofJson?_slot k.slots).trans (congrArg some (List.map_id _))
  have htype : (Report.Json.kind k).get? "type" = some (.str k.tag) := rfl
  have hproperties : (Report.Json.kind k).get? "properties" =
      some (.arr (k.slots.map Report.Json.slot)) := rfl
  simp only [listed?, htype, hproperties, hslots, Kind.ofTag?_tag]

/-- The document of a schema is read back. -/
theorem ofJson?_schema (ks : List Kind) : ofJson? (Report.Json.schema ks) = some (ofKinds ks) :=
  mapM_map_eq_some listed?_kind ks

end Listing

/-! ## Reports of schemas -/

/-- A schema can be read off both of its reports.  For all kinds, in any order and any number, what is
    read from the text and what is read from the JSON is the same listing: the kinds that were given,
    one by one, each with its slots in order.  So no other kinds have the same report in either
    format.  In text the schema of a row of kinds is made of the schemas of its parts. -/
theorem schema_reports_faithful :
    (∀ ks : List Kind,
      Listing.ofText? (Report.schema .text ks) = some (ks.map fun k => (k, k.slots)) ∧
      ∃ j, Json.read (Report.schema .json ks) = .ok j ∧
        Listing.ofJson? j = some (ks.map fun k => (k, k.slots))) ∧
    (∀ f : Format, Function.Injective (Report.schema f)) ∧
    ∀ ks ls : List Kind,
      Report.schema .text (ks ++ ls) = Report.schema .text ks ++ Report.schema .text ls := by
  refine ⟨fun ks => ⟨Listing.ofText?_schema ks, _, Report.Json.read_schema ks,
    Listing.ofJson?_schema ks⟩, ?_, Report.Text.schema_append⟩
  intro f ks ls h
  cases f with
  | text =>
    have hread := Listing.ofText?_schema ks
    rw [show Report.Text.schema ks = Report.Text.schema ls from h, Listing.ofText?_schema] at hread
    exact (Listing.ofKinds_injective (Option.some.inj hread)).symm
  | json =>
    have hread := Report.Json.read_schema ks
    rw [show (Report.Json.schema ks).pretty = (Report.Json.schema ls).pretty from h,
      Report.Json.read_schema] at hread
    have hlisting := Listing.ofJson?_schema ks
    rw [← Except.ok.inj hread, Listing.ofJson?_schema] at hlisting
    exact (Listing.ofKinds_injective (Option.some.inj hlisting)).symm

end TypeTree
