/-
  Labels: what becomes of the value of a node when the node is written.

  A node has its value as its label, whatever its kind is.  A document has a label only under the
  label key of the kind that its tag names, and only if that is where a text stands.  So a value is
  lost in three ways: its kind has no label key, a field has the name of the key, or a field has
  taken the place of the tag, and with it of the kind.

  Fields hold nodes and never texts, so whatever takes the place of a value is not taken for one
  (`text_document`): a label can be lost but never be exchanged for another, and a node without a
  value gets none.
-/
import TypeTree.Proofs.Document

namespace TypeTree

/-- The text that a document without a tag has for its tag names no kind. -/
theorem Kind.ofTag?_empty : ofTag? "" = none := by
  decide

namespace Expr

/-- There is a key for the value of the node, and no field takes the place of the tag or of the
    value. -/
def HasPlaceForValue (e : Expr) : Prop :=
  ∃ key, e.kind.labelKey? = some key ∧ (∀ fd ∈ e.fields, fd.1 ≠ key) ∧
    ∀ fd ∈ e.fields, fd.1 ≠ "type"

theorem label?_document_of_place {e : Expr} (h : e.HasPlaceForValue) :
    Node.label? e.document = e.value? := by
  obtain ⟨key, hkey, hlabel, htype⟩ := h
  have hno : ¬ ∃ fd ∈ e.fields, fd.1 = key := by
    rintro ⟨fd, hfd, hname⟩
    exact hlabel fd hfd hname
  rw [label?_document (tag_document htype), hkey]
  exact if_neg hno

/-- Where a field has taken the place of the tag, the document has no kind and hence no label. -/
theorem label?_document_of_lost_tag {e : Expr} (h : ∃ fd ∈ e.fields, fd.1 = "type") :
    Node.label? e.document = none := by
  have htag : e.document.tag = "" := by
    show ((e.document.get? "type").bind Json.str?).getD "" = ""
    rw [text_document, if_pos h]
    rfl
  show (Kind.ofTag? e.document.tag).bind _ = none
  rw [htag, Kind.ofTag?_empty]
  rfl

theorem label?_document_of_no_place {e : Expr} (h : ¬ e.HasPlaceForValue) :
    Node.label? e.document = none := by
  by_cases htype : ∃ fd ∈ e.fields, fd.1 = "type"
  · exact label?_document_of_lost_tag htype
  · have htype' : ∀ fd ∈ e.fields, fd.1 ≠ "type" := fun fd hfd hname => htype ⟨fd, hfd, hname⟩
    rw [label?_document (tag_document htype')]
    cases hkey : e.kind.labelKey? with
    | none => rfl
    | some key =>
      -- the tag is in its place, so it is the value that is not
      have hlabel : ∃ fd ∈ e.fields, fd.1 = key := by
        by_contra hno
        exact h ⟨key, hkey, fun fd hfd hname => hno ⟨fd, hfd, hname⟩, htype'⟩
      exact if_pos hlabel

/-- The document of a node has the label of the node exactly if the node has no value, or its kind
    has a key for it and no field has the name of that key or of the tag.  In every other case the
    label is lost; it is never another one. -/
theorem written_label_kept_or_lost (e : Expr) :
    (Node.label? e.document = Node.label? e ↔
      e.value? = none ∨ ∃ key, e.kind.labelKey? = some key ∧ (∀ fd ∈ e.fields, fd.1 ≠ key) ∧
        ∀ fd ∈ e.fields, fd.1 ≠ "type") ∧
    (Node.label? e.document = Node.label? e ∨ Node.label? e.document = none) := by
  show (Node.label? e.document = e.value? ↔ e.value? = none ∨ e.HasPlaceForValue) ∧
    (Node.label? e.document = e.value? ∨ Node.label? e.document = none)
  by_cases hplace : e.HasPlaceForValue
  · have hkept := label?_document_of_place hplace
    exact ⟨⟨fun _ => .inr hplace, fun _ => hkept⟩, .inl hkept⟩
  · have hlost := label?_document_of_no_place hplace
    refine ⟨⟨fun h => .inl (h.symm.trans hlost), ?_⟩, .inr hlost⟩
    rintro (hnone | hplace')
    · rw [hlost, hnone]
    · exact absurd hplace' hplace

end Expr

end TypeTree
