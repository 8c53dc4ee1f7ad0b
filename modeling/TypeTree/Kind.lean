/-
  The kinds of node a type expression is made of.

  Every node carries a TAG, the text that names its kind.  `Kind.ofTag?` reads a tag and
  `Kind.tag` writes one; the two are inverse to each other (`ofTag?_tag`, `tag_of_ofTag?`).
  Kinds are ordered as `Kind.all` lists them, which is also the order in which they are
  reported.
-/

namespace TypeTree

/-- The kinds of node, in the order in which they are listed. -/
inductive Kind where
  | name
  | namedParameter
  | member
  | innerMember
  | instanceMember
  | union
  | record
  | recordEntry
  | tuple
  | generic
  | function
  | arrow
  | optional
  | nullable
  | notNullable
  | variadic
  | moduleName
  | external
  | parenthesis
  | typeQuery
  | importPath
  | any
  | unknown
  | stringValue
  | numberValue
  | filePath
  deriving DecidableEq, Repr

namespace Kind

/-- Every kind, once. -/
def all : List Kind :=
  [name, namedParameter, member, innerMember, instanceMember, union, record, recordEntry,
   tuple, generic, function, arrow, optional, nullable, notNullable, variadic, moduleName,
   external, parenthesis, typeQuery, importPath, any, unknown, stringValue, numberValue,
   filePath]

/-- The text that names a kind in a tree. -/
def tag : Kind → String
  | name => "NAME"
  | namedParameter => "NAMED_PARAMETER"
  | member => "MEMBER"
  | innerMember => "INNER_MEMBER"
  | instanceMember => "INSTANCE_MEMBER"
  | union => "UNION"
  | record => "RECORD"
  | recordEntry => "RECORD_ENTRY"
  | tuple => "TUPLE"
  | generic => "GENERIC"
  | function => "FUNCTION"
  | arrow => "ARROW"
  | optional => "OPTIONAL"
  | nullable => "NULLABLE"
  | notNullable => "NOT_NULLABLE"
  | variadic => "VARIADIC"
  | moduleName => "MODULE"
  | external => "EXTERNAL"
  | parenthesis => "PARENTHESIS"
  | typeQuery => "TYPE_QUERY"
  | importPath => "IMPORT"
  | any => "ANY"
  | unknown => "UNKNOWN"
  | stringValue => "STRING_VALUE"
  | numberValue => "NUMBER_VALUE"
  | filePath => "FILE_PATH"

/-- The kind that a tag names, if it names one. -/
def ofTag? (t : String) : Option Kind :=
  all.find? (·.tag == t)

/-- The place of a kind in `Kind.all`, from 0. -/
def index (k : Kind) : Nat :=
  all.idxOf k

/-- Kinds are compared by their place in `Kind.all`. -/
instance : Ord Kind where
  compare a b := compare a.index b.index

/-- The kinds of `ks` in order; equal kinds stay as many as they were. -/
def sort (ks : List Kind) : List Kind :=
  ks.mergeSort fun a b => a.index ≤ b.index

/-- The property under which a node of this kind keeps its label: the name, key or literal text
    that it stands for.  Kinds that only combine other nodes have none. -/
def labelKey? : Kind → Option String
  | name | namedParameter | member | innerMember | instanceMember => some "name"
  | recordEntry => some "key"
  | stringValue => some "string"
  | numberValue => some "number"
  | filePath => some "path"
  | _ => none

/-! ## Tags and kinds -/

theorem mem_all (k : Kind) : k ∈ all := by
  cases k <;> decide

/-- Every kind is found by its tag. -/
theorem ofTag?_tag (k : Kind) : ofTag? k.tag = some k := by
  cases k <;> decide +kernel

theorem tag_of_ofTag? {t : String} {k : Kind} (h : ofTag? t = some k) : k.tag = t := by
  simpa using List.find?_some h

/-- No two kinds have the same tag. -/
theorem tag_injective {a b : Kind} (h : a.tag = b.tag) : a = b := by
  have := ofTag?_tag a
  rw [h, ofTag?_tag] at this
  exact (Option.some.inj this).symm

end Kind

end TypeTree
