import ModemLink.Record

/-!
# Growing tables

The tables of a file grow while it is read: a header begins a table, a longer header or a dotted key
brings the tables on its way into being.  What may still grow depends on what brought a table into
being, its `Origin`.  A name is never given twice.

Main statements: `insert_twice`, `fresh_insert`.
-/

namespace ModemLink.Toml

/-- What brought a table into being. -/
inductive Origin where
  /-- Its own header or braces, or the file itself. -/
  | stated
  /-- A longer header. -/
  | implied
  /-- A dotted key. -/
  | dotted
deriving DecidableEq, Repr

/-- What stands under a name. -/
inductive Node where
  | value (value : Value)
  | table (origin : Origin) (entries : List (String × Node))
  /-- Tables with repeated headers, the latest apart. -/
  | tables (earlier : List Value) (latest : List (String × Node))
deriving Inhabited

/-- A table that may grow. -/
structure Table where
  origin : Origin
  entries : List (String × Node)

namespace Node

mutual

/-- The value of what stands under a name. -/
def toValue : Node → Value
  | value v => v
  | table _ entries => .table (entryValues entries)
  | tables earlier latest => .list (earlier ++ [.table (entryValues latest)])

/-- The values of the entries of a table. -/
def entryValues : List (String × Node) → List (String × Value)
  | [] => []
  | (name, node) :: rest => (name, node.toValue) :: entryValues rest

end

end Node

namespace Table

/-- A table without entries. -/
def fresh (origin : Origin) : Table := ⟨origin, []⟩

/-- The value of a table. -/
def toValue (t : Table) : Value := .table (Node.entryValues t.entries)

/-- Changes what stands under a name, which may be nothing yet. -/
def alter? (t : Table) (name : String) (change : Option Node → Option Node) : Option Table := do
  match t.entries.lookup name with
  | none => return { t with entries := t.entries ++ [(name, ← change none)] }
  | some node =>
    let node ← change (some node)
    return { t with
      entries := t.entries.map fun entry => if entry.1 = name then (name, node) else entry }

/-- Changes the table at the end of a path.  The way leads through the latest of repeated tables;
missing tables come into being with the given origin.  A dotted key does not lead into a table that
was stated. -/
def alterAt? (origin : Origin) (change : Table → Option Table) : List String → Table → Option Table
  | [], t => change t
  | name :: path, t => t.alter? name fun
    | none => do
      let child ← alterAt? origin change path (fresh origin)
      return .table child.origin child.entries
    | some (.table o entries) => do
      if origin = .dotted ∧ o = .stated then none
      let child ← alterAt? origin change path ⟨o, entries⟩
      return .table child.origin child.entries
    | some (.tables earlier latest) => do
      let child ← alterAt? origin change path ⟨.stated, latest⟩
      return .tables earlier child.entries
    | some (.value _) => none

/-- Adds an entry under a new name. -/
def insert? (t : Table) (name : String) (value : Value) : Option Table :=
  t.alter? name fun
    | none => some (.value value)
    | some _ => none

/-- Adds an entry under a dotted key: a single name goes into the table itself, and a longer key
into a table that came into being by a dotted key. -/
def insertAt? (t : Table) (path : List String) (name : String) (value : Value) : Option Table :=
  t.alterAt? .dotted (fun child =>
    if path.isEmpty || child.origin = .dotted then child.insert? name value else none) path

/-- Adds the entries of a section. -/
def insertAll? (t : Table) (entries : List (List String × String × Value)) : Option Table :=
  entries.foldlM (fun t (path, name, value) => t.insertAt? path name value) t

/-- Adds a section with a header.  A table that only longer headers brought into being may still get
its own header; with a repeated header each section is one more table. -/
def addSection? (t : Table) (path : List String) (name : String) (repeated : Bool)
    (entries : List (List String × String × Value)) : Option Table :=
  t.alterAt? .implied (fun parent => parent.alter? name fun
    | none => do
      let grown ← (fresh .stated).insertAll? entries
      if repeated then return .tables [] grown.entries
      else return .table .stated grown.entries
    | some (.table .implied known) => do
      if repeated then none
      let grown ← Table.insertAll? ⟨.stated, known⟩ entries
      return .table .stated grown.entries
    | some (.tables earlier latest) => do
      if repeated then
        let grown ← (fresh .stated).insertAll? entries
        return .tables (earlier ++ [.table (Node.entryValues latest)]) grown.entries
      else none
    | some _ => none) path

/-- A new name goes behind the others. -/
theorem fresh_insert (t : Table) (name : String) (value : Value)
    (h : t.entries.lookup name = none) :
    t.insert? name value = some { t with entries := t.entries ++ [(name, .value value)] } := by
  simp [insert?, alter?, h]

/-- A name is not given twice. -/
theorem insert_twice (t : Table) (name : String) (node : Node) (value : Value)
    (h : t.entries.lookup name = some node) : t.insert? name value = none := by
  simp [insert?, alter?, h]

end Table

end ModemLink.Toml
