import CaretLayout.Toml.Value

/-!
# Building a TOML tree

A document is a list of statements: headers, which open a table or add one to an array of tables,
and assignments of a value to a dotted key in the table that is open.  Each table remembers how it
came about, since that decides who may add to it later:

* `opened` by a header or written inline: only its own assignments add to it, and headers may place
  tables below it;
* `implied` by a header of a table below it: a header may still open it;
* `dotted`, made by the front of a dotted key: other dotted keys may add to it.

No key is assigned twice.
-/

namespace CaretLayout.Toml

/-- How a table came about. -/
inductive Origin where
  | opened
  | implied
  | dotted
deriving DecidableEq, Repr

/-- A tree in the making. -/
inductive Node where
  /-- A value that is complete. -/
  | value (v : Toml)
  | table (origin : Origin) (entries : List (String × Node))
  /-- An array of tables, the latest first. -/
  | tables (latest : List (List (String × Node)))

/-- The entries of a table. -/
abbrev Entries := List (String × Node)

namespace Entries

/-- The node of a key. -/
def find? (key : String) : Entries → Option Node
  | [] => none
  | (k, n) :: rest => if k = key then some n else find? key rest

/-- Replaces the node of a key, or adds the key. -/
def put (key : String) (node : Node) : Entries → Entries
  | [] => [(key, node)]
  | (k, n) :: rest => if k = key then (k, node) :: rest else (k, n) :: put key node rest

/-- Assigns a value to a dotted key.  A table on the way must be absent or a table of dotted keys or
implied; the last one must be absent or of dotted keys. -/
def assign (value : Toml) : List String → Entries → Option Entries
  | [], _ => none
  | [key], entries =>
    match find? key entries with
    | none => some (put key (.value value) entries)
    | some _ => none
  | key :: next :: path, entries =>
    match find? key entries with
    | none => do
      let inner ← assign value (next :: path) []
      return put key (.table .dotted inner) entries
    | some (.table .dotted inner) => do
      let inner ← assign value (next :: path) inner
      return put key (.table .dotted inner) entries
    | some (.table .implied inner) =>
      if path.isEmpty then none
      else do
        let inner ← assign value (next :: path) inner
        return put key (.table .implied inner) entries
    | some (.tables (inner :: older)) =>
      if path.isEmpty then none
      else do
        let inner ← assign value (next :: path) inner
        return put key (.tables (inner :: older)) entries
    | some _ => none

/-- Applies a change to the entries of the table that a header path leads to, the last key being
handled by `atEnd`.  Tables on the way that are absent are implied, and an array of tables stands
for its latest table. -/
def descend (atEnd : String → Entries → Option Entries) : List String → Entries → Option Entries
  | [], _ => none
  | [key], entries => atEnd key entries
  | key :: next :: path, entries =>
    match find? key entries with
    | none => do
      let inner ← descend atEnd (next :: path) []
      return put key (.table .implied inner) entries
    | some (.table origin inner) => do
      let inner ← descend atEnd (next :: path) inner
      return put key (.table origin inner) entries
    | some (.tables (inner :: older)) => do
      let inner ← descend atEnd (next :: path) inner
      return put key (.tables (inner :: older)) entries
    | some _ => none

/-- Opens a table: it is absent, or implied so far. -/
def openTable (key : String) (entries : Entries) : Option Entries :=
  match find? key entries with
  | none => some (put key (.table .opened []) entries)
  | some (.table .implied inner) => some (put key (.table .opened inner) entries)
  | some _ => none

/-- Adds a table to an array of tables. -/
def addTable (key : String) (entries : Entries) : Option Entries :=
  match find? key entries with
  | none => some (put key (.tables [[]]) entries)
  | some (.tables latest) => some (put key (.tables ([] :: latest)) entries)
  | some _ => none

/-- Changes the entries of the table at a key, the latest one of an array of tables. -/
def within (change : Entries → Option Entries) (key : String) (entries : Entries) :
    Option Entries :=
  match find? key entries with
  | some (.table origin inner) => do
    let inner ← change inner
    return put key (.table origin inner) entries
  | some (.tables (inner :: older)) => do
    let inner ← change inner
    return put key (.tables (inner :: older)) entries
  | _ => none

/-- Assigns a value to a dotted key in the table of a header, the root for the empty path. -/
def assignAt (header key : List String) (value : Toml) (entries : Entries) : Option Entries :=
  match header with
  | [] => assign value key entries
  | _ => descend (within (assign value key)) header entries

end Entries

mutual

/-- The value of a node. -/
def Node.toToml : Node → Toml
  | .value v => v
  | .table _ entries => .table (entriesToToml entries)
  | .tables latest => .array (tablesToToml latest).reverse

/-- The values of entries. -/
def entriesToToml : Entries → List (String × Toml)
  | [] => []
  | (k, n) :: rest => (k, n.toToml) :: entriesToToml rest

/-- The values of tables. -/
def tablesToToml : List Entries → List Toml
  | [] => []
  | e :: rest => .table (entriesToToml e) :: tablesToToml rest

end

/-- A statement of a document. -/
inductive Statement where
  /-- `[path]` -/
  | openTable (path : List String)
  /-- `[[path]]` -/
  | addTable (path : List String)
  /-- `key = value` -/
  | assign (key : List String) (value : Toml)

/-- The tree built so far, and the path of the header that is open. -/
structure Building where
  header : List String := []
  root : Entries := []

/-- Takes in a statement. -/
def Building.step (b : Building) : Statement → Option Building
  | .openTable path => do
    let root ← Entries.descend Entries.openTable path b.root
    return ⟨path, root⟩
  | .addTable path => do
    let root ← Entries.descend Entries.addTable path b.root
    return ⟨path, root⟩
  | .assign key value => do
    let root ← Entries.assignAt b.header key value b.root
    return { b with root := root }

/-- The tree of a list of statements. -/
def ofStatements (statements : List Statement) : Option Toml := do
  let b ← statements.foldlM Building.step {}
  return .table (entriesToToml b.root)

/-- The inline table of a list of assignments. -/
def ofAssignments (assignments : List (List String × Toml)) : Option Toml := do
  let entries ← assignments.foldlM (fun e a => Entries.assign a.2 a.1 e) ([] : Entries)
  return .table (entriesToToml entries)

end CaretLayout.Toml
