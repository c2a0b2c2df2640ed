import ObjectMapping.Toml.Value

/-! # Assembly of TOML tables

The tables of a document grow statement by statement. A table remembers how it came to be
(`Table.Origin`): no table may be opened twice by a header, a table that headers only passed through
may be opened later, and a table made by a dotted name grows only by dotted names. -/

namespace ObjectMapping.Toml

/-- How a table came to be. -/
inductive Origin where
  /-- By a header of its own, or as the whole document. -/
  | header
  /-- As a stage on the way of a header. -/
  | passed
  /-- As a stage of a dotted name. -/
  | dotted
deriving DecidableEq

mutual

/-- A **table under assembly**. -/
inductive Table where
  /-- A table with its origin and its entries in order. -/
  | mk (origin : Origin) (entries : List (String × Node))

/-- An entry of a table under assembly. -/
inductive Node where
  /-- A finished value. -/
  | value (value : Value)
  /-- A table that may still grow. -/
  | table (table : Table)
  /-- A list of tables, of which the last may still grow. -/
  | tables (tables : List Table)

end

namespace Table

/-- How the table came to be. -/
def origin : Table → Origin
  | .mk origin _ => origin

/-- The entries of the table. -/
def entries : Table → List (String × Node)
  | .mk _ entries => entries

/-- A table without entries. -/
def new (origin : Origin) : Table := .mk origin []

/-- The entry of a name. -/
def find? (t : Table) (name : String) : Option Node := t.entries.lookup name

/-- The table with an entry set, in the place of an entry of the same name or at the end. -/
def set (t : Table) (name : String) (node : Node) : Table :=
  if (t.find? name).isSome then
    .mk t.origin (t.entries.map fun e => if e.1 = name then (name, node) else e)
  else .mk t.origin (t.entries ++ [(name, node)])

/-- The table with a change made to the table at the end of a path. Tables on the way that do not
exist yet are made, the last table of a list stands for the list, and a dotted name does not lead
into a table that has a header. -/
def update (stages : Origin) (change : Table → Option Table) : List String → Table → Option Table
  | [], t => change t
  | name :: path, t =>
    match t.find? name with
    | none => do
      let inner ← update stages change path (.new stages)
      return t.set name (.table inner)
    | some (.value _) => none
    | some (.tables ts) => do
      let inner ← update stages change path (← ts.getLast?)
      return t.set name (.tables (ts.dropLast ++ [inner]))
    | some (.table inner) => do
      if stages = .dotted ∧ inner.origin = .header then none
      else
        let inner ← update stages change path inner
        return t.set name (.table inner)

/-- The table with a value set under a dotted name. The name has to be new, and a table made by a
dotted name takes only values with one. -/
def assign (path : List String) (name : String) (value : Value) (t : Table) : Option Table :=
  t |> update .dotted (fun inner =>
    if inner.origin = .dotted ↔ path = [] then none
    else if (inner.find? name).isSome then none
    else some (inner.set name (.value value))) path

/-- The table after the header of a single table. -/
def open? (path : List String) (name : String) : Table → Option Table :=
  update .passed (fun parent =>
    match parent.find? name with
    | none => some (parent.set name (.table (.new .header)))
    | some (.table inner) =>
      if inner.origin = .passed then some (parent.set name (.table (.mk .header inner.entries)))
      else none
    | some _ => none) path

/-- The table after the header of one more table of a list. -/
def append? (path : List String) (name : String) : Table → Option Table :=
  update .passed (fun parent =>
    match parent.find? name with
    | none => some (parent.set name (.tables [.new .header]))
    | some (.tables ts) => some (parent.set name (.tables (ts ++ [.new .header])))
    | some _ => none) path

mutual

/-- The value of a table that is complete. -/
def finish : Table → Value
  | .mk _ entries => .table (finishEntries entries)

/-- The values of the entries of a complete table. -/
def finishEntries : List (String × Node) → List (String × Value)
  | [] => []
  | (name, node) :: rest => (name, finishNode node) :: finishEntries rest

/-- The value of an entry of a complete table. -/
def finishNode : Node → Value
  | .value v => v
  | .table t => finish t
  | .tables ts => .list (finishTables ts)

/-- The values of a complete list of tables. -/
def finishTables : List Table → List Value
  | [] => []
  | t :: rest => finish t :: finishTables rest

end

end Table

end ObjectMapping.Toml
