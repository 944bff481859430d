import BuildSteps.Decimal

/-!
# Values and tables under construction

What a document can hold. The entries of a table keep the order in which they were written. While a
document is read, a table knows how it came to be. Only a table that exists because a header below it
was seen may still get a header of its own, and only a table that exists because of a dotted key may
still get entries through dotted keys.
-/

namespace BuildSteps.Toml

/-! ## 1. Values -/

inductive Value where
  | string (text : String)
  | integer (n : Int)
  | float (x : Decimal.Binary64)
  | boolean (b : Bool)
  /-- A date, a time or both, as it was written. -/
  | dateTime (text : String)
  | array (items : List Value)
  | table (entries : List (String × Value))
  deriving Repr

/-! ## 2. Tables under construction -/

inductive Node where
  | value (value : Value)
  /-- The tables of an array of tables, each with its entries. -/
  | tables (tables : List (List (String × Node)))
  | table (implicit dotted : Bool) (entries : List (String × Node))

/-- A table under construction. An implicit one was only passed on the way to another table. -/
structure Tree where
  implicit : Bool
  dotted : Bool
  entries : List (String × Node)

namespace Node

mutual

def toValue : Node → Value
  | .value v => v
  | .tables ts => .array (tablesToValues ts)
  | .table _ _ entries => .table (entriesToValues entries)

def entriesToValues : List (String × Node) → List (String × Value)
  | [] => []
  | (key, node) :: entries => (key, node.toValue) :: entriesToValues entries

def tablesToValues : List (List (String × Node)) → List Value
  | [] => []
  | entries :: ts => .table (entriesToValues entries) :: tablesToValues ts

end

end Node

namespace Tree

def empty : Tree := ⟨false, false, []⟩

def get? (t : Tree) (key : String) : Option Node := (t.entries.find? (·.1 == key)).map (·.2)

def put (t : Tree) (key : String) (node : Node) : Tree :=
  if t.entries.any (·.1 == key) then
    { t with entries := t.entries.map fun entry => if entry.1 == key then (key, node) else entry }
  else { t with entries := t.entries ++ [(key, node)] }

def remove (t : Tree) (key : String) : Tree :=
  { t with entries := t.entries.filter (·.1 != key) }

/-- Changes the table at a path, creating implicit tables on the way. In an array of tables the path
goes through the last one. A path of a dotted key may only pass implicit tables. -/
def alterAt (dotted : Bool) (change : Tree → Option Tree) : List String → Tree → Option Tree
  | [], t => change t
  | key :: path, t =>
    match t.get? key with
    | none =>
      (alterAt dotted change path ⟨true, dotted, []⟩).map fun c =>
        t.put key (.table c.implicit c.dotted c.entries)
    | some (.value _) => none
    | some (.tables ts) =>
      match ts.reverse with
      | [] => none
      | last :: others =>
        (alterAt dotted change path ⟨false, false, last⟩).map fun c =>
          t.put key (.tables (others.reverse ++ [c.entries]))
    | some (.table implicit isDotted entries) =>
      if dotted && !implicit then none
      else
        (alterAt dotted change path ⟨implicit, isDotted, entries⟩).map fun c =>
          t.put key (.table c.implicit c.dotted c.entries)

/-- Adds an entry to the table that a dotted key leads to. The table must have come to be through
dotted keys, or there are no dots, and the entry must be new. -/
def addEntry (path : List String) (key : String) (value : Value) (t : Tree) : Option Tree :=
  t.alterAt true (fun t =>
    if t.dotted = path.isEmpty ∨ (t.get? key).isSome then none
    else some (t.put key (.value value))) path

end Tree

end BuildSteps.Toml
