import BuildSteps.Toml.Statement

/-!
# TOML documents

Puts the statements of a document together. The entries after a header go into its table, which takes
its place in the document when the next header or the end comes. A table has one header, and no key
is defined twice.
-/

namespace BuildSteps.Toml

/-- The table whose entries are being read, and where it belongs. -/
structure OpenTable where
  tree : Tree
  path : List String
  key : String
  isMember : Bool

structure Draft where
  root : Tree
  /-- Nothing as long as entries go into the root. -/
  current : Option OpenTable

namespace Draft

def empty : Draft := ⟨.empty, none⟩

def close? (d : Draft) : Option Tree :=
  match d.current with
  | none => some d.root
  | some t =>
    d.root.alterAt false (fun parent =>
      if t.isMember then
        match parent.get? t.key with
        | some (.tables ts) => some (parent.put t.key (.tables (ts ++ [t.tree.entries])))
        | none => some (parent.put t.key (.tables [t.tree.entries]))
        | _ => none
      else if (parent.get? t.key).isSome then none
      else some (parent.put t.key (.table false false t.tree.entries))) t.path

/-- Opens a table after its header. Of a table that is there already, because a header below it was
seen, the entries are taken over. -/
def openTable? (root : Tree) (path : List String) (key : String) : Option Draft :=
  let found := fun (parent : Tree) =>
    match parent.get? key with
    | none => some []
    | some (.table true false entries) => some entries
    | some _ => none
  let entries : Option (List (String × Node)) :=
    match root.alterAt false some path with
    | none => none
    | some reached => (parentOf path reached).bind found
  match entries, root.alterAt false (fun parent => some (parent.remove key)) path with
  | some entries, some root => some ⟨root, some ⟨⟨false, false, entries⟩, path, key, false⟩⟩
  | _, _ => none
where
  /-- The table at a path that exists. -/
  parentOf : List String → Tree → Option Tree
    | [], t => some t
    | step :: path, t =>
      match t.get? step with
      | some (.table implicit dotted entries) => parentOf path ⟨implicit, dotted, entries⟩
      | some (.tables ts) => ts.getLast?.bind fun entries => parentOf path ⟨false, false, entries⟩
      | _ => none

def openMember? (root : Tree) (path : List String) (key : String) : Option Draft :=
  (root.alterAt false (fun parent =>
    match parent.get? key with
    | none => some (parent.put key (.tables []))
    | some (.tables _) => some parent
    | some _ => none) path).map fun root => ⟨root, some ⟨.empty, path, key, true⟩⟩

def add? (d : Draft) : Statement → Option Draft
  | .entry path key value =>
    match d.current with
    | none => (d.root.addEntry path key value).map fun root => { d with root }
    | some t => (t.tree.addEntry path key value).map fun tree =>
        { d with current := some { t with tree } }
  | .table path key => d.close?.bind fun root => openTable? root path key
  | .member path key => d.close?.bind fun root => openMember? root path key

def addAll? : List Statement → Draft → Option Draft
  | [], d => some d
  | s :: rest, d => (d.add? s).bind (addAll? rest)

end Draft

def parse? (text : String) : Option (List (String × Value)) :=
  match statements? text with
  | none => none
  | some statements =>
    ((Draft.empty.addAll? statements).bind Draft.close?).map fun root =>
      Node.entriesToValues root.entries

end BuildSteps.Toml
