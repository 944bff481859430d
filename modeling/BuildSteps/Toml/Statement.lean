import BuildSteps.Toml.Number
import BuildSteps.Toml.Text

/-!
# Statements of TOML documents

A document is read as a list of statements: headers of tables and of members of arrays of tables, and
entries of the table whose header came last.
-/

namespace BuildSteps.Toml

inductive Statement where
  /-- The header of a table below the tables on a path. -/
  | table (path : List String) (key : String)
  /-- The header of the next member of an array of tables. -/
  | member (path : List String) (key : String)
  | entry (path : List String) (key : String) (value : Value)
  deriving Repr

/-- How deeply arrays and tables may be nested in a value, and how many parts a key may have. -/
def nestingLimit : Nat := 79

def splitKey : List String → List String × String
  | [] => ([], "")
  | [key] => ([], key)
  | part :: parts =>
    let (path, key) := splitKey parts
    (part :: path, key)

mutual

def readValue? : Nat → Nat → List Char → Option (Value × List Char)
  | 0, _, _ => none
  | _, _, [] => none
  | n + 1, depth, c :: rest =>
    if c = '"' ∨ c = '\x27' then
      (readString? (c :: rest)).map fun (s, rest) => (.string s, rest)
    else if c = '[' then
      match depth with
      | 0 => none
      | depth + 1 =>
        (readItems? n depth rest).map fun (items, rest) => (.array items, rest)
    else if c = '\x7b' then
      match depth with
      | 0 => none
      | depth + 1 =>
        match dropBlanks rest with
        | '\x7d' :: rest => some (.table [], rest)
        | rest =>
          (readFields? n depth Tree.empty rest).map fun (t, rest) =>
            (.table (Node.entriesToValues t.entries), rest)
    else
      match c :: rest with
      | 't' :: 'r' :: 'u' :: 'e' :: rest => some (.boolean true, rest)
      | 'f' :: 'a' :: 'l' :: 's' :: 'e' :: rest => some (.boolean false, rest)
      | text => readNumber? text

/-- Reads the items of an array up to its closing bracket; a comma may follow the last one. -/
def readItems? : Nat → Nat → List Char → Option (List Value × List Char)
  | 0, _, _ => none
  | n + 1, depth, text =>
    match dropLines text.length text with
    | ']' :: rest => some ([], rest)
    | text =>
      match readValue? n depth text with
      | none => none
      | some (item, rest) =>
        match dropLines rest.length rest with
        | ',' :: rest => (readItems? n depth rest).map fun (items, rest) => (item :: items, rest)
        | ']' :: rest => some ([item], rest)
        | _ => none

def readFields? : Nat → Nat → Tree → List Char → Option (Tree × List Char)
  | 0, _, _, _ => none
  | n + 1, depth, t, text =>
    match readKey? nestingLimit text with
    | some (keys, '=' :: rest) =>
      match readValue? n depth (dropBlanks rest) with
      | none => none
      | some (value, rest) =>
        let (path, key) := splitKey keys
        match t.addEntry path key value, dropBlanks rest with
        | some t, ',' :: rest => readFields? n depth t rest
        | some t, '\x7d' :: rest => some (t, rest)
        | _, _ => none
    | _ => none

end

def readStatement? (text : List Char) : Option (Statement × List Char) :=
  match text with
  | '[' :: '[' :: rest =>
    match readKey? nestingLimit rest with
    | some (keys, ']' :: ']' :: rest) =>
      let (path, key) := splitKey keys
      (afterLine? rest).map fun rest => (.member path key, rest)
    | _ => none
  | '[' :: rest =>
    match readKey? nestingLimit rest with
    | some (keys, ']' :: rest) =>
      let (path, key) := splitKey keys
      (afterLine? rest).map fun rest => (.table path key, rest)
    | _ => none
  | text =>
    match readKey? nestingLimit text with
    | some (keys, '=' :: rest) =>
      match readValue? (2 * rest.length + 2) nestingLimit (dropBlanks rest) with
      | none => none
      | some (value, rest) =>
        let (path, key) := splitKey keys
        (afterLine? rest).map fun rest => (.entry path key value, rest)
    | _ => none

def readStatements? : Nat → List Char → Option (List Statement)
  | 0, _ => none
  | n + 1, text =>
    match dropLines text.length text with
    | [] => some []
    | text =>
      match readStatement? text with
      | none => none
      | some (statement, rest) => (readStatements? n rest).map (statement :: ·)

/-- The statements of a document; a byte order mark at its start does not count. -/
def statements? (text : String) : Option (List Statement) :=
  let text :=
    match text.toList with
    | '\ufeff' :: rest => rest
    | text => text
  readStatements? (text.length + 1) text

end BuildSteps.Toml
