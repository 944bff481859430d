import BuildSteps.Path
import BuildSteps.Toml.Tree
import BuildSteps.Unicode.Category
import BuildSteps.Unicode.Property

/-!
# Decoding values

Turns values of a document into the types of the program. The fields of a record are looked at in the
order in which the document has them; only then are missing ones reported, in the order of the
record. A record may also be written as an array of its fields in their order. A message quotes a text
with escapes for quotes, backslashes and all characters that cannot be seen on their own.
-/

namespace BuildSteps

/-! ## 1. Quoted text -/

namespace Text

def isVisible (c : Char) : Bool :=
  if c.toNat < 128 then ' ' ≤ c && c != '\x7f'
  else
    !([Unicode.controlSpans, Unicode.formatSpans, Unicode.surrogateSpans, Unicode.privateUseSpans,
        Unicode.lineSeparatorSpans, Unicode.paragraphSeparatorSpans, Unicode.spaceSeparatorSpans,
        Unicode.graphemeExtendSpans].any (Unicode.memberOf c.toNat)) &&
      Unicode.isAssigned c

def quoteChar (c : Char) : List Char :=
  match c with
  | '"' => ['\\', '"']
  | '\\' => ['\\', '\\']
  | '\t' => ['\\', 't']
  | '\n' => ['\\', 'n']
  | '\r' => ['\\', 'r']
  | '\x00' => ['\\', '0']
  | c =>
    if isVisible c then [c]
    else ['\\', 'u', '\x7b'] ++ Nat.toDigits 16 c.toNat ++ ['\x7d']

def quoted (text : String) : String :=
  String.ofList ('"' :: text.toList.flatMap quoteChar ++ ['"'])

end Text

/-! ## 2. Decoding -/

namespace Toml

inductive Mismatch where
  | unknownField (name : String) (expected : List String)
  | unknownVariant (name : String) (expected : List String)
  | missingField (name : String)
  | invalidType (found expected : String)
  /-- An array with too few fields for a record. -/
  | tooFewFields
  /-- Neither a text nor a table with one entry where one of several names was expected. -/
  | noVariant
  deriving DecidableEq, Repr

def expectedNames (names : List String) : String :=
  let quoted := names.map fun n => "`" ++ n ++ "`"
  match quoted with
  | [] => "there are no names"
  | [a] => "expected " ++ a
  | [a, b] => "expected " ++ a ++ " or " ++ b
  | quoted => "expected one of " ++ Text.join ", " quoted

def Mismatch.message : Mismatch → String
  | unknownField name expected => "unknown field `" ++ name ++ "`, " ++ expectedNames expected
  | unknownVariant name expected => "unknown variant `" ++ name ++ "`, " ++ expectedNames expected
  | missingField name => "missing field `" ++ name ++ "`"
  | invalidType found expected => "invalid type: " ++ found ++ ", expected " ++ expected
  | tooFewFields => "invalid length"
  | noVariant => "wanted string or table"

abbrev Decoded (α : Type) := Except Mismatch α

namespace Value

/-- What a value is called when it is not what was expected. -/
def describe : Value → String
  | string text => "string " ++ Text.quoted text
  | integer n => "integer `" ++ toString n ++ "`"
  | float x => "floating point `" ++ x.text ++ "`"
  | boolean b => "boolean `" ++ (if b then "true" else "false") ++ "`"
  | dateTime _ => "map"
  | array _ => "sequence"
  | table _ => "map"

def asText : Value → Decoded String
  | string text => .ok text
  | v => .error (.invalidType v.describe "a string")

def asPath : Value → Decoded Path
  | string text => .ok ⟨text⟩
  | v => .error (.invalidType v.describe "path string")

def asBool : Value → Decoded Bool
  | boolean b => .ok b
  | v => .error (.invalidType v.describe "a boolean")

def asList {α : Type} (decode : Value → Decoded α) : Value → Decoded (List α)
  | array items => items.mapM decode
  | v => .error (.invalidType v.describe "a sequence")

def isHollow : Value → Bool
  | array items => items.isEmpty
  | table entries => entries.isEmpty
  | _ => false

/-- One of several values, chosen by its name: a string, or the only key of a table whose value
holds nothing. -/
def asChoice {α : Type} (choices : List (String × α)) (v : Value) : Decoded α :=
  let choose := fun (name : String) =>
    match choices.find? (·.1 == name) with
    | some choice => Except.ok choice.2
    | none => .error (.unknownVariant name (choices.map (·.1)))
  match v with
  | string name => choose name
  | table [(name, inner)] =>
    match choose name with
    | .ok a => if inner.isHollow then .ok a else .error .noVariant
    | .error e => .error e
  | _ => .error .noVariant

end Value

/-- A record that is decoded: its name, its fields with what each must be, and whether other fields
are refused. -/
structure Schema where
  name : String
  fields : List (String × (Value → Decoded Unit))
  isStrict : Bool

structure Fields where
  entries : List (String × Value)
  /-- The record was written as an array. -/
  isPositional : Bool

/-- What a field must be, with the decoded value left out. -/
def must {α : Type} (decode : Value → Decoded α) (v : Value) : Decoded Unit :=
  (decode v).map fun _ => ()

def Schema.check (schema : Schema) : List (String × Value) → Decoded Unit
  | [] => .ok ()
  | (key, v) :: entries =>
    match schema.fields.find? (·.1 == key) with
    | some field =>
      match field.2 v with
      | .ok () => schema.check entries
      | .error e => .error e
    | none =>
      if schema.isStrict then .error (.unknownField key (schema.fields.map (·.1)))
      else schema.check entries

/-- The fields of a record; a date counts as a table with one field of a name that no record has. -/
def Schema.fieldsOf (schema : Schema) (v : Value) : Decoded Fields :=
  let found : Decoded Fields :=
    match v with
    | .table entries => .ok ⟨entries, false⟩
    | .dateTime text => .ok ⟨[("$__toml_private_datetime", .string text)], false⟩
    | .array items => .ok ⟨(schema.fields.map (·.1)).zip items, true⟩
    | v => .error (.invalidType v.describe ("struct " ++ schema.name))
  match found with
  | .error e => .error e
  | .ok fields =>
    match schema.check fields.entries with
    | .ok () => .ok fields
    | .error e => .error e

namespace Fields

def get? (fields : Fields) (name : String) : Option Value :=
  (fields.entries.find? (·.1 == name)).map (·.2)

def required {α : Type} (fields : Fields) (name : String) (decode : Value → Decoded α) :
    Decoded α :=
  match fields.get? name with
  | some v => decode v
  | none => .error (if fields.isPositional then .tooFewFields else .missingField name)

/-- A field that may be left out, though not in the middle of an array. -/
def optional {α : Type} (fields : Fields) (name : String) (decode : Value → Decoded α) :
    Decoded (Option α) :=
  match fields.get? name with
  | some v => (decode v).map some
  | none => if fields.isPositional then .error .tooFewFields else .ok none

def withDefault {α : Type} (fields : Fields) (name : String) (decode : Value → Decoded α)
    (default : α) : Decoded α :=
  match fields.get? name with
  | some v => decode v
  | none => .ok default

end Fields

end Toml

end BuildSteps
