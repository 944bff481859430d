import BuildSteps.Path

/-!
# JSON texts

Values that are printed as JSON, with one item or entry per line.
-/

namespace BuildSteps.CommandLine

/-- A value that is printed. Numbers are given by their text. -/
inductive Json where
  | string (text : String)
  | number (text : String)
  | boolean (b : Bool)
  | array (items : List Json)
  | object (entries : List (String × Json))

namespace Json

def escapeChar (c : Char) : List Char :=
  match c with
  | '"' => ['\\', '"']
  | '\\' => ['\\', '\\']
  | '\x08' => ['\\', 'b']
  | '\t' => ['\\', 't']
  | '\n' => ['\\', 'n']
  | '\x0c' => ['\\', 'f']
  | '\r' => ['\\', 'r']
  | c =>
    if c.toNat < 32 then
      ['\\', 'u', '0', '0', if c.toNat < 16 then '0' else '1'] ++ Nat.toDigits 16 (c.toNat % 16)
    else [c]

def quote (text : String) : String :=
  String.ofList ('"' :: text.toList.flatMap escapeChar ++ ['"'])

def lineBreak (indent : Nat) : String := String.ofList ('\n' :: List.replicate indent ' ')

mutual

def render (indent : Nat) : Json → String
  | .string text => quote text
  | .number text => text
  | .boolean b => if b then "true" else "false"
  | .array [] => "[]"
  | .array (item :: items) =>
    "[" ++ lineBreak (indent + 2) ++ render (indent + 2) item ++ renderItems (indent + 2) items ++
      lineBreak indent ++ "]"
  | .object [] => "\x7b\x7d"
  | .object ((key, value) :: entries) =>
    "\x7b" ++ lineBreak (indent + 2) ++ quote key ++ ": " ++ render (indent + 2) value ++
      renderEntries (indent + 2) entries ++ lineBreak indent ++ "\x7d"

def renderItems (indent : Nat) : List Json → String
  | [] => ""
  | item :: items => "," ++ lineBreak indent ++ render indent item ++ renderItems indent items

def renderEntries (indent : Nat) : List (String × Json) → String
  | [] => ""
  | (key, value) :: entries =>
    "," ++ lineBreak indent ++ quote key ++ ": " ++ render indent value ++
      renderEntries indent entries

end

def text (j : Json) : String := j.render 0

def ofPath (p : Path) : Json := string p.text

def ofPaths (ps : List Path) : Json := array (ps.map ofPath)

def ofNat (n : Nat) : Json := number (toString n)

end Json

end BuildSteps.CommandLine
