import BuildSteps.Unicode.Spans

/-!
# Texts and blanks in TOML documents

The four ways of writing a string, and what may stand between the parts of a document. Control
characters other than the tab are nowhere allowed as such.
-/

namespace BuildSteps.Toml

def isPlain (c : Char) : Bool := c == '\t' || (' ' ≤ c && c != '\x7f')

def dropBlanks : List Char → List Char := List.dropWhile fun c => c == ' ' || c == '\t'

def afterBreak? : List Char → Option (List Char)
  | '\n' :: rest => some rest
  | '\r' :: '\n' :: rest => some rest
  | _ => none

def dropComment : List Char → List Char
  | '#' :: rest => rest.dropWhile isPlain
  | text => text

def afterLine? (text : List Char) : Option (List Char) :=
  match dropComment (dropBlanks text) with
  | [] => some []
  | rest => afterBreak? rest

/-- The text after blanks, comments and line breaks; at most `lines` lines are skipped. -/
def dropLines : Nat → List Char → List Char
  | 0, text => dropBlanks text
  | lines + 1, text =>
    match dropComment (dropBlanks text) with
    | [] => []
    | rest =>
      match afterBreak? rest with
      | some rest => dropLines lines rest
      | none => dropBlanks text

def readScalar? (count : Nat) (text : List Char) : Option (Char × List Char) :=
  let digits := text.take count
  let isHex := fun (c : Char) => c.isDigit || ('a' ≤ c && c ≤ 'f') || ('A' ≤ c && c ≤ 'F')
  let n := Unicode.hexNumber digits
  if digits.length = count ∧ digits.all isHex ∧ n.isValidChar then
    some (Char.ofNat n, text.drop count)
  else none

def readEscape? : List Char → Option (Char × List Char)
  | 'b' :: rest => some ('\x08', rest)
  | 't' :: rest => some ('\t', rest)
  | 'n' :: rest => some ('\n', rest)
  | 'f' :: rest => some ('\x0c', rest)
  | 'r' :: rest => some ('\r', rest)
  | '"' :: rest => some ('"', rest)
  | '\\' :: rest => some ('\\', rest)
  | 'u' :: rest => readScalar? 4 rest
  | 'U' :: rest => readScalar? 8 rest
  | _ => none

def readQuoted? : Nat → List Char → Option (List Char × List Char)
  | 0, _ => none
  | _, [] => none
  | _ + 1, '"' :: rest => some ([], rest)
  | n + 1, '\\' :: rest =>
    match readEscape? rest with
    | none => none
    | some (c, rest) => (readQuoted? n rest).map fun (cs, rest) => (c :: cs, rest)
  | n + 1, c :: rest =>
    if isPlain c then (readQuoted? n rest).map fun (cs, rest) => (c :: cs, rest) else none

def readLiteral? (text : List Char) : Option (List Char × List Char) :=
  let cs := text.takeWhile fun c => isPlain c && c != '\x27'
  match text.drop cs.length with
  | '\x27' :: rest => some (cs, rest)
  | _ => none

/-- What is left of the text after a string over several lines that three quotes end; up to two more
quotes before them belong to the string. -/
def closeQuotes? (quote : Char) (text : List Char) : Option (List Char × List Char) :=
  let quotes := (text.takeWhile (· == quote)).length
  if quotes < 3 then none
  else
    let extra := min (quotes - 3) 2
    some (List.replicate extra quote, text.drop (extra + 3))

def dropBreaks : Nat → List Char → List Char
  | 0, text => dropBlanks text
  | lines + 1, text =>
    match afterBreak? (dropBlanks text) with
    | some rest => dropBreaks lines rest
    | none => dropBlanks text

def afterContinuation? (text : List Char) : Option (List Char) :=
  (afterBreak? (dropBlanks text)).map fun rest => dropBreaks rest.length rest

/-- Reads a string over several lines, after the opening quotes; a line break is one character. -/
def readLongQuoted? : Nat → List Char → Option (List Char × List Char)
  | 0, _ => none
  | _, [] => none
  | n + 1, c :: rest =>
    if c = '"' then
      match closeQuotes? '"' (c :: rest) with
      | some result => some result
      | none => (readLongQuoted? n rest).map fun (cs, rest) => (c :: cs, rest)
    else if c = '\\' then
      match afterContinuation? rest with
      | some rest => readLongQuoted? n rest
      | none =>
        match readEscape? rest with
        | none => none
        | some (e, rest) => (readLongQuoted? n rest).map fun (cs, rest) => (e :: cs, rest)
    else
      match afterBreak? (c :: rest) with
      | some rest => (readLongQuoted? n rest).map fun (cs, rest) => ('\n' :: cs, rest)
      | none =>
        if isPlain c then (readLongQuoted? n rest).map fun (cs, rest) => (c :: cs, rest) else none

def readLongLiteral? : Nat → List Char → Option (List Char × List Char)
  | 0, _ => none
  | _, [] => none
  | n + 1, c :: rest =>
    if c = '\x27' then
      match closeQuotes? '\x27' (c :: rest) with
      | some result => some result
      | none => (readLongLiteral? n rest).map fun (cs, rest) => (c :: cs, rest)
    else
      match afterBreak? (c :: rest) with
      | some rest => (readLongLiteral? n rest).map fun (cs, rest) => ('\n' :: cs, rest)
      | none =>
        if isPlain c then (readLongLiteral? n rest).map fun (cs, rest) => (c :: cs, rest) else none

def dropFirstBreak (text : List Char) : List Char := (afterBreak? text).getD text

def readString? (text : List Char) : Option (String × List Char) :=
  let result : Option (List Char × List Char) :=
    match text with
    | '"' :: '"' :: '"' :: rest => readLongQuoted? (rest.length + 1) (dropFirstBreak rest)
    | '"' :: rest => readQuoted? (rest.length + 1) rest
    | '\x27' :: '\x27' :: '\x27' :: rest =>
      readLongLiteral? (rest.length + 1) (dropFirstBreak rest)
    | '\x27' :: rest => readLiteral? rest
    | _ => none
  result.map fun (cs, rest) => (String.ofList cs, rest)

def readSimpleKey? (text : List Char) : Option (String × List Char) :=
  match text with
  | '"' :: rest => (readQuoted? (rest.length + 1) rest).map fun (cs, r) => (String.ofList cs, r)
  | '\x27' :: rest => (readLiteral? rest).map fun (cs, r) => (String.ofList cs, r)
  | _ =>
    let key := text.takeWhile fun c => c.isAlphanum || c == '-' || c == '_'
    if key.isEmpty then none else some (String.ofList key, text.drop key.length)

def readKey? : Nat → List Char → Option (List String × List Char)
  | 0, _ => none
  | n + 1, text =>
    match readSimpleKey? (dropBlanks text) with
    | none => none
    | some (key, rest) =>
      match dropBlanks rest with
      | '.' :: rest => (readKey? n rest).map fun (keys, rest) => (key :: keys, rest)
      | rest => some ([key], rest)

end BuildSteps.Toml
