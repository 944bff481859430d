import BuildSteps.Pattern.Basic

/-!
# Atoms of patterns

The parts of a pattern that are written without other patterns inside: characters, escapes, named
sets and conditions. What they mean depends on flags, which a pattern can change on its way.
-/

namespace BuildSteps.Pattern

structure Flags where
  ignoreCase : Bool
  multiLine : Bool
  dotMatchesNewline : Bool
  crlf : Bool
  unicode : Bool
  /-- Blanks and comments in the pattern do not count. -/
  ignoreBlanks : Bool
  deriving DecidableEq, Repr

def Flags.initial : Flags := ⟨true, false, false, false, true, false⟩

def isBlank (c : Char) : Bool := Unicode.memberOf c.toNat Unicode.blankSpans

/-- The text after blanks and comments, which run from `#` to the end of the line. -/
def dropBlanks (inComment : Bool) : List Char → List Char
  | [] => []
  | c :: rest =>
    if inComment then dropBlanks (c != '\n') rest
    else if isBlank c then dropBlanks false rest
    else if c = '#' then dropBlanks true rest
    else c :: rest

def skip (flags : Flags) (text : List Char) : List Char :=
  if flags.ignoreBlanks then dropBlanks false text else text

def readWhile (flags : Flags) (test : Char → Bool) : Nat → List Char → List Char × List Char
  | 0, text => ([], text)
  | _, [] => ([], [])
  | n + 1, c :: rest =>
    if test c then
      let (cs, rest) := readWhile flags test n (skip flags rest)
      (c :: cs, rest)
    else ([], c :: rest)

/-- What an atom stands for. A literal knows whether it was written as a byte of two digits. -/
inductive Atom where
  | literal (c : Char) (isByte : Bool)
  | set (set : CharSet)
  | look (look : Look)
  deriving DecidableEq, Repr

def foldCase (flags : Flags) (set : CharSet) : CharSet :=
  if flags.ignoreCase then
    if flags.unicode then .caseless set else .asciiCaseless set
  else set

/-- The set with case variants, or its complement. Without Unicode no set may go beyond ASCII. -/
def foldAndNegate? (flags : Flags) (negated : Bool) (set : CharSet) : Option CharSet :=
  let folded := foldCase flags set
  let set := if negated then .complement folded else folded
  if flags.unicode || set.isAscii then some set else none

def isMeta (c : Char) : Bool := "\\.+*?()|[]\x7b\x7d^$#&-~".toList.contains c

def isHexDigit (c : Char) : Bool :=
  c.isDigit || ('a' ≤ c && c ≤ 'f') || ('A' ≤ c && c ≤ 'F')

def charOfNumber? (n : Nat) : Option Char :=
  if n.isValidChar then some (Char.ofNat n) else none

def readHexDigits (flags : Flags) : Nat → List Char → Option (List Char × List Char)
  | 0, text => some ([], text)
  | _ + 1, [] => none
  | n + 1, c :: rest =>
    if isHexDigit c then
      (readHexDigits flags n (skip flags rest)).map fun (cs, rest) => (c :: cs, rest)
    else none

def readHex? (flags : Flags) (kind : Char) (text : List Char) : Option (Atom × List Char) :=
  match text with
  | '\x7b' :: rest =>
    let (digits, rest) := readWhile flags isHexDigit rest.length (skip flags rest)
    match rest with
    | '\x7d' :: rest =>
      if digits.isEmpty then none
      else (charOfNumber? (Unicode.hexNumber digits)).map fun c => (.literal c false, rest)
    | _ => none
  | _ =>
    let count := if kind = 'x' then 2 else if kind = 'u' then 4 else 8
    match readHexDigits flags count text with
    | none => none
    | some (digits, rest) =>
      (charOfNumber? (Unicode.hexNumber digits)).map fun c => (.literal c (kind = 'x'), rest)

def cutAt? (separator : List Char) : List Char → Option (List Char × List Char)
  | [] => none
  | c :: rest =>
    if separator.isPrefixOf (c :: rest) then some ([], (c :: rest).drop separator.length)
    else (cutAt? separator rest).map fun (before, after) => (c :: before, after)

def setOfName? (name : List Char) : Option (CharSet × Bool) :=
  match cutAt? ['!', '='] name with
  | some (property, value) => (CharSet.withValue? property value).map fun set => (set, true)
  | none =>
    match cutAt? [':'] name <|> cutAt? ['='] name with
    | some (property, value) => (CharSet.withValue? property value).map fun set => (set, false)
    | none => (CharSet.named? name).map fun set => (set, false)

def readNamedSet? (flags : Flags) (negated : Bool) (text : List Char) :
    Option (Atom × List Char) :=
  let found : Option ((CharSet × Bool) × List Char) :=
    match text with
    | [] => none
    | '\x7b' :: rest =>
      let (name, rest) := readWhile flags (· != '\x7d') rest.length (skip flags rest)
      match rest with
      | '\x7d' :: rest => (setOfName? name).map fun set => (set, rest)
      | _ => none
    | c :: rest =>
      if c = '\\' then none
      else (CharSet.named? [c]).map fun set => ((set, false), rest)
  match found with
  | none => none
  | some ((set, flipped), rest) =>
    if flags.unicode then
      (foldAndNegate? flags (negated != flipped) set).map fun set => (.set set, rest)
    else none

def classOfLetter? (flags : Flags) (c : Char) : Option CharSet :=
  let set : CharSet :=
    match c.toLower, flags.unicode with
    | 'd', true => CharSet.digits
    | 's', true => CharSet.blanks
    | 'w', true => CharSet.wordCharacters
    | 'd', false => (CharSet.ofAsciiClass? "digit").getD .empty
    | 's', false => (CharSet.ofAsciiClass? "space").getD .empty
    | _, _ => (CharSet.ofAsciiClass? "word").getD .empty
  if c.isUpper then if flags.unicode then some (.complement set) else none
  else some set

/-- Reads what may follow `\b` in braces. Where no name follows, the braces belong to a repetition
and nothing is read. -/
def readWordBoundary? (flags : Flags) (text : List Char) : Option (Look × List Char) :=
  let ascii := !flags.unicode
  let isNameChar := fun (c : Char) => c.isAlpha || c == '-'
  match text with
  | '\x7b' :: rest =>
    match skip flags rest with
    | [] => none
    | c :: more =>
      if isNameChar c then
        let (name, rest) := readWhile flags isNameChar (c :: more).length (c :: more)
        match rest with
        | '\x7d' :: rest =>
          match String.ofList name with
          | "start" => some (.wordStart ascii, rest)
          | "end" => some (.wordEnd ascii, rest)
          | "start-half" => some (.wordStartHalf ascii, rest)
          | "end-half" => some (.wordEndHalf ascii, rest)
          | _ => none
        | _ => none
      else some (.wordBoundary ascii, text)
  | _ => some (.wordBoundary ascii, text)

def readEscape? (flags : Flags) : List Char → Option (Atom × List Char)
  | [] => none
  | c :: rest =>
    let ascii := !flags.unicode
    if c.isDigit then none
    else if c = 'x' ∨ c = 'u' ∨ c = 'U' then readHex? flags c (skip flags rest)
    else if c = 'p' ∨ c = 'P' then readNamedSet? flags (c = 'P') (skip flags rest)
    else if "dswDSW".toList.contains c then
      (classOfLetter? flags c).map fun set => (.set set, rest)
    else
      match c with
      | 'a' => some (.literal '\x07' false, rest)
      | 'f' => some (.literal '\x0c' false, rest)
      | 't' => some (.literal '\t' false, rest)
      | 'n' => some (.literal '\n' false, rest)
      | 'r' => some (.literal '\r' false, rest)
      | 'v' => some (.literal '\x0b' false, rest)
      | 'A' => some (.look .textStart, rest)
      | 'z' => some (.look .textEnd, rest)
      | 'b' => (readWordBoundary? flags rest).map fun (l, rest) => (.look l, rest)
      | 'B' => some (.look (.noWordBoundary ascii), rest)
      | '<' => some (.look (.wordStart ascii), rest)
      | '>' => some (.look (.wordEnd ascii), rest)
      | c => if c.toNat < 128 ∧ !c.isAlphanum then some (.literal c false, rest) else none

def literalSet? (flags : Flags) (c : Char) (isByte : Bool) : Option CharSet :=
  if !flags.unicode && isByte && c.toNat > 127 then none
  else if c.toNat < 128 ∧ !c.isAlpha then some (.single c)
  else some (foldCase flags (.single c))

/-- The characters that a dot matches; without Unicode it would go beyond ASCII. -/
def dotSet? (flags : Flags) : Option CharSet :=
  if !flags.unicode then none
  else if flags.dotMatchesNewline then some .all
  else if flags.crlf then some (.complement (.ofSpans [⟨10, 10, 1⟩, ⟨13, 13, 1⟩]))
  else some (.complement (.single '\n'))

def startLook (flags : Flags) : Look :=
  if !flags.multiLine then .textStart else if flags.crlf then .crlfLineStart else .lineStart

def endLook (flags : Flags) : Look :=
  if !flags.multiLine then .textEnd else if flags.crlf then .crlfLineEnd else .lineEnd

end BuildSteps.Pattern
