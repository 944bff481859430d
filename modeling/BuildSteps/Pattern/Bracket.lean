import BuildSteps.Pattern.Atom

/-!
# Bracketed sets

Sets of characters in square brackets: characters, ranges, named classes and nested brackets side by
side form a union; `&&`, `--` and `~~` combine what stands on their two sides, from left to right.
Each part comes with the depth to which it is nested.
-/

namespace BuildSteps.Pattern

structure Nested where
  set : CharSet
  depth : Nat
  deriving DecidableEq, Repr

inductive SetOperation where
  | intersection | difference | symmetricDifference
  deriving DecidableEq, Repr

def unionOfParts (parts : List Nested) : Nested :=
  match parts with
  | [] => ⟨.empty, 0⟩
  | [part] => part
  | parts => ⟨.unionAll (parts.map (·.set)), 1 + (parts.map (·.depth)).foldl max 0⟩

def combineSets (flags : Flags) (left : Option (SetOperation × Nested)) (right : Nested) :
    Nested :=
  match left with
  | none => right
  | some (operation, left) =>
    let l := foldCase flags left.set
    let r := foldCase flags right.set
    let set : CharSet :=
      match operation with
      | .intersection => .intersection l r
      | .difference => .difference l r
      | .symmetricDifference => .symmetricDifference l r
    ⟨set, 1 + max left.depth right.depth⟩

/-- Reads a class of ASCII such as `[:alpha:]`: its set and whether it is negated. -/
def readAsciiClass? (text : List Char) : Option (CharSet × Bool × List Char) :=
  match text with
  | '[' :: ':' :: rest =>
    let (negated, rest) :=
      match rest with
      | '^' :: rest => (true, rest)
      | rest => (false, rest)
    let name := rest.takeWhile (· != ':')
    match rest.drop name.length with
    | ':' :: ']' :: rest =>
      (CharSet.ofAsciiClass? (String.ofList name)).map fun set => (set, negated, rest)
    | _ => none
  | _ => none

def readBracketAtom? (flags : Flags) : List Char → Option (Atom × List Char)
  | [] => none
  | '\\' :: rest => readEscape? flags rest
  | c :: rest => some (.literal c false, rest)

def bracketLiteral? (flags : Flags) : Atom → Option Char
  | .literal c _ => if flags.unicode ∨ c.toNat < 128 then some c else none
  | _ => none

def bracketSet? (flags : Flags) : Atom → Option CharSet
  | .set set => some set
  | atom => (bracketLiteral? flags atom).map .single

/-- The next character that counts after the first one of a text, looking past the start of a
comment. -/
def peekPast (flags : Flags) (text : List Char) : Option Char :=
  let rest := text.drop 1
  if !flags.ignoreBlanks then rest.head?
  else
    match rest.dropWhile isBlank with
    | '#' :: rest => (rest.dropWhile isBlank).head?
    | rest => rest.head?

def readBracketPart? (flags : Flags) (text : List Char) : Option (Nested × List Char) :=
  match readBracketAtom? flags text with
  | none => none
  | some (first, rest) =>
    match skip flags rest with
    | [] => none
    | c :: more =>
      let next := peekPast flags (c :: more)
      if c != '-' || next == some ']' || next == some '-' then
        (bracketSet? flags first).map fun set => (⟨set, 0⟩, c :: more)
      else
        match readBracketAtom? flags (skip flags more) with
        | none => none
        | some (last, rest) =>
          match bracketLiteral? flags first, bracketLiteral? flags last with
          | some a, some b => if a ≤ b then some (⟨.range a b, 0⟩, rest) else none
          | _, _ => none

def readHyphens (flags : Flags) : Nat → List Char → List Nested × List Char
  | n + 1, '-' :: rest =>
    let (parts, rest) := readHyphens flags n (skip flags rest)
    (⟨.single '-', 0⟩ :: parts, rest)
  | _, text => ([], text)

/-- What the start of brackets holds: whether the set is negated, and the hyphens or the closing
bracket that stand for themselves. -/
def readBracketStart (flags : Flags) (text : List Char) : Bool × List Nested × List Char :=
  let (negated, text) :=
    match skip flags text with
    | '^' :: rest => (true, skip flags rest)
    | text => (false, text)
  match readHyphens flags text.length text with
  | ([], ']' :: rest) => (negated, [⟨.single ']', 0⟩], skip flags rest)
  | (parts, rest) => (negated, parts, rest)

/-- Reads the inside of brackets up to the closing one. `left` is what stands before the last
operation, and `parts` what stands after it so far. -/
def readBracketRest? (flags : Flags) :
    Nat → Bool → Option (SetOperation × Nested) → List Nested → List Char →
      Option (Nested × List Char)
  | 0, _, _, _, _ => none
  | n + 1, negated, left, parts, text =>
    match skip flags text with
    | [] => none
    | ']' :: rest =>
      let whole := combineSets flags left (unionOfParts parts)
      (foldAndNegate? flags negated whole.set).map fun set => (⟨set, 1 + whole.depth⟩, rest)
    | '&' :: '&' :: rest =>
      readBracketRest? flags n negated
        (some (.intersection, combineSets flags left (unionOfParts parts))) [] rest
    | '-' :: '-' :: rest =>
      readBracketRest? flags n negated
        (some (.difference, combineSets flags left (unionOfParts parts))) [] rest
    | '~' :: '~' :: rest =>
      readBracketRest? flags n negated
        (some (.symmetricDifference, combineSets flags left (unionOfParts parts))) [] rest
    | '[' :: rest =>
      match readAsciiClass? ('[' :: rest) with
      | some (set, isNegated, rest) =>
        match foldAndNegate? flags isNegated set with
        | none => none
        | some set => readBracketRest? flags n negated left (parts ++ [⟨set, 0⟩]) rest
      | none =>
        let (innerNegated, innerParts, rest) := readBracketStart flags rest
        match readBracketRest? flags n innerNegated none innerParts rest with
        | none => none
        | some (inner, rest) => readBracketRest? flags n negated left (parts ++ [inner]) rest
    | c :: rest =>
      match readBracketPart? flags (c :: rest) with
      | none => none
      | some (part, rest) => readBracketRest? flags n negated left (parts ++ [part]) rest

def readBracket? (flags : Flags) (text : List Char) : Option (Nested × List Char) :=
  let (negated, parts, rest) := readBracketStart flags text
  readBracketRest? flags (text.length + 1) negated none parts rest

end BuildSteps.Pattern
