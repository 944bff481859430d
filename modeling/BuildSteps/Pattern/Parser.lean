import BuildSteps.Pattern.Bracket

/-!
# Reading patterns

Reads a pattern from its text. Branches are separated by bars, a branch is a sequence of items, and
an item is an atom, a set in brackets or a group, followed by any number of repetitions. Flags set
inside a group hold until its end, also for the branches that follow. A text that is no pattern, a
pattern that is nested too deeply and one that takes too much room are refused.
-/

namespace BuildSteps.Pattern

/-- A part of a sequence and the depth of its nesting. Flags are parts that cannot be repeated. -/
structure Item where
  pattern : Pattern
  depth : Nat
  isRepeatable : Bool
  deriving DecidableEq, Repr

/-- What is known while reading: the flags in force, the group names in use, the text to come. -/
structure Reading where
  flags : Flags
  names : List (List Char)
  rest : List Char
  deriving DecidableEq, Repr

/-- Sets one flag; the flag `U` only concerns which of several occurrences is preferred. -/
def Flags.set (flags : Flags) (change : Char × Bool) : Flags :=
  match change.1 with
  | 'i' => { flags with ignoreCase := change.2 }
  | 'm' => { flags with multiLine := change.2 }
  | 's' => { flags with dotMatchesNewline := change.2 }
  | 'R' => { flags with crlf := change.2 }
  | 'u' => { flags with unicode := change.2 }
  | 'x' => { flags with ignoreBlanks := change.2 }
  | _ => flags

/-- Reads flags up to the character that ends them. Each flag may come once, a minus turns the flags
after it off and must not be the last, and there is at most one minus. -/
def readFlags? (negated afterMinus : Bool) (seen : List Char) :
    List Char → Option (List (Char × Bool) × Char × List Char)
  | [] => none
  | c :: rest =>
    if c = ':' ∨ c = ')' then if afterMinus then none else some ([], c, rest)
    else if c = '-' then if negated then none else readFlags? true true seen rest
    else if "imsURux".toList.contains c && !seen.contains c then
      (readFlags? negated false (c :: seen) rest).map fun (changes, last, rest) =>
        ((c, !negated) :: changes, last, rest)
    else none

def isNameCharacter (isFirst : Bool) (c : Char) : Bool :=
  let letter := c == '_' || Unicode.memberOf c.toNat Unicode.alphabeticSpans
  if isFirst then letter
  else
    letter || c == '.' || c == '[' || c == ']' ||
      (CharSet.inCategories "n").any (Unicode.memberOf c.toNat)

def readGroupName? (text : List Char) : Option (List Char × List Char) :=
  let name := text.takeWhile (· != '>')
  match name, text.drop name.length with
  | first :: others, '>' :: rest =>
    if isNameCharacter true first && others.all (isNameCharacter false) then some (name, rest)
    else none
  | _, _ => none

inductive GroupStart where
  /-- No group, but flags for what follows. -/
  | setFlags (changes : List (Char × Bool))
  | group (changes : List (Char × Bool))
  | namedGroup (name : List Char)

def readGroupStart? (text : List Char) : Option (GroupStart × List Char) :=
  match text with
  | '?' :: '=' :: _ | '?' :: '!' :: _ | '?' :: '<' :: '=' :: _ | '?' :: '<' :: '!' :: _ => none
  | '?' :: 'P' :: '<' :: rest | '?' :: '<' :: rest =>
    (readGroupName? rest).map fun (name, rest) => (.namedGroup name, rest)
  | '?' :: rest =>
    match readFlags? false false [] rest with
    | none => none
    | some (changes, last, rest) =>
      if last = ':' then some (.group changes, rest)
      else if changes.isEmpty then none
      else some (.setFlags changes, rest)
  | _ => some (.group [], text)

def readDecimal? (flags : Flags) (text : List Char) : Option Nat × List Char :=
  let text := text.dropWhile isBlank
  let (digits, rest) := readWhile flags Char.isDigit text.length text
  let rest := rest.dropWhile isBlank
  if digits.isEmpty then (none, rest)
  else
    let n := digits.foldl (fun n c => 10 * n + (c.toNat - 48)) 0
    (if n < Nat.pow 2 32 then some n else none, rest)

def readCounts? (flags : Flags) (text : List Char) : Option (Nat × Option Nat × List Char) :=
  match readDecimal? flags (skip flags text) with
  | (none, _) => none
  | (some least, ',' :: rest) =>
    match skip flags rest with
    | '\x7d' :: rest => some (least, none, rest)
    | rest =>
      match readDecimal? flags rest with
      | (some most, '\x7d' :: rest) => if least ≤ most then some (least, some most, rest) else none
      | _ => none
  | (some least, '\x7d' :: rest) => some (least, some least, rest)
  | _ => none

def dropLazy : List Char → List Char
  | '?' :: rest => rest
  | text => text

def repeatLast? (least : Nat) (most : Option Nat) : List Item → Option (List Item)
  | [] => none
  | item :: items =>
    if item.isRepeatable then
      some (⟨.repeated least most item.pattern, 1 + item.depth, true⟩ :: items)
    else none

def sequenceOf : List Item → Item
  | [] => ⟨.empty, 0, true⟩
  | [item] => item
  | items =>
    ⟨(items.map (·.pattern)).foldr .sequence .empty, 1 + (items.map (·.depth)).foldl max 0, true⟩

def choiceOf : List Item → Item
  | [] => ⟨.empty, 0, true⟩
  | [item] => item
  | item :: items =>
    ⟨(items.map (·.pattern)).foldl .either item.pattern,
      1 + (items.map (·.depth)).foldl max item.depth, true⟩

def ofAtom? (flags : Flags) : Atom → Option Pattern
  | .literal c isByte => (literalSet? flags c isByte).map .one
  | .set set => some (.one set)
  | .look l => some (.look l)

def readAtom? (flags : Flags) : List Char → Option (Pattern × List Char)
  | [] => none
  | '\\' :: rest =>
    match readEscape? flags rest with
    | none => none
    | some (atom, rest) => (ofAtom? flags atom).map fun p => (p, rest)
  | '.' :: rest => (dotSet? flags).map fun set => (.one set, rest)
  | '^' :: rest => some (.look (startLook flags), rest)
  | '$' :: rest => some (.look (endLook flags), rest)
  | c :: rest => (literalSet? flags c false).map fun set => (.one set, rest)

mutual

/-- Reads a sequence up to a bar, a closing parenthesis or the end. `items` holds what has been read
so far, last first. -/
def readSequence? : Nat → List Item → Reading → Option (Item × Reading)
  | 0, _, _ => none
  | n + 1, items, s =>
    let goOn := fun (more : Option (List Item)) (rest : List Char) =>
      match more with
      | none => none
      | some items => readSequence? n items { s with rest }
    match skip s.flags s.rest with
    | [] => some (sequenceOf items.reverse, { s with rest := [] })
    | '(' :: rest =>
      match readGroupStart? (skip s.flags rest) with
      | none => none
      | some (.setFlags changes, rest) =>
        readSequence? n (⟨.empty, 0, false⟩ :: items)
          { s with flags := changes.foldl Flags.set s.flags, rest }
      | some (.group changes, rest) =>
        readGroup? n items s { s with flags := changes.foldl Flags.set s.flags, rest }
      | some (.namedGroup name, rest) =>
        if s.names.contains name then none
        else readGroup? n items s { s with names := name :: s.names, rest }
    | '[' :: rest =>
      match readBracket? s.flags rest with
      | none => none
      | some (nested, rest) => goOn (some (⟨.one nested.set, nested.depth, true⟩ :: items)) rest
    | '?' :: rest => goOn (repeatLast? 0 (some 1) items) (dropLazy rest)
    | '*' :: rest => goOn (repeatLast? 0 none items) (dropLazy rest)
    | '+' :: rest => goOn (repeatLast? 1 none items) (dropLazy rest)
    | '\x7b' :: rest =>
      match readCounts? s.flags rest with
      | none => none
      | some (least, most, rest) =>
        goOn (repeatLast? least most items) (dropLazy (skip s.flags rest))
    | c :: rest =>
      if c = '|' ∨ c = ')' then some (sequenceOf items.reverse, { s with rest := c :: rest })
      else
        match readAtom? s.flags (c :: rest) with
        | none => none
        | some (p, rest) => goOn (some (⟨p, 0, true⟩ :: items)) rest

/-- Reads a group and what follows it. `outer` holds the flags that are in force again after the
group, and `inner` is where its inside starts. -/
def readGroup? : Nat → List Item → Reading → Reading → Option (Item × Reading)
  | 0, _, _, _ => none
  | n + 1, items, outer, inner =>
    match readBranches? n [] inner with
    | some (whole, ⟨_, names, ')' :: rest⟩) =>
      readSequence? n (⟨whole.pattern, 1 + whole.depth, true⟩ :: items)
        ⟨outer.flags, names, rest⟩
    | _ => none

def readBranches? : Nat → List Item → Reading → Option (Item × Reading)
  | 0, _, _ => none
  | n + 1, branches, s =>
    match readSequence? n [] s with
    | none => none
    | some (branch, ⟨flags, names, '|' :: rest⟩) =>
      readBranches? n (branches ++ [branch]) ⟨flags, names, rest⟩
    | some (branch, s) => some (choiceOf (branches ++ [branch]), s)

end

def depthLimit : Nat := 250

/-- The pattern that a text writes; case does not count unless the text says so. Each step of
reading uses up a character or goes one level down, so that there are fewer than four steps for each
character. -/
def ofText (text : String) : Except Fault Pattern :=
  match readBranches? (4 * text.toList.length + 4) [] ⟨Flags.initial, [], text.toList⟩ with
  | some (whole, ⟨_, _, []⟩) =>
    if depthLimit < whole.depth then .error .malformed
    else if roomLimit < whole.pattern.room then .error .tooLarge
    else .ok whole.pattern
  | _ => .error .malformed

/-- The text of a pattern that matches exactly a given text. -/
def escape (text : String) : String :=
  String.ofList (text.toList.flatMap fun c => if isMeta c then ['\\', c] else [c])

end BuildSteps.Pattern
