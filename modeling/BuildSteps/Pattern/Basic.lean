import BuildSteps.Pattern.NamedSet

/-!
# Patterns

Regular expressions on text. `Pattern.reach` moves a set of positions in a text over a pattern: from
each position to all positions where an occurrence that starts there can end. A pattern occurs in a
text when something is reached from some position.
-/

namespace BuildSteps

inductive Look where
  | textStart | textEnd
  | lineStart | lineEnd
  /-- Starts and ends of lines that may end in a carriage return and a line feed. -/
  | crlfLineStart | crlfLineEnd
  | wordBoundary (ascii : Bool)
  | noWordBoundary (ascii : Bool)
  | wordStart (ascii : Bool)
  | wordEnd (ascii : Bool)
  | wordStartHalf (ascii : Bool)
  | wordEndHalf (ascii : Bool)
  deriving DecidableEq, Repr

inductive Pattern where
  | empty
  | one (set : CharSet)
  | look (look : Look)
  | sequence (first second : Pattern)
  | either (left right : Pattern)
  /-- At least `least` and, if it is given, at most `most` times the body. -/
  | repeated (least : Nat) (most : Option Nat) (body : Pattern)
  deriving DecidableEq, Repr

/-- The characters on the two sides of a position. -/
structure Surroundings where
  before : Option Char
  after : Option Char
  deriving DecidableEq, Repr

/-- The surroundings of each position of a text, that after its end included. -/
def Surroundings.ofText (before : Option Char) : List Char → List Surroundings
  | [] => [⟨before, none⟩]
  | c :: rest => ⟨before, some c⟩ :: ofText (some c) rest

namespace Look

def isWord (ascii : Bool) (c : Option Char) : Bool :=
  c.any fun c =>
    if c.toNat < 128 then c.isAlphanum || c == '_'
    else !ascii && CharSet.wordCharacters.contains c.toNat

def holds (look : Look) (s : Surroundings) : Bool :=
  match look with
  | textStart => s.before.isNone
  | textEnd => s.after.isNone
  | lineStart => s.before.isNone || s.before == some '\n'
  | lineEnd => s.after.isNone || s.after == some '\n'
  | crlfLineStart =>
    s.before.isNone || s.before == some '\n' ||
      (s.before == some '\r' && s.after != some '\n')
  | crlfLineEnd =>
    s.after.isNone || s.after == some '\r' || (s.after == some '\n' && s.before != some '\r')
  | wordBoundary ascii => isWord ascii s.before != isWord ascii s.after
  | noWordBoundary ascii => isWord ascii s.before == isWord ascii s.after
  | wordStart ascii => !isWord ascii s.before && isWord ascii s.after
  | wordEnd ascii => isWord ascii s.before && !isWord ascii s.after
  | wordStartHalf ascii => !isWord ascii s.before
  | wordEndHalf ascii => !isWord ascii s.after

end Look

namespace Pattern

def iterate {α : Type} (f : α → α) : Nat → α → α
  | 0, a => a
  | n + 1, a => iterate f n (f a)

def join (left right : List Bool) : List Bool := List.zipWith (· || ·) left right

def spread (f : List Bool → List Bool) : Nat → List Bool → List Bool
  | 0, reached => reached
  | n + 1, reached =>
    let next := join reached (f reached)
    if next = reached then reached else spread f n next

def stepOver (set : CharSet) (text : List Surroundings) (positions : List Bool) : List Bool :=
  false :: (List.zipWith (fun (here : Bool) s =>
    here && s.after.any fun c => set.contains c.toNat) positions text).dropLast

/-- The positions where occurrences of a pattern that start at one of the given positions end. A
repetition that goes on for as many rounds as there are positions has reached all it can reach. -/
def reach (text : List Surroundings) : Pattern → List Bool → List Bool
  | empty, positions => positions
  | one set, positions => stepOver set text positions
  | look l, positions => List.zipWith (fun here s => here && l.holds s) positions text
  | sequence first second, positions => second.reach text (first.reach text positions)
  | either left right, positions => join (left.reach text positions) (right.reach text positions)
  | repeated least most body, positions =>
    let start := iterate (body.reach text) (min least (text.length + 1)) positions
    let rounds :=
      match most with
      | none => text.length
      | some most => min (most - least) text.length
    spread (body.reach text) rounds start

def occursIn (p : Pattern) (text : String) : Bool :=
  let text := Surroundings.ofText none text.toList
  (p.reach text (text.map fun _ => true)).any id

/-- An estimate of the room that a pattern takes once repetitions are written out. -/
def room : Pattern → Nat
  | empty => 32
  | one set => set.room
  | look _ => 32
  | sequence first second => first.room + second.room
  | either left right => left.room + right.room + 40
  | repeated least most body =>
    match most with
    | none => max least 1 * body.room + 40
    | some most => most * body.room + (most - least) * 40 + 32

def roomLimit : Nat := 10485760

inductive Fault where
  | malformed | tooLarge
  deriving DecidableEq, Repr

def Fault.message : Fault → String
  | malformed => "regex parse error"
  | tooLarge => "Compiled regex exceeds size limit of " ++ toString roomLimit ++ " bytes."

end Pattern

end BuildSteps
