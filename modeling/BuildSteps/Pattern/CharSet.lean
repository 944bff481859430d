import BuildSteps.Unicode.Case

/-!
# Sets of characters

Sets are kept as they were written, as operations on spans; membership is computed from the parts.
-/

namespace BuildSteps

open Unicode in
inductive CharSet where
  | ofSpans (spans : List Span)
  /-- All case variants of the members. -/
  | caseless (set : CharSet)
  /-- All case variants of the members, where only the letters of ASCII have case. -/
  | asciiCaseless (set : CharSet)
  | complement (set : CharSet)
  | union (left right : CharSet)
  | intersection (left right : CharSet)
  | difference (left right : CharSet)
  | symmetricDifference (left right : CharSet)
  deriving DecidableEq, Repr

namespace CharSet

def swapAsciiCase (c : Nat) : Nat :=
  if 65 ≤ c ∧ c ≤ 90 then c + 32 else if 97 ≤ c ∧ c ≤ 122 then c - 32 else c

def contains : CharSet → Nat → Bool
  | ofSpans spans, c => Unicode.memberOf c spans
  | caseless set, c => set.contains c || (Unicode.variants c).any set.contains
  | asciiCaseless set, c => set.contains c || set.contains (swapAsciiCase c)
  | complement set, c => !set.contains c
  | union left right, c => left.contains c || right.contains c
  | intersection left right, c => left.contains c && right.contains c
  | difference left right, c => left.contains c && !right.contains c
  | symmetricDifference left right, c => left.contains c != right.contains c

def empty : CharSet := ofSpans []

def single (c : Char) : CharSet := ofSpans [⟨c.toNat, c.toNat, 1⟩]

def range (first last : Char) : CharSet := ofSpans [⟨first.toNat, last.toNat, 1⟩]

def all : CharSet := ofSpans [⟨0, 0x10ffff, 1⟩]

def unionAll (sets : List CharSet) : CharSet :=
  match sets with
  | [] => empty
  | set :: rest => rest.foldl union set

/-- Whether no byte beyond ASCII is in the set. -/
def isAscii (set : CharSet) : Bool :=
  (List.range 128).all fun k => !set.contains (128 + k)

def hasAsciiLetter (span : Unicode.Span) : Bool :=
  (decide (span.first ≤ 90) && decide (65 ≤ span.last)) ||
    (decide (span.first ≤ 122) && decide (97 ≤ span.last))

def letterSpanCount : CharSet → Nat
  | ofSpans spans => (spans.filter hasAsciiLetter).length
  | caseless set => set.letterSpanCount
  | asciiCaseless set => set.letterSpanCount
  | complement set => set.letterSpanCount
  | union left right => left.letterSpanCount + right.letterSpanCount
  | intersection left right => left.letterSpanCount + right.letterSpanCount
  | difference left right => left.letterSpanCount + right.letterSpanCount
  | symmetricDifference left right => left.letterSpanCount + right.letterSpanCount

def spanCount : CharSet → Nat
  | ofSpans spans => spans.length
  | caseless set => set.spanCount + set.letterSpanCount
  | asciiCaseless set => set.spanCount + set.letterSpanCount
  | complement set => set.spanCount + 1
  | union left right => left.spanCount + right.spanCount
  | intersection left right => left.spanCount + right.spanCount
  | difference left right => left.spanCount + right.spanCount
  | symmetricDifference left right => left.spanCount + right.spanCount

/-- Whether a set, by the way it is written, holds characters of ASCII alone. The letters `k` and
`s` have case variants beyond ASCII. -/
def withinAscii : CharSet → Bool
  | ofSpans spans => spans.all fun span => decide (span.last < 128)
  | caseless set => set.withinAscii && !([75, 83, 107, 115].any set.contains)
  | asciiCaseless set => set.withinAscii
  | complement _ => false
  | union left right => left.withinAscii && right.withinAscii
  | intersection left right => left.withinAscii || right.withinAscii
  | difference left _ => left.withinAscii
  | symmetricDifference left right => left.withinAscii && right.withinAscii

/-- An estimate of the room that a set takes. Beyond ASCII a span is cut where the bytes of encoded
characters call for it, a set that goes up to the last character into pieces of every length. -/
def room (set : CharSet) : Nat :=
  if set.withinAscii then
    if set.spanCount ≤ 1 then 32 else 32 + 8 * set.spanCount
  else 64 + 62 * set.spanCount + (if set.contains 0x10ffff then 800 else 0)

end CharSet

end BuildSteps
