import BuildSteps.Text.Basic

/-!
# Spans of code points

Character properties are written as lists of spans in ascending order. A word `41-5a` stands for a
span, `100-12e/2` for every second code point of it, `aa` for one code point, and `41-5a>61` for a
span whose characters are mapped, in order, to those that start at the code point after the arrow.
-/

namespace BuildSteps.Unicode

/-- Every `step`-th code point from `first` to `last`. -/
structure Span where
  first : Nat
  last : Nat
  step : Nat
  deriving DecidableEq, Repr

def Span.contains (span : Span) (c : Nat) : Bool :=
  decide (span.first ≤ c) && decide (c ≤ span.last) && (c - span.first) % span.step == 0

/-- Whether a code point lies in one of the spans, which ascend. -/
def memberOf (c : Nat) : List Span → Bool
  | [] => false
  | span :: spans => decide (span.first ≤ c) && (span.contains c || memberOf c spans)

/-- A span whose code points are mapped, in order, to those from `target` on. -/
structure Shift where
  span : Span
  target : Nat
  deriving DecidableEq, Repr

def lookup (c : Nat) : List Shift → Option Nat
  | [] => none
  | shift :: shifts =>
    if c < shift.span.first then none
    else if shift.span.contains c then some (shift.target + (c - shift.span.first))
    else lookup c shifts

/-- The code point that a shift maps to `c`, if there is one. -/
def Shift.preimage (c : Nat) (shift : Shift) : List Nat :=
  if shift.target ≤ c ∧ shift.span.contains (shift.span.first + (c - shift.target)) then
    [shift.span.first + (c - shift.target)]
  else []

def hexDigitValue (c : Char) : Nat :=
  if '0' ≤ c ∧ c ≤ '9' then c.toNat - 48
  else if 'a' ≤ c ∧ c ≤ 'f' then c.toNat - 87
  else if 'A' ≤ c ∧ c ≤ 'F' then c.toNat - 55
  else 0

def hexNumber (digits : List Char) : Nat :=
  digits.foldl (fun n c => 16 * n + hexDigitValue c) 0

def Span.ofWord (word : List Char) : Span :=
  match Text.splitChars '/' word with
  | range :: steps =>
    match Text.splitChars '-' range with
    | [first, last] => ⟨hexNumber first, hexNumber last, if steps.isEmpty then 1 else 2⟩
    | _ => ⟨hexNumber range, hexNumber range, 1⟩
  | [] => ⟨0, 0, 1⟩

def wordsOf (text : String) : List (List Char) :=
  ((Text.splitChars '\n' text.toList).flatMap (Text.splitChars ' ')).filter (!·.isEmpty)

def Span.listOfText (text : String) : List Span := (wordsOf text).map Span.ofWord

def Shift.listOfText (text : String) : List Shift :=
  (wordsOf text).map fun word =>
    match Text.splitChars '>' word with
    | [span, target] => ⟨Span.ofWord span, hexNumber target⟩
    | _ => ⟨⟨1, 0, 1⟩, 0⟩

end BuildSteps.Unicode
