import BuildSteps.Toml.Tree
import BuildSteps.Unicode.Spans

/-!
# Numbers, dates and times in TOML documents

These are written without blanks, except that one may stand between a date and a time. Their texts
are read as a whole: what is no number, date or time from its first to its last character is refused.
-/

namespace BuildSteps.Toml

/-- The digits of a text in which single underscores may stand between digits. -/
def digitsOf? (isDigit : Char → Bool) : List Char → Option (List Char)
  | [] => none
  | [c] => if isDigit c then some [c] else none
  | c :: '_' :: rest => if isDigit c then (digitsOf? isDigit rest).map (c :: ·) else none
  | c :: rest => if isDigit c then (digitsOf? isDigit rest).map (c :: ·) else none

def numberOf (base : Nat) (digits : List Char) : Nat :=
  digits.foldl (fun n c => base * n + Unicode.hexDigitValue c) 0

def signOf : List Char → Bool × List Char
  | '-' :: rest => (true, rest)
  | '+' :: rest => (false, rest)
  | text => (false, text)

def wholeOf? (text : List Char) : Option Nat :=
  match digitsOf? Char.isDigit text with
  | some ['0'] => some 0
  | some ('0' :: _) => none
  | some digits => some (numberOf 10 digits)
  | none => none

def integerOf? (n : Int) : Option Value :=
  if -(Int.pow 2 63) ≤ n ∧ n < Int.pow 2 63 then some (.integer n) else none

def readInteger? (text : List Char) : Option Value :=
  match text with
  | '0' :: 'x' :: rest =>
    (digitsOf? (fun c => c.isDigit || ('a' ≤ c && c ≤ 'f') || ('A' ≤ c && c ≤ 'F')) rest).bind
      fun digits => integerOf? (numberOf 16 digits)
  | '0' :: 'o' :: rest =>
    (digitsOf? (fun c => '0' ≤ c && c ≤ '7') rest).bind fun digits =>
      integerOf? (numberOf 8 digits)
  | '0' :: 'b' :: rest =>
    (digitsOf? (fun c => c == '0' || c == '1') rest).bind fun digits =>
      integerOf? (numberOf 2 digits)
  | _ =>
    let (negative, rest) := signOf text
    (wholeOf? rest).bind fun n => integerOf? (if negative then -(Int.ofNat n) else Int.ofNat n)

def readExponent? (text : List Char) : Option Int :=
  match text with
  | [] => some 0
  | c :: rest =>
    if c = 'e' ∨ c = 'E' then
      let (negative, rest) := signOf rest
      (digitsOf? Char.isDigit rest).map fun digits =>
        if negative then -(Int.ofNat (numberOf 10 digits)) else Int.ofNat (numberOf 10 digits)
    else none

/-- Reads a number with a fraction or an exponent, an infinity or what is no number. A positive
number beyond the largest one is refused. -/
def readFloat? (text : List Char) : Option Value :=
  let (negative, rest) := signOf text
  match rest with
  | ['i', 'n', 'f'] => some (.float (.infinite negative))
  | ['n', 'a', 'n'] => some (.float .nan)
  | _ =>
    let isMark := fun (c : Char) => c == '.' || c == 'e' || c == 'E'
    let whole := rest.takeWhile (!isMark ·)
    let parts : Option (List Char × List Char) :=
      match rest.drop whole.length with
      | '.' :: more =>
        let fraction := more.takeWhile (!isMark ·)
        (digitsOf? Char.isDigit fraction).map fun digits => (digits, more.drop fraction.length)
      | [] => none
      | more => some ([], more)
    match wholeOf? whole, parts with
    | some n, some (fraction, more) =>
      match readExponent? more with
      | none => none
      | some exponent =>
        let digits := n * Nat.pow 10 fraction.length + numberOf 10 fraction
        match Decimal.Binary64.ofDecimal negative digits (exponent - Int.ofNat fraction.length) with
        | .infinite false => none
        | x => some (.float x)
    | _, _ => none

def fixedDigits? (count : Nat) (text : List Char) : Option (Nat × List Char) :=
  let digits := text.take count
  if digits.length = count ∧ digits.all Char.isDigit then
    some (numberOf 10 digits, text.drop count)
  else none

def daysIn (year month : Nat) : Nat :=
  if month = 2 then
    if year % 4 = 0 ∧ (year % 100 ≠ 0 ∨ year % 400 = 0) then 29 else 28
  else if month = 4 ∨ month = 6 ∨ month = 9 ∨ month = 11 then 30
  else 31

def afterDate? (text : List Char) : Option (List Char) :=
  match fixedDigits? 4 text with
  | some (year, '-' :: rest) =>
    match fixedDigits? 2 rest with
    | some (month, '-' :: rest) =>
      match fixedDigits? 2 rest with
      | some (day, rest) =>
        if 1 ≤ month ∧ month ≤ 12 ∧ 1 ≤ day ∧ day ≤ daysIn year month then some rest else none
      | none => none
    | _ => none
  | _ => none

def afterMinutes? (text : List Char) : Option (List Char) :=
  match fixedDigits? 2 text with
  | some (hour, ':' :: rest) =>
    match fixedDigits? 2 rest with
    | some (minute, rest) => if hour ≤ 23 ∧ minute ≤ 59 then some rest else none
    | none => none
  | _ => none

def afterTime? (text : List Char) : Option (List Char) :=
  match afterMinutes? text with
  | some (':' :: rest) =>
    match fixedDigits? 2 rest with
    | some (second, rest) =>
      if second ≤ 60 then
        match rest with
        | '.' :: more =>
          let after := more.dropWhile Char.isDigit
          if after.length = more.length then none else some after
        | rest => some rest
      else none
    | none => none
  | _ => none

/-- Whether a text is empty or tells how far a time is from the world's. -/
def isOffset (text : List Char) : Bool :=
  match text with
  | [] => true
  | [c] => c == 'Z' || c == 'z'
  | c :: rest => (c == '+' || c == '-') && afterMinutes? rest == some []

/-- Whether a text is a date, a time, or both with one of three separators. -/
def isDateTime (text : List Char) : Bool :=
  match afterDate? text with
  | some [] => true
  | some (c :: rest) =>
    (c == 'T' || c == 't' || c == ' ') && (afterTime? rest).any isOffset
  | none => afterTime? text == some []

def isNumberCharacter (c : Char) : Bool :=
  c.isAlphanum || c == '+' || c == '-' || c == '_' || c == '.' || c == ':'

/-- Reads a number, a date or a time. A blank after a date goes on with a time if a digit follows. -/
def readNumber? (text : List Char) : Option (Value × List Char) :=
  let token := text.takeWhile isNumberCharacter
  let rest := text.drop token.length
  let (token, rest) :=
    match afterDate? token, rest with
    | some [], ' ' :: c :: more =>
      if c.isDigit then
        let time := (c :: more).takeWhile isNumberCharacter
        (token ++ ' ' :: time, (c :: more).drop time.length)
      else (token, rest)
    | _, _ => (token, rest)
  let value :=
    if isDateTime token then some (.dateTime (String.ofList token))
    else readFloat? token <|> readInteger? token
  value.map fun v => (v, rest)

end BuildSteps.Toml
