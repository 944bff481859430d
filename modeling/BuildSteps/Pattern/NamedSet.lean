import BuildSteps.Pattern.CharSet
import BuildSteps.Unicode.Category
import BuildSteps.Unicode.Property
import BuildSteps.Unicode.Script

/-!
# Character sets with names

The sets that patterns call by name: general categories, scripts and properties, under their long
and short names, and the named classes of ASCII. In the former, case, blanks, hyphens, underscores
and a leading `is` do not count.
-/

namespace BuildSteps.CharSet

open Unicode

def categories : List (List String × List (List Span)) := [
  (["cc", "control", "cntrl"], [controlSpans]),
  (["cf", "format"], [formatSpans]),
  (["co", "privateuse"], [privateUseSpans]),
  (["cs", "surrogate"], [surrogateSpans]),
  (["ll", "lowercaseletter"], [lowercaseLetterSpans]),
  (["lm", "modifierletter"], [modifierLetterSpans]),
  (["lo", "otherletter"], [otherLetterSpans]),
  (["lt", "titlecaseletter"], [titlecaseLetterSpans]),
  (["lu", "uppercaseletter"], [uppercaseLetterSpans]),
  (["mc", "spacingmark"], [spacingMarkSpans]),
  (["me", "enclosingmark"], [enclosingMarkSpans]),
  (["mn", "nonspacingmark"], [nonspacingMarkSpans]),
  (["nd", "decimalnumber", "digit"], [decimalNumberSpans]),
  (["nl", "letternumber"], [letterNumberSpans]),
  (["no", "othernumber"], [otherNumberSpans]),
  (["pc", "connectorpunctuation"], [connectorPunctuationSpans]),
  (["pd", "dashpunctuation"], [dashPunctuationSpans]),
  (["pe", "closepunctuation"], [closePunctuationSpans]),
  (["pf", "finalpunctuation"], [finalPunctuationSpans]),
  (["pi", "initialpunctuation"], [initialPunctuationSpans]),
  (["po", "otherpunctuation"], [otherPunctuationSpans]),
  (["ps", "openpunctuation"], [openPunctuationSpans]),
  (["sc", "currencysymbol"], [currencySymbolSpans]),
  (["sk", "modifiersymbol"], [modifierSymbolSpans]),
  (["sm", "mathsymbol"], [mathSymbolSpans]),
  (["so", "othersymbol"], [otherSymbolSpans]),
  (["zl", "lineseparator"], [lineSeparatorSpans]),
  (["zp", "paragraphseparator"], [paragraphSeparatorSpans]),
  (["zs", "spaceseparator"], [spaceSeparatorSpans]),
  (["lc", "casedletter"], [lowercaseLetterSpans, titlecaseLetterSpans, uppercaseLetterSpans]),
  (["l", "letter"], [lowercaseLetterSpans, modifierLetterSpans, otherLetterSpans,
    titlecaseLetterSpans, uppercaseLetterSpans]),
  (["m", "mark", "combiningmark"], [spacingMarkSpans, enclosingMarkSpans, nonspacingMarkSpans]),
  (["n", "number"], [decimalNumberSpans, letterNumberSpans, otherNumberSpans]),
  (["p", "punctuation", "punct"], [connectorPunctuationSpans, dashPunctuationSpans,
    closePunctuationSpans, finalPunctuationSpans, initialPunctuationSpans,
    otherPunctuationSpans, openPunctuationSpans]),
  (["s", "symbol"], [currencySymbolSpans, modifierSymbolSpans, mathSymbolSpans,
    otherSymbolSpans]),
  (["z", "separator"], [lineSeparatorSpans, paragraphSeparatorSpans, spaceSeparatorSpans])]

def ofSpanLists (lists : List (List Span)) : CharSet := unionAll (lists.map ofSpans)

def inCategories (name : String) : List (List Span) :=
  ((categories.find? fun entry => entry.1.contains name).map (·.2)).getD []

def assigned : CharSet :=
  ofSpanLists (["l", "m", "n", "p", "s", "z", "cc", "cf", "co", "cs"].flatMap inCategories)

def ofCategory? (name : String) : Option CharSet :=
  match name with
  | "any" => some all
  | "assigned" => some assigned
  | "ascii" => some (ofSpans [⟨0, 127, 1⟩])
  | "cn" | "unassigned" => some (complement assigned)
  | "c" | "other" =>
    some (union (complement assigned)
      (ofSpanLists (["cc", "cf", "co", "cs"].flatMap inCategories)))
  | _ => (categories.find? fun entry => entry.1.contains name).map fun entry =>
      ofSpanLists entry.2

def ofScript? (name : String) : Option CharSet := (scriptSpans? name).map ofSpans

def properties : List (List String × List Span) := [
  (["alphabetic", "alpha"], alphabeticSpans),
  (["lowercase", "lower"], lowercaseSpans),
  (["uppercase", "upper"], uppercaseSpans),
  (["whitespace", "space", "wspace"], blankSpans),
  (["cased"], casedSpans),
  (["caseignorable", "ci"], caseIgnorableSpans),
  (["graphemeextend", "grext"], graphemeExtendSpans),
  (["emoji"], emojiSpans),
  (["math"], mathSpans),
  (["ideographic", "ideo"], ideographicSpans),
  (["dash"], dashSpans),
  (["quotationmark", "qmark"], quotationMarkSpans),
  (["defaultignorablecodepoint", "di"], defaultIgnorableSpans),
  (["idstart", "ids", "xidstart", "xids"], identifierStartSpans),
  (["idcontinue", "idc", "xidcontinue", "xidc"], identifierContinueSpans),
  (["joincontrol", "joinc"], [⟨0x200c, 0x200d, 1⟩]),
  (["patternwhitespace", "patws"],
    [⟨9, 13, 1⟩, ⟨32, 32, 1⟩, ⟨0x85, 0x85, 1⟩, ⟨0x200e, 0x200f, 1⟩, ⟨0x2028, 0x2029, 1⟩]),
  (["asciihexdigit", "ahex"], [⟨48, 57, 1⟩, ⟨65, 70, 1⟩, ⟨97, 102, 1⟩]),
  (["hexdigit", "hex"],
    [⟨48, 57, 1⟩, ⟨65, 70, 1⟩, ⟨97, 102, 1⟩, ⟨0xff10, 0xff19, 1⟩, ⟨0xff21, 0xff26, 1⟩,
      ⟨0xff41, 0xff46, 1⟩])]

def ofProperty? (name : String) : Option CharSet :=
  (properties.find? fun entry => entry.1.contains name).map fun entry => ofSpans entry.2

def normalizeName (name : List Char) : String :=
  let plain := fun (cs : List Char) =>
    (cs.filter fun c => c.toNat < 128 && c != ' ' && c != '_' && c != '-').map Char.toLower
  match name with
  | 'i' :: 's' :: rest | 'I' :: 'S' :: rest | 'i' :: 'S' :: rest | 'I' :: 's' :: rest =>
    if plain rest = ['c'] then "isc" else String.ofList (plain rest)
  | _ => String.ofList (plain name)

/-- The set with a name: a property, a category or a script, in this order. -/
def named? (name : List Char) : Option CharSet :=
  let name := normalizeName name
  let property := if ["cf", "sc", "lc"].contains name then none else ofProperty? name
  property <|> ofCategory? name <|> ofScript? name

def withValue? (property value : List Char) : Option CharSet :=
  let value := normalizeName value
  match normalizeName property with
  | "gc" | "generalcategory" => ofCategory? value
  | "sc" | "script" | "scx" | "scriptextensions" => ofScript? value
  | _ => none

def digits : CharSet := ofSpans decimalNumberSpans

def blanks : CharSet := ofSpans blankSpans

def wordCharacters : CharSet :=
  ofSpanLists [alphabeticSpans, spacingMarkSpans, enclosingMarkSpans, nonspacingMarkSpans,
    decimalNumberSpans, connectorPunctuationSpans, [⟨0x200c, 0x200d, 1⟩]]

def ofAsciiClass? (name : String) : Option CharSet :=
  match name with
  | "alnum" => some (ofSpans [⟨48, 57, 1⟩, ⟨65, 90, 1⟩, ⟨97, 122, 1⟩])
  | "alpha" => some (ofSpans [⟨65, 90, 1⟩, ⟨97, 122, 1⟩])
  | "ascii" => some (ofSpans [⟨0, 127, 1⟩])
  | "blank" => some (ofSpans [⟨9, 9, 1⟩, ⟨32, 32, 1⟩])
  | "cntrl" => some (ofSpans [⟨0, 31, 1⟩, ⟨127, 127, 1⟩])
  | "digit" => some (ofSpans [⟨48, 57, 1⟩])
  | "graph" => some (ofSpans [⟨33, 126, 1⟩])
  | "lower" => some (ofSpans [⟨97, 122, 1⟩])
  | "print" => some (ofSpans [⟨32, 126, 1⟩])
  | "punct" => some (ofSpans [⟨33, 47, 1⟩, ⟨58, 64, 1⟩, ⟨91, 96, 1⟩, ⟨123, 126, 1⟩])
  | "space" => some (ofSpans [⟨9, 13, 1⟩, ⟨32, 32, 1⟩])
  | "upper" => some (ofSpans [⟨65, 90, 1⟩])
  | "word" => some (ofSpans [⟨48, 57, 1⟩, ⟨65, 90, 1⟩, ⟨95, 95, 1⟩, ⟨97, 122, 1⟩])
  | "xdigit" => some (ofSpans [⟨48, 57, 1⟩, ⟨65, 70, 1⟩, ⟨97, 102, 1⟩])
  | _ => none

end BuildSteps.CharSet
