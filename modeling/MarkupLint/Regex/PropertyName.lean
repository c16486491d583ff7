import MarkupLint.Regex.CharClass
import MarkupLint.Unicode.Script

/-!
# Properties by name

The classes of characters that the Unicode standard names: general categories and groups of them,
scripts, and binary properties. Names are compared loosely, as the standard recommends: case,
blanks, hyphens, underscores and a leading `is` do not count.
-/

namespace MarkupLint.Regex

open Unicode

def looseName (s : List Char) : String :=
  let strip (t : List Char) : List Char :=
    (t.filter fun c => decide (c.toNat < 128) && c != ' ' && c != '_' && c != '-').map Char.toLower
  match s with
  | i :: z :: t =>
    if i.toLower = 'i' ∧ z.toLower = 's' then
      if strip t = ['c'] then "isc" else String.ofList (strip t)
    else String.ofList (strip s)
  | _ => String.ofList (strip s)

/-- The loose form of a name of the standard. -/
def loose (name : String) : String := looseName name.toList

structure CategoryGroup where
  names : List String
  members : List Category

/-- The groups that the standard names. -/
def categoryGroups : List CategoryGroup := [
  ⟨["l", "letter"], [.upperLetter, .lowerLetter, .titleLetter, .modifierLetter, .otherLetter]⟩,
  ⟨["lc", "casedletter"], [.upperLetter, .lowerLetter, .titleLetter]⟩,
  ⟨["m", "mark", "combiningmark"], [.nonspacingMark, .spacingMark, .enclosingMark]⟩,
  ⟨["n", "number"], [.decimalNumber, .letterNumber, .otherNumber]⟩,
  ⟨["p", "punctuation", "punct"],
    [.connectorPunctuation, .dashPunctuation, .openPunctuation, .closePunctuation,
      .initialPunctuation, .finalPunctuation, .otherPunctuation]⟩,
  ⟨["s", "symbol"], [.mathSymbol, .currencySymbol, .modifierSymbol, .otherSymbol]⟩,
  ⟨["z", "separator"], [.spaceSeparator, .lineSeparator, .paragraphSeparator]⟩,
  ⟨["c", "other"], [.control, .format, .privateUse, .unassigned]⟩,
  ⟨["digit"], [.decimalNumber]⟩,
  ⟨["cntrl"], [.control]⟩]

def categories : List Category := [
  .upperLetter, .lowerLetter, .titleLetter, .modifierLetter, .otherLetter, .nonspacingMark,
  .spacingMark, .enclosingMark, .decimalNumber, .letterNumber, .otherNumber, .connectorPunctuation,
  .dashPunctuation, .openPunctuation, .closePunctuation, .initialPunctuation, .finalPunctuation,
  .otherPunctuation, .mathSymbol, .currencySymbol, .modifierSymbol, .otherSymbol, .spaceSeparator,
  .lineSeparator, .paragraphSeparator, .control, .format, .privateUse, .unassigned]

/-- The class of a general category in its loose form. -/
def categoryClass? (name : String) : Option CharClass :=
  if name = "any" then some .any
  else if name = "assigned" then some ⟨fun c => !Category.unassigned.contains c, 300⟩
  else if name = "ascii" then some (.ascii fun _ => true)
  else
    match categories.find? fun k => loose k.code == name || loose k.longName == name with
    | some k => some ⟨k.contains, 200⟩
    | none =>
      (categoryGroups.find? (·.names.contains name)).map fun g =>
        ⟨fun c => g.members.any (·.contains c), 400⟩

/-- The class of a script in its loose form. -/
def scriptClass? (name : String) : Option CharClass :=
  (scripts.find? fun s => loose s.longName == name || s.shortNames.any (loose · == name)).map
    fun s => ⟨s.chars.contains, 60⟩

/-- The class of a binary property in its loose form. -/
def binaryClass? (name : String) : Option CharClass :=
  let name := if name = "wspace" then "space" else name
  (properties.find? fun p => loose p.longName == name || loose p.shortName == name).map
    fun p => ⟨p.contains, 200⟩

def propertyClass? (name : List Char) : Option CharClass :=
  let name := looseName name
  binaryClass? name <|> categoryClass? name <|> scriptClass? name

/-- The class of the characters that have the given value of a property. -/
def propertyValueClass? (name value : List Char) : Option CharClass :=
  let value := looseName value
  match looseName name with
  | "gc" | "generalcategory" => categoryClass? value
  | "sc" | "script" => scriptClass? value
  | _ => none

end MarkupLint.Regex
