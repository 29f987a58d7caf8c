import MarkedRegions.Marker

/-!
# Settings documents

Settings are kept in documents of several formats. What the library asks of a document is the same
for all of them: a table, in which the name of a setting stands for a text. A document is read into
a tree that keeps this much and forgets the rest.

## Main definitions

* `Setting`: what a document holds at some place
* `Reader`: how a format is read, from the front of a text
* `MarkerStyle.ofSetting?`: the marker style that a document describes
-/

namespace MarkedRegions

/-- **What a document holds at some place.** -/
inductive Setting
  -- Nothing is written where something could stand.
  | blank
  | text (chars : List Char)
  -- Something of another kind, which is never asked for.
  | other
  | list (items : List Setting)
  -- A table, in the order of the document. A key that is not a text is given as none.
  | table (members : List (Option (List Char) × Setting))
deriving Repr

/-- **How something is read** from the front of a text: what it is, and the text after it. -/
abbrev Reader (α : Type) := List Char → Option (α × List Char)

namespace MarkerStyle

/-- The name of the setting that holds the lead. -/
def leadKey : List Char := "prefix".toList

def ofLead (lead : List Char) : MarkerStyle :=
  ⟨.ofString (String.ofList lead)⟩

/-- The style that a value for the lead gives. -/
def ofLeadSetting? : Setting → Option MarkerStyle
  | .text lead => some (ofLead lead)
  | .blank => some (ofLead [])
  | _ => none

/-- **The style that a table describes**: every key is a text, the lead is given at most once, and
it is a text. Other settings are passed over, and a lead that is not given is the standard one. -/
def ofTable? (members : List (Option (List Char) × Setting)) : Option MarkerStyle :=
  if members.any (·.1.isNone) then
    none
  else
    match members.filter (·.1 = some leadKey) with
    | [] => some .standard
    | [(_, value)] => ofLeadSetting? value
    | _ => none

/-- **The style that a document describes.** A document in which nothing is written describes the
standard style. -/
def ofSetting? : Setting → Option MarkerStyle
  | .table members => ofTable? members
  | .blank => some .standard
  | _ => none

/-- The style that a list describes: its only item is the lead. -/
def ofList? : List Setting → Option MarkerStyle
  | [] => some .standard
  | [value] => ofLeadSetting? value
  | _ => none

end MarkerStyle

end MarkedRegions
