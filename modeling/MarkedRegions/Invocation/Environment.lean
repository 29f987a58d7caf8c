import MarkedRegions.Journal.Filter
import MarkedRegions.Text.Utf8

/-!
# The environment of a run

What the surroundings of a run say about it: a lead for marker lines, a selection of reports, and
whether messages are coloured. A variable that is not text counts as not set where it selects
reports or colours.

## Main definitions

* `Environment`: the variables
* `Environment.filter?`: the reports that are shown
* `Environment.colours`: whether messages are coloured
-/

namespace MarkedRegions

/-- **The environment of a run.** -/
structure Environment where
  lead : Option Bytes
  -- Which reports are shown.
  reports : Option Bytes
  -- Asks for coloured messages everywhere, unless it is a zero.
  forceColour : Option Bytes
  -- Asks for plain messages, whatever it is.
  noColour : Option Bytes
  -- Allows coloured messages on a terminal, unless it is a zero.
  colour : Option Bytes
  -- Whether messages go to a terminal.
  terminal : Bool
deriving DecidableEq, Repr

namespace Environment

def silent : Environment := ⟨none, none, none, none, none, false⟩

/-- **The reports that are shown**: those the environment selects; where it selects none in a form
that can be read, a verbose run shows all down to details, and any other run shows nothing. -/
def filter? (environment : Environment) (verbose : Bool) : Option Filter :=
  match (environment.reports.bind Utf8.chars?).bind Filter.parse? with
  | some filter => some filter
  | none => if verbose then some (.ofLevel .debug) else none

/-- What a switch of the environment says, if it is text: anything but a zero turns it on. -/
def turned (value : Option Bytes) : Option Bool :=
  (value.bind Utf8.chars?).map (· ≠ ['0'])

/-- **Whether messages are coloured.** To force colours goes before to forbid them. -/
def colours (environment : Environment) : Bool :=
  if turned environment.forceColour = some true then true
  else if (turned environment.noColour).isSome then false
  else (turned environment.colour).getD true && environment.terminal

end Environment

end MarkedRegions
