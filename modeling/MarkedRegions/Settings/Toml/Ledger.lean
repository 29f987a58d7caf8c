import MarkedRegions.Settings.Document

/-!
# What a TOML document has defined

Names in a TOML document are defined one after another, by keys with values, by keys with dots and
by headers, and nothing may be defined twice. A ledger keeps what stands under every full name and
how it came there, and every new definition is checked against it.

## Main definitions

* `Toml.Ledger`: what has been defined
* `Toml.Ledger.addValue?`: a key with its value
* `Toml.Ledger.openTable?`, `Toml.Ledger.openItem?`: the two kinds of headers
-/

namespace MarkedRegions.Toml

/-- **A part of a full name**: a key of a table, or the number of a table in a row of tables. -/
inductive Part
  | key (name : List Char)
  | item (number : Nat)
deriving DecidableEq, Repr

/-- **What stands under a name.** -/
inductive Definition
  | value (setting : Setting)
  -- A table that only stands on the way to what headers have named.
  | passed
  -- A table that stands on the way to what keys with dots have named.
  | dotted
  -- A table with a header of its own.
  | headed
  -- A row of tables, by their number.
  | row (count : Nat)
deriving Repr

/-- **What has been defined**, by full names. -/
structure Ledger where
  entries : List (List Part × Definition)
deriving Repr

namespace Ledger

def empty : Ledger := ⟨[]⟩

/-- What stands under a full name. -/
def find? (ledger : Ledger) (name : List Part) : Option Definition :=
  ledger.entries.lookup name

/-- Puts something under a full name. -/
def put (ledger : Ledger) (name : List Part) (definition : Definition) : Ledger :=
  ⟨ledger.entries.filter (·.1 ≠ name) ++ [(name, definition)]⟩

/-- **Goes down from a table** along the keys of a header. Tables on the way are made where they
are missing, and of a row of tables the last one is meant. -/
def descend? (ledger : Ledger) (table : List Part) :
    List (List Char) → Option (Ledger × List Part)
  | [] => some (ledger, table)
  | name :: rest =>
    let next := table ++ [.key name]
    match ledger.find? next with
    | none => (ledger.put next .passed).descend? next rest
    | some (.value _) => none
    | some (.row count) => ledger.descend? (next ++ [.item count]) rest
    | some _ => ledger.descend? next rest

/-- Goes down from a table along the first keys of a key with dots. Tables that a header has named
can not be added to in this way. -/
def descendDotted? (ledger : Ledger) (table : List Part) :
    List (List Char) → Option (Ledger × List Part)
  | [] => some (ledger, table)
  | name :: rest =>
    let next := table ++ [.key name]
    match ledger.find? next with
    | none => (ledger.put next .dotted).descendDotted? next rest
    | some .passed | some .dotted => ledger.descendDotted? next rest
    | some (.row count) => ledger.descendDotted? (next ++ [.item count]) rest
    | some _ => none

/-- Whether a key may be added to a table: a key with dots only to a table made for such keys, and
a plain key only to others. -/
def admits (ledger : Ledger) (table : List Part) (isDotted : Bool) : Bool :=
  match ledger.find? table with
  | some .dotted => isDotted
  | _ => !isDotted

/-- **A key with its value**, in a table. -/
def addValue? (ledger : Ledger) (table : List Part) (key : List (List Char)) (setting : Setting) :
    Option Ledger := do
  let last ← key.getLast?
  let (ledger, at') ← ledger.descendDotted? table key.dropLast
  -- The tables that the key has just made are checked as well, which is what lets it through.
  if !ledger.admits at' (1 < key.length) then none
  let name := at' ++ [.key last]
  match ledger.find? name with
  | some _ => none
  | none => return ledger.put name (.value setting)

/-- **The header of a table**: the table that it opens. Only a table that has been passed on the
way to others may have been there before. -/
def openTable? (ledger : Ledger) (key : List (List Char)) : Option (Ledger × List Part) := do
  let last ← key.getLast?
  let (ledger, parent) ← ledger.descend? [] key.dropLast
  let name := parent ++ [.key last]
  match ledger.find? name with
  | none | some .passed => return (ledger.put name .headed, name)
  | some _ => none

/-- **The header of a further table in a row**: the table that it opens. -/
def openItem? (ledger : Ledger) (key : List (List Char)) : Option (Ledger × List Part) := do
  let last ← key.getLast?
  let (ledger, parent) ← ledger.descend? [] key.dropLast
  let name := parent ++ [.key last]
  match ledger.find? name with
  | none => return (ledger.put name (.row 1), name ++ [.item 1])
  | some (.row count) => return (ledger.put name (.row (count + 1)), name ++ [.item (count + 1)])
  | some _ => none

/-- What stands under the keys of the outermost table. -/
def members (ledger : Ledger) : List (Option (List Char) × Setting) :=
  ledger.entries.filterMap fun (name, definition) =>
    match name, definition with
    | [.key key], .value setting => some (some key, setting)
    | [.key key], _ => some (some key, .other)
    | _, _ => none

end Ledger

end MarkedRegions.Toml
