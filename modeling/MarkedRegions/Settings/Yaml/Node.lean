import MarkedRegions.Settings.Document
import MarkedRegions.Settings.Yaml.Token

/-!
# Nodes of YAML

Tokens are read into nodes by the grammar of the format: a node is a scalar, a sequence or a
mapping, written in lines or in brackets, perhaps named so that it can be referred to later. A text
holds a single document; an empty one holds nothing.

## Main definitions

* `Yaml.Progress`, `Yaml.Reading`: the tokens that are left and what has been named
* `Yaml.node`: a node
* `Yaml.document?`: the only document of a text
-/

namespace MarkedRegions.Yaml

/-- **What is left to read and what has been named.** -/
structure Progress where
  tokens : List Token
  -- The nodes that have a name, the last one first.
  anchors : List (List Char × Setting)
  -- The handles that tags may use.
  handles : List (List Char)

/-- Reading from a list of tokens. -/
abbrev Reading := StateT Progress Option

def peek : Reading Token := do
  return (← get).tokens.headD .streamEnd

def advance : Reading Unit :=
  modify fun progress => { progress with tokens := progress.tokens.drop 1 }

/-- Passes over a token if it is the given one, and tells whether it was. -/
def accept (token : Token) : Reading Bool := do
  if (← peek) = token then
    advance
    return true
  else
    return false

/-- Gives a node its name. -/
def bindAnchor (anchor : Option (List Char)) (setting : Setting) : Reading Unit :=
  match anchor with
  | none => pure ()
  | some name => modify fun progress =>
    { progress with anchors := (name, setting) :: progress.anchors }

/-- A tag may use only handles that are known. -/
def checkHandle (handle : List Char) : Reading Unit := do
  if handle.isEmpty || (← get).handles.contains handle then pure () else failure

/-- The name of a node and whether it has a tag, in either order, each at most once. -/
def properties : Reading (Option (List Char) × Bool) := do
  match ← peek with
  | .anchor name =>
    advance
    match ← peek with
    | .tag handle =>
      advance
      checkHandle handle
      return (some name, true)
    | _ => return (some name, false)
  | .tag handle =>
    advance
    checkHandle handle
    match ← peek with
    | .anchor name =>
      advance
      return (some name, true)
    | _ => return (none, true)
  | _ => return (none, false)

/-- The text of a key, if it is a scalar. -/
def keyText? : Setting → Option (List Char)
  | .text chars => some chars
  | .blank => some []
  | _ => none

/-- A plain scalar of no characters is as good as nothing. -/
def ofScalar (text : List Char) (plain : Bool) : Setting :=
  if plain && text.isEmpty then .blank else .text text

/-- Whether a token ends a node before it has begun, within a mapping of lines. -/
def endsInMapping (token : Token) : Bool :=
  token = .key || token = .value || token = .blockEnd

/-- **A node.** `lines` says whether collections of lines may stand here, and `hanging` whether a
sequence may stand at the column of the mapping around it. The fuel bounds number and depth. -/
def node : Nat → Bool → Bool → Reading Setting
  | 0, _, _ => failure
  | fuel + 1, lines, hanging => do
    match ← peek with
    | .alias name =>
      advance
      match (← get).anchors.lookup name with
      | some setting => return setting
      | none => failure
    | _ =>
      let (anchor, tagged) ← properties
      -- Within itself the node is known by name and has no contents yet.
      bindAnchor anchor .other
      let token ← peek
      if hanging && token = .entry then
        finish anchor (.list <$> hangingItems fuel)
      else
        match token, lines with
        | .scalar text plain, _ =>
          advance
          finish anchor (return ofScalar text plain)
        | .flowSequence, _ =>
          advance
          finish anchor (.list <$> flowItems fuel true)
        | .flowMapping, _ =>
          advance
          finish anchor (.table <$> flowMembers fuel true)
        | .blockSequence, true =>
          advance
          finish anchor (.list <$> blockItems fuel)
        | .blockMapping, true =>
          advance
          finish anchor (.table <$> blockMembers fuel)
        -- A name or a tag with nothing behind it is a node that holds nothing.
        | _, _ => if anchor.isSome || tagged then finish anchor (return .blank) else failure
where
  -- Reads what a node consists of, and gives it its name.
  finish (anchor : Option (List Char)) (read : Reading Setting) : Reading Setting := do
    let setting ← read
    bindAnchor anchor setting
    return setting
  -- The items of a sequence of lines.
  blockItems : Nat → Reading (List Setting)
    | 0 => failure
    | fuel + 1 => do
      if ← accept .entry then
        let token ← peek
        let item ← if token = .entry || token = .blockEnd then pure .blank else node fuel true false
        return item :: (← blockItems fuel)
      else if ← accept .blockEnd then return []
      else failure
  -- The items of a sequence at the column of the mapping around it.
  hangingItems : Nat → Reading (List Setting)
    | 0 => failure
    | fuel + 1 => do
      if ← accept .entry then
        let token ← peek
        let item ← if token = .entry || endsInMapping token then pure .blank
          else node fuel true false
        return item :: (← hangingItems fuel)
      else return []
  -- The members of a mapping of lines.
  blockMembers : Nat → Reading (List (Option (List Char) × Setting))
    | 0 => failure
    | fuel + 1 => do
      if ← accept .key then
        let key ← if endsInMapping (← peek) then pure .blank else node fuel true true
        let value ← if ← accept .value then
            if endsInMapping (← peek) then pure .blank else node fuel true true
          else pure .blank
        return (keyText? key, value) :: (← blockMembers fuel)
      else if ← accept .blockEnd then return []
      else failure
  -- The items of a sequence in brackets. A key makes a mapping of a single member.
  flowItems : Nat → Bool → Reading (List Setting)
    | 0, _ => failure
    | fuel + 1, isFirst => do
      if ← accept .flowSequenceEnd then return []
      if !isFirst then
        if !(← accept .comma) then failure
        -- The last comma may be followed by nothing.
        if ← accept .flowSequenceEnd then return []
      if ← accept .key then
        let token ← peek
        let key ← if token = .value || token = .comma || token = .flowSequenceEnd then pure .blank
          else node fuel false false
        let value ← flowValue fuel .flowSequenceEnd
        return .table [(keyText? key, value)] :: (← flowItems fuel false)
      else
        let item ← node fuel false false
        return item :: (← flowItems fuel false)
  -- The value after a key in brackets, if there is one.
  flowValue : Nat → Token → Reading Setting
    | 0, _ => failure
    | fuel + 1, closing => do
      if ← accept .value then
        let token ← peek
        if token = .comma || token = closing then pure .blank else node fuel false false
      else pure .blank
  -- The members of a mapping in braces.
  flowMembers : Nat → Bool → Reading (List (Option (List Char) × Setting))
    | 0, _ => failure
    | fuel + 1, isFirst => do
      if ← accept .flowMappingEnd then return []
      if !isFirst then
        if !(← accept .comma) then failure
        -- As in a sequence.
        if ← accept .flowMappingEnd then return []
      if ← accept .key then
        let token ← peek
        let key ← if token = .value || token = .comma || token = .flowMappingEnd then pure .blank
          else node fuel false false
        let value ← flowValue fuel .flowMappingEnd
        return (keyText? key, value) :: (← flowMembers fuel false)
      else
        -- A key alone, without the mark of a key or a value.
        let key ← node fuel false false
        return (keyText? key, .blank) :: (← flowMembers fuel false)

/-! ## Documents -/

/-- The directives before a document: the version at most once and a known one, and every handle at
most once. -/
def directives : Nat → Bool → List (List Char) → Reading Unit
  | 0, _, _ => failure
  | fuel + 1, versioned, handles => do
    match ← peek with
    | .version major minor =>
      if versioned || major ≠ 1 || !(minor = 1 || minor = 2) then failure
      advance
      directives fuel true handles
    | .handle name =>
      if handles.contains name then failure
      advance
      directives fuel versioned (name :: handles)
    | _ => modify fun progress => { progress with handles := handles ++ progress.handles }

/-- Whether a token starts what must be announced by the mark of a document's start. -/
def announces : Token → Bool
  | .version .. | .handle .. | .documentStart => true
  | _ => false

/-- Whether a token ends a document before it has begun. -/
def endsDocument (token : Token) : Bool :=
  announces token || token = .documentEnd || token = .streamEnd

/-- Passes over the marks of a document's end. -/
def skipEnds : Nat → Reading Unit
  | 0 => failure
  | fuel + 1 => do if ← accept .documentEnd then skipEnds fuel else pure ()

/-- **The only document.** Nothing may follow it. -/
def document : Reading Setting := do
  let fuel := 2 * (← get).tokens.length + 2
  let token ← peek
  if token = .streamEnd then return .blank
  let setting ←
    if announces token then
      directives fuel false []
      if !(← accept .documentStart) then failure
      if endsDocument (← peek) then pure .blank else node fuel true false
    else
      node fuel true false
  skipEnds fuel
  if (← peek) = .streamEnd then return setting else failure

/-- **The document of a text.** -/
def document? (text : List Char) : Option Setting := do
  let tokens ← tokens? text
  let (setting, _) ← document.run ⟨tokens, [], [['!'], ['!', '!']]⟩
  return setting

/-- **The style that a YAML text describes.** -/
def style? (text : List Char) : Option MarkerStyle :=
  (document? text).bind MarkerStyle.ofSetting?

end MarkedRegions.Yaml
