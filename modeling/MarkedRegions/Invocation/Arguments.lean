import MarkedRegions.Invocation.Basic

/-!
# Reading a command line

Arguments are read from left to right, first those around a command and then those of the command.
An option takes its value from the same argument, after an equals sign, or from the next one. A
value is looked at only when the next part of the command line begins, so a part that is not
expected at all is refused before a value that can not be used. After a double dash everything is
an operand.

## Main definitions

* `Content.ofValue`, `Assignment.parse`: an assignment and the contents that its value asks for
* `Arguments.Place`: where on a command line one stands
* `Arguments.State`, `Arguments.State.take`: what has been read, and one more argument
* `Arguments.read`: a whole command line
-/

namespace MarkedRegions

/-- The byte between a name and its value. -/
def equalsSign : UInt8 := 0x3d

/-- The byte that makes the value of an assignment name a file. -/
def atSign : UInt8 := 0x40

/-- **The contents that a value asks for**: its own bytes or, after an at sign, those of a file. -/
def Content.ofValue : Bytes → Content
  | [] => .inline []
  | first :: rest => if first = atSign then .file rest else .inline (first :: rest)

/-- **The assignment that an argument writes**: a name, an equals sign, and a value. The first equals
sign counts. -/
def Assignment.parse (text : Bytes) : Except AssignmentFault Assignment :=
  let marker := text.takeWhile (· ≠ equalsSign)
  match text.dropWhile (· ≠ equalsSign) with
  | [] => .error (.noValue text)
  | _ :: value => if marker.isEmpty then .error .noName else .ok ⟨marker, .ofValue value⟩

namespace Arguments

/-- **Where on a command line** one stands. -/
inductive Place
  | around
  | replace
  | display
deriving DecidableEq, Repr

namespace Place

/-- The words that name commands. -/
def ofWord? (word : Bytes) : Option Place :=
  if word = Bytes.ofString "replace" then some .replace
  else if word = Bytes.ofString "show" then some .display
  else none

def switches : Place → List Switch
  | .around => [.verbose, .help, .version]
  | .replace => [.verbose, .help, .write]
  | .display => [.verbose, .help]

def options : Place → List Operand
  | .around | .display => [.lead, .settings]
  | .replace => [.lead, .settings, .assignment]

/-- The operands that stand alone, in their order. -/
def operands : Place → List Operand
  | .around => []
  | .replace => [.file]
  | .display => [.file, .marker]

end Place

def switchName : Switch → String
  | .verbose => "verbose"
  | .write => "write"
  | .help => "help"
  | .version => "version"

def switchLetter : Switch → UInt8
  | .verbose => 0x76
  | .write => 0x77
  | .help => 0x68
  | .version => 0x56

def optionName? : Operand → Option String
  | .lead => some "prefix"
  | .settings => some "config"
  | .assignment => some "set"
  | .file | .marker => none

def optionLetter? : Operand → Option UInt8
  | .assignment => some 0x73
  | _ => none

/-- **Why no command is carried out.** -/
inductive Refusal
  | usage (e : UsageError)
  | help
  | version
deriving DecidableEq, Repr

/-- **What has been given** at one place. -/
structure Given where
  verbose : Bool
  write : Bool
  lead : Option Bytes
  settings : Option Path
  assignments : List Assignment
  file : Option Path
  marker : Option Bytes
deriving DecidableEq, Repr

namespace Given

def nothing : Given := ⟨false, false, none, none, [], none, none⟩

def isNothing (given : Given) : Bool := given = nothing

def turnOn (given : Given) : Switch → Except Refusal Given
  | .verbose =>
    if given.verbose then .error (.usage (.repeatedSwitch .verbose))
    else .ok { given with verbose := true }
  | .write =>
    if given.write then .error (.usage (.repeatedSwitch .write))
    else .ok { given with write := true }
  | .help => .error .help
  | .version => .error .version

/-- A value that must be text. -/
def textValue (value : Bytes) : Except Refusal Bytes :=
  if Utf8.isText value then .ok value else .error (.usage .notText)

/-- A value that must not be empty. -/
def pathValue (operand : Operand) (value : Bytes) : Except Refusal Path :=
  if value.isEmpty then .error (.usage (.missingValue operand)) else .ok value

/-- **Takes in a value.** Assignments may be given many times, all else once. -/
def takeValue (given : Given) (operand : Operand) (value : Bytes) : Except Refusal Given :=
  match operand with
  | .lead =>
    if given.lead.isSome then .error (.usage (.repeatedOption .lead))
    else (textValue value).map fun lead => { given with lead := some lead }
  | .settings =>
    if given.settings.isSome then .error (.usage (.repeatedOption .settings))
    else (pathValue .settings value).map fun path => { given with settings := some path }
  | .assignment =>
    match textValue value with
    | .error refusal => .error refusal
    | .ok text =>
      match Assignment.parse text with
      | .ok assignment => .ok { given with assignments := given.assignments ++ [assignment] }
      | .error fault => .error (.usage (.assignment text fault))
  | .file => (pathValue .file value).map fun path => { given with file := some path }
  | .marker => (textValue value).map fun marker => { given with marker := some marker }

end Given

/-- **What has been read at one place.** -/
structure State where
  place : Place
  given : Given
  -- A value that has not been looked at, or an option that waits for its value.
  pending : Option (Operand × Option Bytes)
  operands : List Operand
  -- Whether the double dash has been met.
  operandsOnly : Bool
deriving DecidableEq, Repr

namespace State

def start (place : Place) : State :=
  ⟨place, .nothing, none, place.operands, false⟩

def isWaiting (state : State) : Bool :=
  !state.operandsOnly && state.pending.any (·.2.isNone)

/-- **Looks at the pending value.** -/
def settle (state : State) : Except Refusal State :=
  match state.pending with
  | none => .ok state
  | some (operand, none) => .error (.usage (.missingValue operand))
  | some (operand, some value) =>
    (state.given.takeValue operand value).map fun given => { state with given, pending := none }

/-- Turns a switch on, after what is pending. -/
def turnOn (state : State) (switch : Switch) : Except Refusal State := do
  let state ← state.settle
  return { state with given := ← state.given.turnOn switch }

/-- Takes in an option, after what is pending: its value is looked at if it is there, and waited for
if it is not. -/
def takeOption (state : State) (operand : Operand) (value : Option Bytes) :
    Except Refusal State := do
  let state ← state.settle
  match value with
  | some value => return { state with given := ← state.given.takeValue operand value }
  | none => return { state with pending := some (operand, none) }

/-- An argument that nothing expects. -/
def refuse (text : String) : Except Refusal State :=
  .error (.usage (.unexpected text))

/-- **An argument with a long name**, after its two dashes. -/
def takeLong (state : State) (text : Bytes) : Except Refusal State :=
  let name := text.takeWhile (· ≠ equalsSign)
  let value :=
    if text.contains equalsSign then some ((text.dropWhile (· ≠ equalsSign)).drop 1) else none
  match state.place.switches.find? (fun switch => name = Bytes.ofString (switchName switch)) with
  | some switch =>
    -- The value is complained of before anything that is pending.
    match value with
    | some value => .error (.usage (.unexpectedValue value switch))
    | none => state.turnOn switch
  | none =>
    match state.place.options.find? (fun o => some name = (optionName? o).map Bytes.ofString) with
    | some operand => state.takeOption operand value
    | none => refuse ("--" ++ Utf8.lossy name)

/-- The first character of some bytes, or all of them if they start with an invalid part. -/
def firstLetter (text : Bytes) : String :=
  match Utf8.pieces text with
  | .scalar c :: _ => String.ofList [c]
  | _ => Utf8.lossy text

/-- The value in the same argument as a letter, without an equals sign before it. -/
def attached (text : Bytes) : Option Bytes :=
  match text with
  | [] => none
  | first :: rest => if first = equalsSign then some rest else some text

/-- **An argument of letters**, after its dash: switches, and at the end perhaps an option with its
value. -/
def takeLetters (state : State) : Bytes → Except Refusal State
  | [] => .ok state
  | letter :: rest =>
    match state.place.switches.find? (fun switch => letter = switchLetter switch) with
    | some switch =>
      match state.turnOn switch with
      | .ok state => state.takeLetters rest
      | .error refusal => .error refusal
    | none =>
      match state.place.options.find? (fun o => some letter = optionLetter? o) with
      | some operand => state.takeOption operand (attached rest)
      | none => refuse ("-" ++ firstLetter (letter :: rest))

/-- **An argument that stands alone**: the next operand, if another one is expected. -/
def takeOperand (state : State) (value : Bytes) : Except Refusal State :=
  match state.operands with
  | operand :: operands => do
    let state ← state.settle
    return { state with pending := some (operand, some value), operands }
  | [] =>
    match state.place with
    | .around =>
      -- The name of a command is not one behind the double dash.
      if state.operandsOnly && (Place.ofWord? value).isSome then refuse (Utf8.lossy value)
      else .error (.usage (.unknownCommand (Utf8.lossy value)))
    | _ => refuse (Utf8.lossy value)

/-- **One more argument.** -/
def take (state : State) (argument : Bytes) : Except Refusal State :=
  let dash : UInt8 := 0x2d
  if state.operandsOnly then state.takeOperand argument
  else
    match argument with
    | first :: second :: rest =>
      -- A dash alone is an operand, and so is an empty argument.
      if first = dash ∧ second = dash then
        if rest.isEmpty then .ok { state with operandsOnly := true }
        else state.takeLong rest
      else if first = dash then state.takeLetters (second :: rest)
      else takeOther
    | _ => takeOther
where
  -- An argument that starts no option is the value waited for, or an operand.
  takeOther : Except Refusal State :=
    match state.isWaiting, state.pending with
    | true, some (operand, _) => .ok { state with pending := some (operand, some argument) }
    | _, _ => state.takeOperand argument

end State

/-- **The lead of the environment**, where none is given at a place. It must be text. -/
def environmentLead (environment : Option Bytes) (given : Given) : Except Refusal (Option Bytes) :=
  match given.lead, environment with
  | some _, _ | _, none => .ok none
  | none, some lead => (Given.textValue lead).map some

/-- The command that has been read, if nothing is missing. -/
def taskOf (place : Place) (given : Given) : Except Refusal Task :=
  match place, given.file, given.marker with
  | .replace, some file, _ =>
    if given.assignments.isEmpty then .error (.usage .missingOperands)
    else .ok (.replace file given.assignments given.write)
  | .display, some file, some marker => .ok (.display file marker)
  | _, _, _ => .error (.usage .missingOperands)

/-- **The arguments of a command**: what they give and ask for. -/
def readCommand (environment : Option Bytes) (place : Place) (arguments : List Bytes) :
    Except Refusal (Given × Task) := do
  let state ← arguments.foldlM State.take (.start place)
  let state ← state.settle
  let _ ← environmentLead environment state.given
  return (state.given, ← taskOf place state.given)

/-- The words after the request for help must name a command. -/
def readHelp : List Bytes → Except Refusal (Given × Task)
  | [] => .error .help
  | word :: rest =>
    if (Place.ofWord? word).isSome && rest.isEmpty then .error .help
    else if (Place.ofWord? word).isSome then
      .error (.usage (.unknownCommand (Utf8.lossy (rest.headD []))))
    else if word = Bytes.ofString "help" then readHelp rest
    else .error (.usage (.unknownCommand (Utf8.lossy word)))

/-- **The arguments around a command**, up to its name, and then those of the command. -/
def readAround (environment : Option Bytes) (state : State) :
    List Bytes → Except Refusal (State × Option (Given × Task))
  | [] => .ok (state, none)
  | argument :: rest =>
    -- A value that is waited for may be the name of a command.
    if state.operandsOnly || state.isWaiting then
      match state.take argument with
      | .ok state => readAround environment state rest
      | .error refusal => .error refusal
    else
      match Place.ofWord? argument with
      | some place => (readCommand environment place rest).map fun read => (state, some read)
      | none =>
        if argument = Bytes.ofString "help" then (readHelp rest).map fun read => (state, some read)
        else
          match state.take argument with
          | .ok state => readAround environment state rest
          | .error refusal => .error refusal

/-- **A whole command line**, in an environment that may give a lead. What is given with the command
goes before what is given around it, and both before the environment. -/
def read (environment : Option Bytes) (arguments : List Bytes) : Except Refusal Invocation := do
  let (state, command) ← readAround environment (.start .around) arguments
  -- A fault of the command comes first: what is around it has not been looked at to the end.
  let around := (← state.settle).given
  let lead ← environmentLead environment around
  match command with
  | some (given, task) =>
    return {
      verbose := given.verbose || around.verbose
      lead := (given.lead.or around.lead).or lead
      settings := given.settings.or around.settings
      task }
  | none =>
    if around.isNothing && lead.isNone then throw (.usage .nothingGiven)
    else throw (.usage .missingCommand)

end Arguments

end MarkedRegions
