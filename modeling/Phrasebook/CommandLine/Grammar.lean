import Phrasebook.Text.Numeral

/-!
# Grammar of command lines

What a command accepts: options with one letter or a name, flags, and operands. `Grammar.read` goes
through the words from the left. A value that stands in a word of its own is checked only when the
next option or operand arrives, or at the end; a value attached to its option is checked at once. So
of two faults the one that is settled first is reported.
-/

namespace Phrasebook.CommandLine

/-- Why a command line is turned down. Asking for help or for the version is one of the reasons. -/
inductive Rejection where
  | nothingGiven
  | missingCommand
  | help
  | version
  | unknownCommand
  | unknownArgument
  | missingArgument
  /-- An option without its value, or an empty path. -/
  | missingValue
  /-- Something is given twice, or together with what excludes it. -/
  | conflict
  | unwantedValue
  | badNumber
  deriving DecidableEq, Repr

/-- The exit status of a rejection: asking is no failure. -/
def Rejection.exitCode : Rejection → UInt32
  | .help | .version => 0
  | _ => 2

inductive Parameter where
  | help
  | version
  | verbose
  | config
  | json
  | output
  | filePrefix
  | locale
  | context
  | source
  | disambiguation
  | argument
  | count
  | file
  | directory
  deriving DecidableEq, Repr

inductive ValueKind where
  | path
  | text
  | integer
  deriving DecidableEq, Repr

def ValueKind.check (kind : ValueKind) (value : String) : Except Rejection Unit :=
  match kind with
  | .path => if value.isEmpty then .error .missingValue else .ok ()
  | .text => .ok ()
  | .integer => if (Text.integer? value.toList).isSome then .ok () else .error .badNumber

inductive Action where
  | reject (rejection : Rejection)
  | flag
  | counter
  | single (kind : ValueKind)
  | repeated (kind : ValueKind)
  deriving DecidableEq, Repr

def Action.kind? : Action → Option ValueKind
  | .single kind | .repeated kind => some kind
  | .reject _ | .flag | .counter => none

structure OptionRule where
  parameter : Parameter
  letter : Option Char := none
  name : String
  action : Action
  deriving DecidableEq, Repr

/-- The operands of a command: paths, one or any number of them. -/
structure OperandRule where
  parameter : Parameter
  repeated : Bool := false
  deriving DecidableEq, Repr

structure Grammar where
  options : List OptionRule
  operands : Option OperandRule := none
  commands : List String := []
  deriving DecidableEq, Repr

/-- A parameter that was given, with its values. -/
structure Given where
  parameter : Parameter
  values : List String
  deriving DecidableEq, Repr

namespace Grammar

structure State where
  /-- What is settled, in order. -/
  given : List Given := []
  /-- A parameter whose values are still to be checked. -/
  pending : Option Given := none
  awaiting : Bool := false
  operandsOnly : Bool := false
  operandCount : Nat := 0
  deriving DecidableEq, Repr

def State.has (state : State) (parameter : Parameter) : Bool :=
  state.given.any (·.parameter == parameter)

/-- The action of a parameter; operands are repeated paths. -/
def action (grammar : Grammar) (parameter : Parameter) : Action :=
  match grammar.options.find? (·.parameter == parameter) with
  | some rule => rule.action
  | none => .repeated .path

/-- Adds a parameter to what is settled, after the checks that its action asks for. -/
def accept (grammar : Grammar) (state : State) (given : Given) : Except Rejection State := do
  let action := grammar.action given.parameter
  let kept : State := { state with given := state.given ++ [given] }
  match action with
  | .reject rejection => throw rejection
  | .flag => if state.has given.parameter then throw .conflict
  | .counter => pure ()
  | .single _ | .repeated _ =>
    if given.values.isEmpty then throw .missingValue
    if !(action matches .repeated _) && state.has given.parameter then throw .conflict
  for kind in action.kind?.toList do
    given.values.forM kind.check
  pure kept

def settle (grammar : Grammar) (state : State) : Except Rejection State :=
  match state.pending with
  | none => .ok { state with awaiting := false }
  | some given => grammar.accept { state with pending := none, awaiting := false } given

/-- Takes an option whose value, if it has one, is attached. -/
def takeOption (grammar : Grammar) (state : State) (parameter : Parameter) (values : List String) :
    Except Rejection State := do
  grammar.accept (← grammar.settle state) ⟨parameter, values⟩

/-- Takes an option whose value is the next word. -/
def awaitValue (grammar : Grammar) (state : State) (parameter : Parameter) :
    Except Rejection State := do
  let state ← grammar.settle state
  pure { state with pending := some ⟨parameter, []⟩, awaiting := true }

def takeNamed (grammar : Grammar) (state : State) (name : List Char) (value : Option (List Char)) :
    Except Rejection State :=
  match grammar.options.find? (·.name.toList == name) with
  | none => .error .unknownArgument
  | some rule =>
    match rule.action.kind?, value with
    | some _, some value => grammar.takeOption state rule.parameter [String.ofList value]
    | some _, none => grammar.awaitValue state rule.parameter
    | none, some _ => .error .unwantedValue
    | none, none => grammar.takeOption state rule.parameter []

/-- Takes options given by letters. What follows the letter of an option with a value is the value,
with or without an equals sign before it. -/
def takeLetters (grammar : Grammar) (state : State) : List Char → Except Rejection State
  | [] => .ok state
  | c :: rest =>
    match grammar.options.find? (·.letter == some c) with
    | none => .error .unknownArgument
    | some rule =>
      match rule.action.kind? with
      | none => do takeLetters grammar (← grammar.takeOption state rule.parameter []) rest
      | some _ =>
        match rest with
        | [] => grammar.awaitValue state rule.parameter
        | '=' :: value => grammar.takeOption state rule.parameter [String.ofList value]
        | value => grammar.takeOption state rule.parameter [String.ofList value]

def takeValue (state : State) (word : String) : State :=
  { state with
    pending := state.pending.map fun given => { given with values := given.values ++ [word] }
    awaiting := false }

def surplus (grammar : Grammar) (state : State) (word : String) : Rejection :=
  if grammar.commands.isEmpty || (state.operandsOnly && grammar.commands.contains word) then
    .unknownArgument
  else .unknownCommand

/-- Takes an operand. Operands in a row wait together. -/
def takeOperand (grammar : Grammar) (state : State) (word : String) : Except Rejection State :=
  match grammar.operands with
  | none => .error (grammar.surplus state word)
  | some rule =>
    if !rule.repeated && 0 < state.operandCount then .error (grammar.surplus state word)
    else if rule.repeated && (state.pending.any (·.parameter == rule.parameter)) then
      .ok (takeValue state word)
    else do
      let state ← grammar.settle state
      pure { state with
        pending := some ⟨rule.parameter, [word]⟩
        operandCount := state.operandCount + 1 }

inductive Word where
  /-- Two hyphens: operands follow. -/
  | separator
  | named (name : List Char) (value : Option (List Char))
  | letters (letters : List Char)
  | plain
  deriving DecidableEq, Repr

/-- The form of a word. One hyphen alone is a plain word. -/
def Word.ofList : List Char → Word
  | ['-', '-'] => .separator
  | '-' :: '-' :: rest =>
    match rest.dropWhile (· != '=') with
    | [] => .named rest none
    | _ :: value => .named (rest.takeWhile (· != '=')) (some value)
  | '-' :: c :: rest => .letters (c :: rest)
  | _ => .plain

def takeWord (grammar : Grammar) (state : State) (word : String) : Except Rejection State :=
  if state.operandsOnly then grammar.takeOperand state word
  else
    match Word.ofList word.toList with
    | .separator => .ok { state with operandsOnly := true, awaiting := false }
    | .named name value => grammar.takeNamed state name value
    | .letters letters => grammar.takeLetters state letters
    | .plain =>
      if state.awaiting then .ok (takeValue state word) else grammar.takeOperand state word

/-- The outcome of reading: where it stands, and the command that ended it with the words after
it. -/
structure Reading where
  state : State
  command : Option (String × List String) := none
  deriving DecidableEq, Repr

/-- Takes words up to the first one that names a command. -/
def read (grammar : Grammar) (state : State) : List String → Except Rejection Reading
  | [] => .ok { state }
  | word :: rest =>
    if !state.operandsOnly && !state.awaiting && grammar.commands.contains word then
      .ok { state, command := some (word, rest) }
    else do read grammar (← grammar.takeWord state word) rest

end Grammar

def valuesOf (given : List Given) (parameter : Parameter) : List String :=
  (given.filter (·.parameter == parameter)).flatMap (·.values)

def isGiven (given : List Given) (parameter : Parameter) : Bool :=
  given.any (·.parameter == parameter)

end Phrasebook.CommandLine
