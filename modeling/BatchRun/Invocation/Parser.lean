import BatchRun.Invocation.Basic
import BatchRun.Invocation.Parameter

/-!
# Reading arguments

**Input.**
The arguments of the program, without its name.

**Result.**
`Invocation.parse` gives what they ask for, or why they are refused.

**Order.**
A value is not looked at when it is read but when the next parameter is set, or at the end.  An
argument that is unknown is refused first, then a value in front of it.  What is behind the name
of a command is settled before what is in front of it.
-/

namespace BatchRun
namespace Invocation

open Storage

/-- Parameters that were set at a level. -/
structure Reading where
  /-- Parameters whose values have been looked at. -/
  settled : List (Parameter × Value) := []
  /-- Parameter whose value has not been looked at, or not been read. -/
  waiting : Option (Parameter × Option String) := none
  /-- Whether an argument without a name was read. -/
  hasPositional : Bool := false
  /-- Whether the mark was read behind which arguments have no names. -/
  trailing : Bool := false

namespace Reading

/-- Value of a parameter. -/
def value? (reading : Reading) (parameter : Parameter) : Option Value :=
  reading.settled.lookup parameter

/-- Whether a parameter was set. -/
def has (reading : Reading) (parameter : Parameter) : Bool := (reading.value? parameter).isSome

/-- Text of a parameter. -/
def text? (reading : Reading) (parameter : Parameter) : Option String :=
  match reading.value? parameter with
  | some (.text text) => some text
  | _ => none

/-- Path of a parameter. -/
def path? (reading : Reading) (parameter : Parameter) : Option Path :=
  (reading.text? parameter).map Path.mk

/-- Number of a parameter. -/
def count? (reading : Reading) (parameter : Parameter) : Option Nat :=
  match reading.value? parameter with
  | some (.count value) => some value
  | _ => none

/-- Format of a parameter. -/
def format? (reading : Reading) (parameter : Parameter) : Option Input.Format :=
  match reading.value? parameter with
  | some (.format format) => some format
  | _ => none

/-- Adds a value; a parameter is set once at most. -/
def add (reading : Reading) (parameter : Parameter) (value : Except Refusal Value) :
    Except Refusal Reading :=
  if reading.has parameter then .error .conflict
  else value.map fun value => { reading with settled := (parameter, value) :: reading.settled }

/-- Looks at the value that waits for it. -/
def settle (reading : Reading) : Except Refusal Reading :=
  match reading.waiting with
  | none => .ok reading
  | some (_, none) => .error .badValue
  | some (parameter, some text) =>
    { reading with waiting := none }.add parameter (parameter.read text)

/-- Whether the next argument is the value of a parameter. -/
def awaitsValue (reading : Reading) : Bool :=
  !reading.trailing && (reading.waiting.any (·.2.isNone))

/-- Sets a parameter without a value. -/
def set (reading : Reading) (parameter : Parameter) : Except Refusal Reading := do
  let reading ← reading.settle
  match parameter with
  | .help => .error .help
  | .version => .error .version
  | _ => reading.add parameter (.ok .given)

/-- Sets a parameter that has a value; without an attached one it is in the next argument. -/
def setValue (reading : Reading) (parameter : Parameter) (attached : Option String) :
    Except Refusal Reading := do
  let reading ← reading.settle
  match attached with
  | some text => reading.add parameter (parameter.read text)
  | none => .ok { reading with waiting := some (parameter, none) }

/-- Reads the value of the parameter that awaits one. -/
def supply (reading : Reading) (text : String) : Reading :=
  { reading with waiting := reading.waiting.map fun (parameter, _) => (parameter, some text) }

/-- Reads an argument without a name.  At the top it can only be the name of a command, and that
must not be marked as something else. -/
def place (level : Level) (reading : Reading) (text : String) : Except Refusal Reading :=
  match level.positional? with
  | none =>
    .error (if reading.trailing && Level.isCommand text then .unknownArgument else .unknownCommand)
  | some parameter =>
    if reading.hasPositional then .error .unknownArgument
    else
      reading.settle.map fun reading =>
        { reading with waiting := some (parameter, some text), hasPositional := true }

/-- Reads an argument with a long name, and with its value behind an equals sign. -/
def long (level : Level) (reading : Reading) (argument : List Char) : Except Refusal Reading :=
  let name := argument.takeWhile (· != '=')
  let attached : Option String :=
    match argument.dropWhile (· != '=') with
    | _ :: value => some (String.ofList value)
    | [] => none
  match level.long? (String.ofList name) with
  | none => .error .unknownArgument
  | some parameter =>
    if parameter.hasValue then reading.setValue parameter attached
    else if attached.isSome then .error .unwantedValue
    else reading.set parameter

/-- Reads short names; the rest behind one that has a value is that value, with or without an
equals sign. -/
def short (level : Level) (reading : Reading) : List Char → Except Refusal Reading
  | [] => .ok reading
  | name :: rest =>
    match level.short? name with
    | none => .error .unknownArgument
    | some parameter =>
      if parameter.hasValue then
        match rest with
        | [] => reading.setValue parameter none
        | '=' :: value => reading.setValue parameter (some (String.ofList value))
        | value => reading.setValue parameter (some (String.ofList value))
      else
        match reading.set parameter with
        | .error refusal => .error refusal
        | .ok reading => short level reading rest

/-- Reads one argument. -/
def argument (level : Level) (reading : Reading) (text : String) : Except Refusal Reading :=
  if reading.trailing then reading.place level text
  else
    match text.toList with
    | ['-', '-'] => .ok { reading with trailing := true }
    | '-' :: '-' :: rest => reading.long level rest
    | ['-'] => plain
    | '-' :: rest => reading.short level rest
    | _ => plain
where
  /-- Reads an argument that names no parameter. -/
  plain : Except Refusal Reading :=
    if reading.awaitsValue then .ok (reading.supply text) else reading.place level text

/-- Reads all arguments of a level. -/
def arguments (level : Level) (reading : Reading) (texts : List String) :
    Except Refusal Reading := do
  let reading ← texts.foldlM (argument level) reading
  reading.settle

end Reading

/-- What is asked for behind the command that processes items. -/
def processed (reading : Reading) : Except Refusal Errand :=
  if reading.has .checkpoint && reading.has .noCheckpoint then .error .conflict
  else
    match reading.path? .input with
    | none => .error .missingArgument
    | some input => .ok <| .process
      { input
        format := reading.format? .format
        endpoint := reading.text? .endpoint
        outputDir := reading.path? .output
        checkpoint := reading.path? .checkpoint
        noCheckpoint := reading.has .noCheckpoint
        concurrency := reading.count? .concurrency
        maxAttempts := reading.count? .maxAttempts
        sequential := reading.has .sequential
        dryRun := reading.has .dryRun
        noDedup := reading.has .noDedup
        stopOnError := reading.has .stopOnError }

/-- What is asked for behind the name of a command. -/
def requested (level : Level) (reading : Reading) : Except Refusal Errand :=
  match level with
  | .run => processed reading
  | _ =>
    match reading.path? .inspected with
    | none => .error .missingArgument
    | some checkpoint => .ok (.inspect checkpoint)

/-- Arguments behind the one that asks for help: the name of a command, or nothing. -/
def helpFor : List String → Refusal
  | [] => .help
  | [name] => if Level.isCommand name then .help else .unknownCommand
  | _ => .unknownCommand

/-- Invocation with what is in front of the name of a command and behind it; what is behind it
counts more. -/
def joined (outer inner : Reading) (errand : Errand) : Invocation :=
  { errand
    config := (inner.path? .config).orElse fun _ => outer.path? .config
    verbose := inner.has .verbose || outer.has .verbose }

/-- Reads arguments in front of the name of a command, and all that is behind it. -/
def parseFrom (reading : Reading) : List String → Except Refusal Invocation
  | [] => do
    let reading ← reading.settle
    .error (if reading.settled.isEmpty then .nothingGiven else .missingCommand)
  | text :: rest =>
    if reading.trailing || reading.awaitsValue || !Level.isCommand text then
      match reading.argument .top text with
      | .error refusal => .error refusal
      | .ok reading => parseFrom reading rest
    else
      match Level.commands.lookup text with
      | none => .error (helpFor rest)
      | some level => do
        let inner ← Reading.arguments level {} rest
        let errand ← requested level inner
        return joined (← reading.settle) inner errand

/-- What the arguments ask for. -/
def parse (arguments : List String) : Except Refusal Invocation := parseFrom {} arguments

end Invocation
end BatchRun
