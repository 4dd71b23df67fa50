import BatchRun.Input.Source

/-!
# Parameters

**Types.**
A `Parameter` is something that an argument can set.  A `Level` is a place among the arguments:
in front of the name of a command, or behind one.

**Results.**
`Level.long?`, `Level.short?` and `Level.positional?` say which parameter an argument sets at a
level, and `Parameter.read` what its text stands for.
-/

namespace BatchRun
namespace Invocation

open Storage

/-- Something that an argument can set. -/
inductive Parameter where
  | help
  | version
  | config
  | verbose
  | input
  | format
  | endpoint
  | output
  | checkpoint
  | noCheckpoint
  | concurrency
  | maxAttempts
  | sequential
  | dryRun
  | noDedup
  | stopOnError
  /-- Checkpoint that is to be inspected. -/
  | inspected
deriving DecidableEq

/-- A place among the arguments. -/
inductive Level where
  /-- In front of the name of a command. -/
  | top
  /-- Behind the command that processes items. -/
  | run
  /-- Behind the command that inspects a checkpoint. -/
  | inspect
deriving DecidableEq

/-- Value of a parameter. -/
inductive Value where
  | given
  | text (text : String)
  | count (value : Nat)
  | format (format : Input.Format)
deriving DecidableEq

/-- Why there is no invocation. -/
inductive Refusal where
  /-- Help was asked for. -/
  | help
  /-- The version was asked for. -/
  | version
  | nothingGiven
  | missingCommand
  | unknownCommand
  | unknownArgument
  /-- A parameter without a value was given one. -/
  | unwantedValue
  /-- A value is missing or is none of those that are allowed. -/
  | badValue
  /-- A value is no number, or out of range. -/
  | badNumber
  /-- A parameter was set twice, or two exclude each other. -/
  | conflict
  | missingArgument
deriving DecidableEq

namespace Parameter

/-- Whether a parameter has a value. -/
def hasValue : Parameter → Bool
  | help | version | verbose | noCheckpoint | sequential | dryRun | noDedup | stopOnError => false
  | _ => true

end Parameter

namespace Level

/-- Long names at a level. -/
def longNames (level : Level) : List (String × Parameter) :=
  [("help", .help), ("config", .config), ("verbose", .verbose)]
    ++ match level with
      | top => [("version", .version)]
      | run =>
        [("format", .format), ("endpoint", .endpoint), ("output", .output),
          ("checkpoint", .checkpoint), ("no-checkpoint", .noCheckpoint),
          ("concurrency", .concurrency), ("max-attempts", .maxAttempts),
          ("sequential", .sequential), ("dry-run", .dryRun), ("no-dedup", .noDedup),
          ("stop-on-error", .stopOnError)]
      | inspect => []

/-- Short names at a level. -/
def shortNames (level : Level) : List (Char × Parameter) :=
  [('h', .help), ('c', .config), ('v', .verbose)]
    ++ match level with
      | top => [('V', .version)]
      | run => [('e', .endpoint), ('o', .output)]
      | inspect => []

/-- Parameter with a long name. -/
def long? (level : Level) (name : String) : Option Parameter := level.longNames.lookup name

/-- Parameter with a short name. -/
def short? (level : Level) (name : Char) : Option Parameter := level.shortNames.lookup name

/-- Parameter that an argument without a name sets. -/
def positional? : Level → Option Parameter
  | top => none
  | run => some .input
  | inspect => some .inspected

/-- Commands with their names. -/
def commands : List (String × Level) := [("run", .run), ("inspect", .inspect)]

/-- Name of the command that tells about the others. -/
def helpName : String := "help"

/-- Whether a text is the name of a command. -/
def isCommand (text : String) : Bool := text == helpName || (commands.lookup text).isSome

end Level

/-- Digits with a value below a bound. -/
def digitsBelow? (bound : Nat) (digits : List Char) : Option Nat :=
  if digits.isEmpty || !digits.all Char.isDigit then none
  else
    let value := digits.foldl (fun value c => value * 10 + (c.toNat - 48)) 0
    if value < bound then some value else none

/-- A natural number below a bound, with or without a plus. -/
def natBelow? (bound : Nat) (text : String) : Option Nat :=
  match text.toList with
  | '+' :: digits => digitsBelow? bound digits
  | digits => digitsBelow? bound digits

/-- A natural number below a bound; zero may have a minus. -/
def signedBelow? (bound : Nat) (text : String) : Option Nat :=
  match text.toList with
  | '-' :: digits => digitsBelow? 1 digits
  | _ => natBelow? bound text

/-- Formats with their names. -/
def formats : List (String × Input.Format) :=
  [("lines", .lines), ("json", .records), ("jsonl", .jsonLines), ("csv", .commas), ("tsv", .tabs)]

/-- What the text of a value stands for.  A path must not be empty. -/
def Parameter.read (parameter : Parameter) (text : String) : Except Refusal Value :=
  let number (value? : Option Nat) : Except Refusal Value :=
    match value? with
    | some value => .ok (.count value)
    | none => .error .badNumber
  match parameter with
  | .endpoint => .ok (.text text)
  | .concurrency => number (natBelow? (Nat.pow 2 64) text)
  | .maxAttempts => number (signedBelow? (Nat.pow 2 32) text)
  | .format =>
    match formats.lookup text with
    | some found => .ok (.format found)
    | none => .error .badValue
  | _ => if text.isEmpty then .error .badValue else .ok (.text text)

end Invocation
end BatchRun
