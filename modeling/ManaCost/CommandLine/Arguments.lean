namespace ManaCost.CommandLine

/-!
# Commands and their arguments

The program has commands, and each command has flags and operands.  Which arguments make which
request is the business of a parser, which is given the names that are declared here.
-/

/-- A command of the program. -/
inductive Command where
  | parse
  | symbol
  | scan
  | pay
  | compare
  | colors
  deriving DecidableEq, Repr

/-- A flag of a command. -/
inductive Flag where
  | json
  | strict
  | lenient
  | colorPaysGeneric
  | noColorPaysGeneric
  deriving DecidableEq, Repr

/-- What a command is asked to do. -/
inductive Task where
  | parse (cost : String)
  | symbol (token : String)
  | scan (text : String)
  | pay (cost payment : String) (strict? colorPaysGeneric? : Option Bool)
  | compare (left right : String)
  | colors (name : String)
  deriving DecidableEq, Repr

/-- A task and the form of its report. -/
structure Request where
  task : Task
  json : Bool
  deriving DecidableEq, Repr

/-- A command with its own arguments, not yet read. -/
structure Call where
  verbose : Bool
  command : Command
  arguments : List String
  deriving DecidableEq, Repr

namespace Command

/-- The name of a command. -/
def name : Command → String
  | .parse => "parse"
  | .symbol => "symbol"
  | .scan => "scan"
  | .pay => "pay"
  | .compare => "compare"
  | .colors => "colors"

/-- The flags of a command. -/
def flags : Command → List Flag
  | .pay => [.json, .strict, .lenient, .colorPaysGeneric, .noColorPaysGeneric]
  | _ => [.json]

end Command

namespace Flag

/-- A flag as it is written. -/
def name : Flag → String
  | .json => "--json"
  | .strict => "--strict"
  | .lenient => "--lenient"
  | .colorPaysGeneric => "--color-pays-generic"
  | .noColorPaysGeneric => "--no-color-pays-generic"

end Flag

/-- The flags that ask for verbose logging, whatever the command. -/
def verbosityFlags : List String :=
  ["-v", "--verbose"]

/-- A parser of arguments.  It looks for the command first, and reads the arguments of the command
only when the command is about to run. -/
structure Parser where
  /-- The call that arguments make, unless they are used wrongly. -/
  call? : List String → Option Call
  /-- The request that a call makes, unless its arguments are used wrongly. -/
  request? : Call → Option Request

end ManaCost.CommandLine
