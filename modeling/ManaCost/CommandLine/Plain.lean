import ManaCost.CommandLine.Outcome
import ManaCost.Report.PlainConsole

namespace ManaCost.CommandLine

/-!
# The plain platform

The program runs with a plain parser of arguments and with plain consoles.  To the parser, arguments
in front of the command are flags of the program as a whole, and those behind it belong to the
command, whose flags and operands may be mixed.  An argument of two characters or more that begins
with a hyphen is a flag, unless a double hyphen stands somewhere before it.  Where two flags exclude
each other the last one counts.
-/

namespace Command

/-- Every command. -/
def all : List Command :=
  [.parse, .symbol, .scan, .pay, .compare, .colors]

/-- The command of a name. -/
def ofName?
    (name : String) :
    Option Command :=
  all.find? fun command => command.name == name

end Command

/-- The last of two opposite flags among those given. -/
def Flag.choice?
    (given : List Flag)
    (yes no : Flag) :
    Option Bool :=
  (given.reverse.find? fun flag => flag == yes || flag == no).map (· == yes)

/-- The argument is written like a flag. -/
def looksLikeFlag
    (argument : String) :
    Bool :=
  match argument.toList with
  | '-' :: _ :: _ => true
  | _ => false

/-- The argument asks for verbose logging, perhaps more than once. -/
def asksForVerbosity
    (argument : String) :
    Bool :=
  argument == "--verbose" ||
    match argument.toList with
    | '-' :: letter :: letters => letter == 'v' && letters.all (· == 'v')
    | _ => false

namespace Call

/-- The call that begins with the name of a command. -/
def ofCommand?
    (verbose : Bool) :
    List String → Option Call
  | [] => none
  | name :: arguments => (Command.ofName? name).map fun command => ⟨verbose, command, arguments⟩

/-- The call that arguments make, unless they are used wrongly. -/
def ofArguments?
    (verbose : Bool) :
    List String → Option Call
  | [] => none
  | argument :: rest =>
      if argument == "--" then
        ofCommand? verbose rest
      else if looksLikeFlag argument then
        if asksForVerbosity argument then ofArguments? true rest else none
      else
        ofCommand? verbose (argument :: rest)

end Call

/-- The flags among the arguments of a command, and its operands. -/
def separate?
    (allowed : List Flag) :
    List String → Option (List Flag × List String)
  | [] => some ([], [])
  | argument :: rest =>
      if argument == "--" then
        some ([], rest)
      else if looksLikeFlag argument then
        match allowed.find? fun flag => flag.name == argument with
        | none => none
        | some flag => (separate? allowed rest).map fun found => (flag :: found.1, found.2)
      else
        (separate? allowed rest).map fun found => (found.1, argument :: found.2)

namespace Task

/-- The task of a command with its flags and operands. -/
def of?
    (given : List Flag) :
    Command → List String → Option Task
  | .parse, [cost] => some (.parse cost)
  | .symbol, [token] => some (.symbol token)
  | .scan, [text] => some (.scan text)
  | .pay, [cost, payment] =>
      some (.pay cost payment
        (Flag.choice? given .strict .lenient)
        (Flag.choice? given .colorPaysGeneric .noColorPaysGeneric))
  | .compare, [left, right] => some (.compare left right)
  | .colors, [name] => some (.colors name)
  | _, _ => none

end Task

namespace Request

/-- The request that a call makes, unless its arguments are used wrongly. -/
def ofCall?
    (call : Call) :
    Option Request :=
  match separate? call.command.flags call.arguments with
  | none => none
  | some (given, operands) =>
      (Task.of? given call.command operands).map fun task => ⟨task, given.contains .json⟩

end Request

/-- The plain parser. -/
def Parser.plain : Parser where
  call? := Call.ofArguments? false
  request? := Request.ofCall?

/-- The plain parser and the plain console. -/
def Platform.plain : Platform where
  parser := .plain
  escape := Report.escaped
  output := .plain
  errors := .plain

end ManaCost.CommandLine
