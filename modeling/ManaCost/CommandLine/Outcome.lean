import ManaCost.CommandLine.Arguments
import ManaCost.Report.Console
import ManaCost.Report.Style
import ManaCost.Report.Summary
import ManaCost.Settings
import ManaCost.Text.Blank

namespace ManaCost.CommandLine

/-!
# What a command comes to

A run reads its settings, then the arguments of its command, and then does its task.  A task ends
with a report and exit code zero, with a report of a failed payment and exit code one, or with a
fault and exit code two.  Reports are written as JSON, or handed to a console.
-/

/-- The libraries that the program stands on. -/
structure Platform where
  parser : Parser
  /-- A message as styled text in which nothing is taken for a tag. -/
  escape : String → String
  /-- The console of reports. -/
  output : Report.Console
  /-- The console of faults. -/
  errors : Report.Console

/-- Why a name is no log level. -/
inductive LevelFault where
  /-- Nothing of the log has the name. -/
  | unknown
  /-- The name is that of the text that lays out a line of the log. -/
  | lineFormat
  /-- The name is that of the table of the styles of such texts. -/
  | styleTable
  deriving DecidableEq, Repr

/-- Why a report cannot be written. -/
inductive WriteFault where
  /-- The number of blanks a level is no signed word of 64 bits. -/
  | beyondWord
  /-- No memory has room for so many blanks. -/
  | beyondMemory
  /-- A console cannot write what it is handed. -/
  | console
  deriving DecidableEq, Repr

/-- What a run comes to. -/
inductive Outcome where
  /-- A task was done, or met a fault. -/
  | finished (exitCode : Nat) (output errors : String)
  /-- The arguments were used wrongly. -/
  | misused
  /-- Settings have bad values. -/
  | badSettings (settings : List Setting)
  /-- The name of the log level is that of no level. -/
  | badLogLevel (fault : LevelFault)
  /-- A report was not written. -/
  | unwritten (fault : WriteFault)
  deriving DecidableEq

/-- The part of the library that logs a line. -/
inductive LogSource where
  | symbol
  | value
  | tools
  deriving DecidableEq, Repr

/-- A line of the log. -/
structure LogLine where
  source : LogSource
  message : String
  deriving DecidableEq

namespace LogSource

/-- The name under which a part logs. -/
def name : LogSource → String
  | .symbol => "mtg_mana.symbol"
  | .value => "mtg_mana.value"
  | .tools => "mtg_mana.tools"

end LogSource

namespace LogLine

/-- A line of the log as text. -/
def text
    (line : LogLine) :
    String :=
  "DEBUG:" ++ line.source.name ++ ":" ++ line.message ++ "\n"

/-- What a scan logs: the spans that hold no symbol. -/
def ofSpans
    (spans : List Span) :
    List LogLine :=
  spans.filterMap fun span =>
    match span with
    | .found _ => none
    | .skipped token fault =>
        some ⟨.symbol,
          "Skipping non-mana span " ++ String.ofList (braced token) ++ ": " ++ fault.message⟩

/-- What a payment logs: its shortage, if there is one, and what came of it. -/
def ofSettlement
    (settlement : Settlement) :
    List LogLine :=
  let shortage := settlement.shortage?.map fun shortage =>
    ⟨.value, shortage.message settlement.payer.cost settlement.payment.cost⟩
  shortage.toList ++ [⟨.tools, settlement.describe⟩]

end LogLine

/-- The names of the log levels. -/
def logLevels : List String :=
  ["CRITICAL", "FATAL", "ERROR", "WARN", "WARNING", "INFO", "DEBUG", "NOTSET"]

/-- A log level shows the lines of the log, or not; some names are no level. -/
def showsLog
    (level : String) :
    Except LevelFault Bool :=
  let name := String.ofList (Text.upper level.toList)
  if logLevels.contains name then
    .ok (name == "DEBUG" || name == "NOTSET")
  else if name == "BASIC_FORMAT" then
    .error .lineFormat
  else if name == "_STYLES" then
    .error .styleTable
  else
    .error .unknown

/-- The least number that no signed word of 64 bits holds. -/
def wordBound : Nat :=
  Nat.pow 2 63

/-- The least number that no address of 47 bits holds. -/
def addressBound : Nat :=
  Nat.pow 2 47

/-- How many blanks a level a report is indented by; a negative number counts as none. -/
def indentWidth
    (indent : Int) :
    Except WriteFault Nat :=
  if indent < -wordBound ∨ wordBound ≤ indent then
    .error .beyondWord
  else if addressBound ≤ indent then
    .error .beyondMemory
  else
    .ok indent.toNat

/-- What a task comes to, before it is written: as a record, and as what the console is handed. -/
structure Result where
  exitCode : Nat
  record : Report.Json
  plain : List Report.Content
  log : List LogLine

/-- A text without the blanks at both ends. -/
def stripped
    (text : String) :
    String :=
  String.ofList (Text.strip text.toList)

namespace Result

/-- A result without a log and with exit code zero. -/
def quiet
    (record : Report.Json)
    (plain : List Report.Content) :
    Result :=
  ⟨0, record, plain, []⟩

/-- The result of reading a cost. -/
def ofCost
    (escape : String → String)
    (cost : Cost) :
    Result :=
  let summary := Report.CostSummary.of cost
  let devotion := summary.devotion.map fun entry =>
    String.singleton entry.1 ++ ":" ++ toString entry.2
  let table : Report.Table := {
    title := "Cost " ++ summary.cost
    columns := [⟨"Property", .left, some "cyan"⟩, ⟨"Value", .left, none⟩]
    rows := [
      ["Symbols", Report.styledCost escape cost],
      ["Mana value", summary.manaValue.brief],
      ["Color", summary.color],
      ["Pure", if summary.isPure then "yes" else "no (hybrid)"],
      ["Varies", if summary.varies then "yes" else "no"],
      ["Devotion", " ".intercalate devotion]] }
  quiet summary.report [.table table]

/-- The result of reading a symbol. -/
def ofSymbol
    (escape : String → String)
    (symbol : Symbol) :
    Result :=
  let summary := Report.SymbolSummary.of symbol
  let first := Report.styledSymbol escape symbol ++ " [dim]" ++ summary.kind.label ++
    "[/dim] value " ++ summary.manaValue.brief ++ ", color " ++ symbol.color.name
  let options :=
    if summary.options.isEmpty then []
    else [.styled ("  [dim]options:[/dim] " ++ " or ".intercalate summary.options)]
  quiet summary.report (.styled first :: options)

/-- The result of scanning rules text. -/
def ofText
    (text : String) :
    Result :=
  let summary := Report.ScanSummary.of text
  let table : Report.Table := {
    title := "Found " ++ toString summary.symbols.length ++ " symbols"
    columns := [⟨"Symbol", .left, some "yellow"⟩, ⟨"Kind", .left, some "cyan"⟩,
      ⟨"Value", .right, none⟩, ⟨"Colors", .left, none⟩]
    rows := summary.symbols.map fun symbol =>
      [symbol.symbol, symbol.kind.label, symbol.manaValue.brief, String.ofList symbol.colors] }
  { exitCode := 0
    record := summary.report
    plain :=
      if summary.symbols.isEmpty then [.styled "[dim]No mana symbols found[/dim]"]
      else [.table table]
    log := LogLine.ofSpans (spans text.toList) }

/-- The result of a payment; one that fails has exit code one. -/
def ofSettlement
    (settlement : Settlement) :
    Result :=
  let summary := Report.PaymentSummary.of settlement
  let plain := match summary.remainder? with
    | some remainder =>
        summary.cost ++ " - " ++ summary.payment ++ " = [bold green]" ++ remainder ++ "[/bold green]"
    | none =>
        "[red]Can't pay[/red] " ++ summary.payment ++ " [red]from[/red] " ++ summary.cost
  { exitCode := if summary.paid then 0 else 1
    record := summary.report
    plain := [.styled plain]
    log := LogLine.ofSettlement settlement }

/-- The result of comparing two costs. -/
def ofComparison
    (escape : String → String)
    (left right : Cost) :
    Result :=
  let summary := Report.ComparisonSummary.of left right
  let partition := Partition.of left right
  let table : Report.Table := {
    title := summary.left ++ " vs " ++ summary.right
    columns := [⟨"Only A", .center, none⟩, ⟨"Both", .center, none⟩, ⟨"Only B", .center, none⟩]
    rows := [[partition.leftOnly, partition.both, partition.rightOnly].map
      (Report.styledCost escape)] }
  let relation := "[dim]Relation:[/dim] [bold]" ++ summary.relation.label ++ "[/bold]"
  quiet summary.report [.table table, .styled relation]

/-- The result of looking a color set up. -/
def ofColorSet
    (set : ColorSet) :
    Result :=
  let summary := Report.ColorSetSummary.of set
  let letters := if summary.colors.isEmpty then "-" else String.ofList summary.colors
  let first :=
    "[bold]" ++ summary.name ++ "[/bold] (" ++ letters ++ ", mask " ++ toString summary.mask ++ ")"
  let others := summary.aliases.drop 1
  let also :=
    if others.isEmpty then []
    else [.styled ("  [dim]also:[/dim] " ++ ", ".intercalate others)]
  quiet summary.report (.styled first :: also)

end Result

namespace Task

/-- The policy of a payment: what the flags say, and what the settings say otherwise. -/
def policy
    (settings : Settings)
    (strict? colorPaysGeneric? : Option Bool) :
    Policy where
  colorPaysGeneric := colorPaysGeneric?.getD settings.policy.colorPaysGeneric
  failOnExcess := strict?.getD settings.policy.failOnExcess

/-- The result of a task.  Every operand but rules text is read without the blanks around it. -/
def result
    (escape : String → String)
    (settings : Settings) :
    Task → Except Fault Result
  | .parse cost => (Cost.ofText (stripped cost)).map (.ofCost escape)
  | .symbol token => (Symbol.ofText (stripped token)).map (.ofSymbol escape)
  | .scan text => .ok (.ofText text)
  | .pay cost payment strict? colorPaysGeneric? =>
      let policy := policy settings strict? colorPaysGeneric?
      (Settlement.ofTexts (stripped cost) (stripped payment) policy).map .ofSettlement
  | .compare left right =>
      match Cost.ofText (stripped left) with
      | .error fault => .error fault
      | .ok left => (Cost.ofText (stripped right)).map (.ofComparison escape left)
  | .colors name => (ColorSet.ofText (stripped name)).map .ofColorSet

end Task

namespace Request

/-- The text of a result: a record with a line break behind it, or what the console writes. -/
def output
    (console : Report.Console)
    (settings : Settings)
    (request : Request)
    (result : Result) :
    Except WriteFault String :=
  if request.json then
    (indentWidth settings.jsonIndent).map fun width => result.record.write width ++ "\n"
  else
    match result.plain.mapM console.print? with
    | some texts => .ok (String.join texts)
    | none => .error .console

/-- What a request comes to. -/
def outcome
    (platform : Platform)
    (settings : Settings)
    (showsLog : Bool)
    (request : Request) :
    Outcome :=
  match request.task.result platform.escape settings with
  | .error fault =>
      match platform.errors.print? (.styled ("[red]Error:[/red] " ++ platform.escape fault.message))
      with
      | some errors => .finished 2 "" errors
      | none => .unwritten .console
  | .ok result =>
      match request.output platform.output settings result with
      | .error fault => .unwritten fault
      | .ok output =>
          let errors := if showsLog then String.join (result.log.map LogLine.text) else ""
          .finished result.exitCode output errors

end Request

/-- What arguments come to under the settings of a source.  An unknown command is found before bad
settings, and bad settings before wrongly used arguments of the command. -/
def run
    (platform : Platform)
    (source : Settings.Source)
    (arguments : List String) :
    Outcome :=
  match platform.parser.call? arguments with
  | none => .misused
  | some call =>
      match Settings.ofSource source with
      | .error settings => .badSettings settings
      | .ok settings =>
          match showsLog (if call.verbose then "DEBUG" else settings.logLevel) with
          | .error fault => .badLogLevel fault
          | .ok showsLog =>
              match platform.parser.request? call with
              | none => .misused
              | some request => request.outcome platform settings showsLog

end ManaCost.CommandLine
