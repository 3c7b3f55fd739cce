import ManaCost.Environment
import ManaCost.Proofs.CommandLine.Arguments
import ManaCost.Proofs.Report.Decoding
import ManaCost.Proofs.Report.Markup
import ManaCost.Proofs.Settings
import ManaCost.Proofs.Settlement

namespace ManaCost.CommandLine

open Settlement

/-!
# Paying from the command line

A payment ends with one verdict, its exit code, whatever the form in which it is asked for and
reported.  The main statement is `run_pay`.  It holds on every platform whose parser takes payments
and whose consoles print what a payment hands to them.
-/

/-- What is relied on of consoles: verbatim texts and tags that are closed are printed, and so is an
escaped message behind the label of faults. -/
structure Platform.Prints
    (platform : Platform) :
    Prop where
  output : ∀ {markup text : String}, Report.Spells markup text →
    ∃ printed, platform.output.print? (.styled markup) = some printed
  errors : ∀ message : String, ∃ printed,
    platform.errors.print? (.styled ("[red]Error:[/red] " ++ platform.escape message)) =
      some printed

/-- The plain consoles print whatever they are handed. -/
theorem Platform.prints_plain :
    Platform.plain.Prints where
  output _ := ⟨_, rfl⟩
  errors _ := ⟨_, rfl⟩

/-- The exit code is two for a refused text, one for a payment that fails, and zero for one that is
made. -/
structure IsVerdict
    (cost payment : String)
    (policy : Policy)
    (exitCode : Nat) :
    Prop where
  le_two : exitCode ≤ 2
  eq_two_iff : exitCode = 2 ↔ Refused cost ∨ Refused payment
  eq_one_iff : exitCode = 1 ↔
    ∃ payer paid shortage, Settles cost payment policy payer paid (.error shortage)
  eq_zero_iff : exitCode = 0 ↔
    ∃ payer paid remainder, Settles cost payment policy payer paid (.ok remainder)

/-- A flag decides when it is given, and the settings otherwise. -/
structure IsEffective
    (settings : Settings)
    (strict? colorPaysGeneric? : Option Bool)
    (policy : Policy) :
    Prop where
  failOnExcess : policy.failOnExcess = strict?.getD settings.policy.failOnExcess
  colorPaysGeneric :
    policy.colorPaysGeneric = colorPaysGeneric?.getD settings.policy.colorPaysGeneric

/-- What a record says of a remainder; nothing remains of a payment that fails. -/
def saidOfRemainder : Except Shortage Bill → Report.Decoded
  | .ok remainder => .text remainder.cost.text
  | .error _ => .null

/-- What a record says of a payment and of what came of it. -/
def saidOf
    (policy : Policy)
    (payer paid : Bill)
    (outcome : Except Shortage Bill) :
    Report.Decoded :=
  .record [
    ("cost", .text payer.cost.text),
    ("payment", .text paid.cost.text),
    ("paid", .bool outcome.isOk),
    ("remainder", saidOfRemainder outcome),
    ("color_pays_generic", .bool policy.colorPaysGeneric),
    ("fail_on_excess", .bool policy.failOnExcess)]

/-- The line that shows a payment and what came of it. -/
def lineOf
    (payer paid : Bill) :
    Except Shortage Bill → String
  | .ok remainder => payer.cost.text ++ " - " ++ paid.cost.text ++ " = " ++ remainder.cost.text
  | .error _ => "Can't pay " ++ paid.cost.text ++ " from " ++ payer.cost.text

/-- An output shows a payment: it says the record, or it is what the console prints when it is handed
the line with its styles. -/
inductive Shows
    (console : Report.Console)
    (policy : Policy)
    (payer paid : Bill)
    (outcome : Except Shortage Bill) :
    Bool → String → Prop where
  | record
      {output : String}
      (isRead : Report.decode? output = some (saidOf policy payer paid outcome)) :
      Shows console policy payer paid outcome true output
  | line
      {markup output : String}
      (spells : Report.Spells markup (lineOf payer paid outcome))
      (prints : console.print? (.styled markup) = some output) :
      Shows console policy payer paid outcome false output

/-- A run ends with an exit code, and shows what came of the payment unless a text is refused. -/
def Reports
    (platform : Platform)
    (cost payment : String)
    (policy : Policy)
    (json : Bool)
    (exitCode : Nat)
    (ending : Outcome) :
    Prop :=
  ∃ output errors, ending = .finished exitCode output errors ∧
    ∀ payer paid outcome, Settles cost payment policy payer paid outcome →
      Shows platform.output policy payer paid outcome json output

variable {cost payment : String} {policy : Policy}

/-- The verdict on a refused text. -/
theorem isVerdict_of_refused
    (refused : Refused cost ∨ Refused payment)
    (policy : Policy) :
    IsVerdict cost payment policy 2 where
  le_two := le_rfl
  eq_two_iff := iff_of_true rfl refused
  eq_one_iff := by
    refine iff_of_false (by decide) ?_
    rintro ⟨_, _, _, settles⟩
    exact settles.not_refused refused
  eq_zero_iff := by
    refine iff_of_false (by decide) ?_
    rintro ⟨_, _, _, settles⟩
    exact settles.not_refused refused

/-- The verdict on a payment that fails. -/
theorem isVerdict_of_error
    {payer paid : Bill}
    {shortage : Shortage}
    (settles : Settles cost payment policy payer paid (.error shortage)) :
    IsVerdict cost payment policy 1 where
  le_two := by decide
  eq_two_iff := iff_of_false (by decide) settles.not_refused
  eq_one_iff := iff_of_true rfl ⟨payer, paid, shortage, settles⟩
  eq_zero_iff := by
    refine iff_of_false (by decide) ?_
    rintro ⟨_, _, _, made⟩
    exact nomatch (settles.unique made).2.2

/-- The verdict on a payment that is made. -/
theorem isVerdict_of_ok
    {payer paid remainder : Bill}
    (settles : Settles cost payment policy payer paid (.ok remainder)) :
    IsVerdict cost payment policy 0 where
  le_two := by decide
  eq_two_iff := iff_of_false (by decide) settles.not_refused
  eq_one_iff := by
    refine iff_of_false (by decide) ?_
    rintro ⟨_, _, _, failed⟩
    exact nomatch (settles.unique failed).2.2
  eq_zero_iff := iff_of_true rfl ⟨payer, paid, remainder, settles⟩

/-! ## Reports of a settlement -/

variable {settlement : Settlement}

theorem decoded_record
    (settlement : Settlement) :
    (Result.ofSettlement settlement).record.decoded =
      saidOf settlement.policy settlement.payer settlement.payment settlement.outcome := by
  obtain ⟨payer, payment, policy, outcome⟩ := settlement
  cases outcome <;> rfl

/-- The plain form of a settlement is one line. -/
theorem exists_plain_eq
    (settlement : Settlement) :
    ∃ markup, (Result.ofSettlement settlement).plain = [.styled markup] ∧
      Report.Spells markup (lineOf settlement.payer settlement.payment settlement.outcome) := by
  obtain ⟨payer, payment, policy, outcome⟩ := settlement
  have plain {text : String} (isVerbatim : Report.IsVerbatim text) : Report.Spells text text :=
    .verbatim isVerbatim
  have costText := plain (Report.isVerbatim_text payer.cost)
  have paymentText := plain (Report.isVerbatim_text payment.cost)
  have blank : Report.Spells " " " " := plain (by simp [Report.IsVerbatim, Report.markupChars])
  cases outcome with
  | ok remainder =>
      have minus : Report.Spells " - " " - " :=
        plain (by simp [Report.IsVerbatim, Report.markupChars])
      have equals : Report.Spells " = " " = " :=
        plain (by simp [Report.IsVerbatim, Report.markupChars])
      have bold : Report.IsStyle "bold green" := by simp [Report.IsStyle]
      have spells := (((costText.append minus).append paymentText).append equals).append
        ((plain (Report.isVerbatim_text remainder.cost)).tagged bold)
      have markup :
          payer.cost.text ++ " - " ++ payment.cost.text ++ " = [bold green]" ++
              remainder.cost.text ++ "[/bold green]" =
            payer.cost.text ++ " - " ++ payment.cost.text ++ " = " ++
              ("[" ++ "bold green" ++ "]" ++ remainder.cost.text ++
                "[/" ++ "bold green" ++ "]") := by
        simp [← String.toList_inj]
      rw [← markup] at spells
      exact ⟨_, rfl, spells⟩
  | error shortage =>
      have failed : Report.Spells "Can't pay" "Can't pay" :=
        plain (by simp [Report.IsVerbatim, Report.markupChars])
      have origin : Report.Spells "from" "from" :=
        plain (by simp [Report.IsVerbatim, Report.markupChars])
      have red : Report.IsStyle "red" := by simp [Report.IsStyle]
      have spells := ((((((failed.tagged red).append blank).append paymentText).append blank).append
        (origin.tagged red)).append blank).append costText
      have markup :
          "[red]Can't pay[/red] " ++ payment.cost.text ++ " [red]from[/red] " ++ payer.cost.text =
            "[" ++ "red" ++ "]" ++ "Can't pay" ++ "[/" ++ "red" ++ "]" ++ " " ++ payment.cost.text ++
              " " ++ ("[" ++ "red" ++ "]" ++ "from" ++ "[/" ++ "red" ++ "]") ++ " " ++
                payer.cost.text := by
        simp [← String.toList_inj]
      have line : lineOf payer payment (.error shortage) =
          "Can't pay" ++ " " ++ payment.cost.text ++ " " ++ "from" ++ " " ++ payer.cost.text := by
        simp [← String.toList_inj, lineOf]
      rw [← markup, ← line] at spells
      exact ⟨_, rfl, spells⟩

/-- The exit code of a report is zero when the payment was made, and one otherwise. -/
theorem exitCode_ofSettlement
    (settlement : Settlement) :
    (Result.ofSettlement settlement).exitCode = if settlement.outcome.isOk then 0 else 1 := by
  obtain ⟨payer, payment, policy, outcome⟩ := settlement
  cases outcome <;> rfl

/-! ## Runs -/

variable {platform : Platform} {source : Settings.Source} {settings : Settings}
  {strict? colorPaysGeneric? : Option Bool} {json isVerbose : Bool}

/-- Arguments that ask for a payment come to what their request comes to, with or without a log. -/
theorem AsksToPay.exists_run_eq
    {arguments : List String}
    (asks : AsksToPay cost payment strict? colorPaysGeneric? json isVerbose arguments)
    (takes : platform.parser.TakesPayments)
    (found : settings.AreFound source)
    (hasLevel : ∃ isShown, showsLog settings.logLevel = .ok isShown) :
    ∃ isShown, run platform source arguments =
      Request.outcome platform settings isShown
        ⟨.pay cost payment strict? colorPaysGeneric?, json⟩ := by
  cases asks with
  | intro calls gives strict colorPaysGeneric form =>
      obtain ⟨isShown, level⟩ : ∃ isShown,
          showsLog (if isVerbose then "DEBUG" else settings.logLevel) = .ok isShown := by
        cases isVerbose with
        | false => exact hasLevel
        | true =>
            have debug : showsLog "DEBUG" = .ok true := by decide +kernel
            exact ⟨true, debug⟩
      exact ⟨isShown, by
        simp only [run, takes.call calls, Settings.ofSource_eq_ok_iff.2 found, level,
          takes.request gives strict colorPaysGeneric form]⟩

/-- Where the report can be written, the output shows the settlement. -/
theorem exists_output_eq
    (prints : platform.Prints)
    (canIndent : json = true → ∃ width, indentWidth settings.jsonIndent = .ok width)
    (task : Task)
    (settlement : Settlement) :
    ∃ output,
      Request.output platform.output settings ⟨task, json⟩ (.ofSettlement settlement) =
          .ok output ∧
        Shows platform.output settlement.policy settlement.payer settlement.payment
          settlement.outcome json output := by
  cases json with
  | false =>
      obtain ⟨markup, plain, spells⟩ := exists_plain_eq settlement
      obtain ⟨printed, isPrinted⟩ := prints.output spells
      refine ⟨printed, ?_, .line spells isPrinted⟩
      simp [Request.output, plain, isPrinted]
  | true =>
      obtain ⟨width, fits⟩ := canIndent rfl
      refine ⟨(Result.ofSettlement settlement).record.write width ++ "\n", ?_, .record ?_⟩
      · simp [Request.output, fits, Except.map]
      · rw [(Report.decode?_write width _).2, decoded_record]

/-- A request for a payment that is settled reports its verdict. -/
theorem reports_of_settled
    (prints : platform.Prints)
    (settled : Settlement.ofTexts (stripped cost) (stripped payment)
      (Task.policy settings strict? colorPaysGeneric?) = .ok settlement)
    (canIndent : json = true → ∃ width, indentWidth settings.jsonIndent = .ok width)
    (isShown : Bool) :
    Reports platform (stripped cost) (stripped payment)
      (Task.policy settings strict? colorPaysGeneric?) json
      (if settlement.outcome.isOk then 0 else 1)
      (Request.outcome platform settings isShown
        ⟨.pay cost payment strict? colorPaysGeneric?, json⟩) := by
  obtain ⟨samePolicy, settles⟩ := ofTexts_eq_ok_iff.1 settled
  obtain ⟨output, written, shows⟩ := exists_output_eq prints canIndent
    (.pay cost payment strict? colorPaysGeneric?) settlement
  obtain ⟨errors, ending⟩ : ∃ errors,
      Request.outcome platform settings isShown
          ⟨.pay cost payment strict? colorPaysGeneric?, json⟩ =
        .finished (if settlement.outcome.isOk then 0 else 1) output errors := by
    simp [Request.outcome, Task.result, settled, Except.map, written, exitCode_ofSettlement]
  refine ⟨output, errors, ending, fun payer paid outcome other => ?_⟩
  obtain ⟨rfl, rfl, rfl⟩ := settles.unique other
  exact samePolicy ▸ shows

/-- A request for a payment with a refused text ends with exit code two. -/
theorem reports_of_refused
    (prints : platform.Prints)
    (refused : Refused (stripped cost) ∨ Refused (stripped payment))
    (json isShown : Bool) :
    Reports platform (stripped cost) (stripped payment)
      (Task.policy settings strict? colorPaysGeneric?) json 2
      (Request.outcome platform settings isShown
        ⟨.pay cost payment strict? colorPaysGeneric?, json⟩) := by
  cases settled : Settlement.ofTexts (stripped cost) (stripped payment)
      (Task.policy settings strict? colorPaysGeneric?) with
  | ok settlement => exact absurd refused (ofTexts_eq_ok_iff.1 settled).2.not_refused
  | error fault =>
      obtain ⟨printed, isPrinted⟩ := prints.errors fault.message
      refine ⟨"", printed, ?_, fun _ _ _ settles => absurd refused settles.not_refused⟩
      simp only [Request.outcome, Task.result, settled, Except.map, isPrinted]

/-- A payment request has one verdict under its policy, and every form of it reports that. -/
theorem exists_verdict
    (prints : platform.Prints)
    (settings : Settings)
    (cost payment : String)
    (strict? colorPaysGeneric? : Option Bool) :
    ∃ exitCode,
      IsVerdict (stripped cost) (stripped payment)
          (Task.policy settings strict? colorPaysGeneric?) exitCode ∧
        ∀ json isShown, (json = true → ∃ width, indentWidth settings.jsonIndent = .ok width) →
          Reports platform (stripped cost) (stripped payment)
            (Task.policy settings strict? colorPaysGeneric?) json exitCode
            (Request.outcome platform settings isShown
              ⟨.pay cost payment strict? colorPaysGeneric?, json⟩) := by
  let policy : Policy := Task.policy settings strict? colorPaysGeneric?
  -- What the texts are decides the verdict; the form of the report only has to follow it.
  by_cases refused : Refused (stripped cost) ∨ Refused (stripped payment)
  · exact ⟨2, isVerdict_of_refused refused _, fun json isShown _ =>
      reports_of_refused prints refused json isShown⟩
  · obtain ⟨payer, paid, outcome, settles⟩ : ∃ payer paid outcome,
        Settles (stripped cost) (stripped payment) policy payer paid outcome :=
      exists_settles_iff.2 refused
    have settled : Settlement.ofTexts (stripped cost) (stripped payment) policy =
        .ok ⟨payer, paid, policy, outcome⟩ := ofTexts_eq_ok_iff.2 ⟨rfl, settles⟩
    refine ⟨if outcome.isOk then 0 else 1, ?_, fun json isShown canIndent =>
      reports_of_settled prints settled canIndent isShown⟩
    cases outcome with
    | ok remainder => exact isVerdict_of_ok settles
    | error shortage => exact isVerdict_of_error settles

/--
A payment ends with one verdict on its stripped texts, under the flags that are given and the
settings otherwise.  Its exit code is that of all arguments that ask for the payment, with or without
a log and whatever the form of the report, and both forms show what came of the payment.
-/
theorem run_pay
    {platform : Platform}
    (takes : platform.parser.TakesPayments)
    (prints : platform.Prints)
    {source : Settings.Source}
    {settings : Settings}
    (found : settings.AreFound source)
    (hasLevel : ∃ isShown, showsLog settings.logLevel = .ok isShown)
    (cost payment : String)
    (strict? colorPaysGeneric? : Option Bool) :
    ∃ policy exitCode,
      IsEffective settings strict? colorPaysGeneric? policy ∧
        IsVerdict (stripped cost) (stripped payment) policy exitCode ∧
          ∀ json isVerbose,
            (json = true → ∃ width, indentWidth settings.jsonIndent = .ok width) →
              (∃ arguments,
                AsksToPay cost payment strict? colorPaysGeneric? json isVerbose arguments) ∧
                ∀ arguments,
                  AsksToPay cost payment strict? colorPaysGeneric? json isVerbose arguments →
                    Reports platform (stripped cost) (stripped payment) policy json exitCode
                      (run platform source arguments) := by
  obtain ⟨exitCode, verdict, reports⟩ :=
    exists_verdict prints settings cost payment strict? colorPaysGeneric?
  refine ⟨_, exitCode, ⟨rfl, rfl⟩, verdict, fun json isVerbose canIndent => ⟨?_, ?_⟩⟩
  · exact exists_asksToPay cost payment strict? colorPaysGeneric? json isVerbose
  · intro arguments asks
    obtain ⟨isShown, outcome⟩ := asks.exists_run_eq takes found hasLevel
    exact outcome ▸ reports json isShown canIndent

/-- Settings of which one stands in the environment and one in a file. -/
def unindented : Settings.Source :=
  .ofVariables [("COLOR_PAYS_GENERIC", "no")] [("json_indent", "0")]

/-- Arguments that ask for a strict payment, in JSON. -/
def payInJson : List String :=
  ["-v", "pay", "--lenient", " {2}{U}", "--strict", "--color-pays-generic", "--json", "{W}{U} "]

/-- Arguments that ask for the same payment in a line. -/
def payInLine : List String :=
  ["pay", "--strict", "--color-pays-generic", "--", " {2}{U}", "{W}{U} "]

/-- The last of two opposite flags counts, and a flag counts more than the settings. -/
theorem run_pay_white_blue :
    Platform.plain.parser.TakesPayments ∧ Platform.plain.Prints ∧
      (⟨"INFO", ⟨false, false⟩, 0⟩ : Settings).AreFound unindented ∧
        (∃ isShown, showsLog "INFO" = .ok isShown) ∧ (∃ width, indentWidth 0 = .ok width) ∧
          AsksToPay " {2}{U}" "{W}{U} " (some true) (some true) true true payInJson ∧
            AsksToPay " {2}{U}" "{W}{U} " (some true) (some true) false false payInLine ∧
              (∃ output errors, run .plain unindented payInJson = .finished 0 output errors ∧
                Report.decode? output = some (.record [
                  ("cost", .text "{2}{U}"),
                  ("payment", .text "{W}{U}"),
                  ("paid", .bool true),
                  ("remainder", .text "{1}"),
                  ("color_pays_generic", .bool true),
                  ("fail_on_excess", .bool true)])) ∧
                ∃ errors, run .plain unindented payInLine =
                  .finished 0 "{2}{U} - {W}{U} = {1}\n" errors := by
  have found : (⟨"INFO", ⟨false, false⟩, 0⟩ : Settings).AreFound unindented :=
    Settings.ofSource_eq_ok_iff.1 (by decide +kernel)
  have hasLevel : ∃ isShown, showsLog "INFO" = .ok isShown :=
    ⟨false, by decide +kernel⟩
  have canIndent : ∃ width, indentWidth 0 = .ok width :=
    ⟨0, by decide +kernel⟩
  have givesJson : Gives Command.pay.flags
      ["--lenient", " {2}{U}", "--strict", "--color-pays-generic", "--json", "{W}{U} "]
      [.lenient, .strict, .colorPaysGeneric, .json] [" {2}{U}", "{W}{U} "] :=
    @Gives.flag _ .lenient _ _ _ (by decide) <| .operand (.inr (by decide)) <|
      @Gives.flag _ .strict _ _ _ (by decide) <|
        @Gives.flag _ .colorPaysGeneric _ _ _ (by decide) <|
          @Gives.flag _ .json _ _ _ (by decide) <| .operand (.inr (by decide)) .nil
  have asksJson : AsksToPay " {2}{U}" "{W}{U} " (some true) (some true) true true payInJson :=
    .intro (.verbose (by decide) .name) givesJson ((Flag.choice?_eq_iff (by decide)).1 rfl)
      ((Flag.choice?_eq_iff (by decide)).1 rfl) (by decide)
  have asksLine : AsksToPay " {2}{U}" "{W}{U} " (some true) (some true) false false payInLine :=
    .intro .name (gives_names (by decide : [Flag.strict, .colorPaysGeneric] ⊆ _) _)
      ((Flag.choice?_eq_iff (by decide)).1 rfl) ((Flag.choice?_eq_iff (by decide)).1 rfl)
        (by decide)
  have settles : Settles "{2}{U}" "{W}{U}" .covering
      (.classify (.ofSymbols [.generic .two, .pip .blue]))
      (.classify (.ofSymbols [.pip .white, .pip .blue]))
      (.ok (.classify (.ofSymbols [.generic .one]))) :=
    ⟨by decide +kernel, by decide +kernel, by decide +kernel⟩
  have costText : (Cost.ofSymbols [.generic .two, .pip .blue]).text = "{2}{U}" := by
    decide +kernel
  have paymentText : (Cost.ofSymbols [.pip .white, .pip .blue]).text = "{W}{U}" := by
    decide +kernel
  have remainderText : (Cost.ofSymbols [.generic .one]).text = "{1}" := by
    decide +kernel
  obtain ⟨⟨colorPaysGeneric, failOnExcess⟩, exitCode, effective, verdict, reports⟩ :=
    run_pay Parser.takesPayments_plain Platform.prints_plain found hasLevel " {2}{U}" "{W}{U} "
      (some true) (some true)
  obtain rfl : failOnExcess = true := effective.failOnExcess
  obtain rfl : colorPaysGeneric = true := effective.colorPaysGeneric
  have costStripped : stripped " {2}{U}" = "{2}{U}" := by decide +kernel
  have paymentStripped : stripped "{W}{U} " = "{W}{U}" := by decide +kernel
  rw [costStripped, paymentStripped] at verdict reports
  obtain rfl : exitCode = 0 := verdict.eq_zero_iff.2 ⟨_, _, _, settles⟩
  refine ⟨Parser.takesPayments_plain, Platform.prints_plain, found, hasLevel, canIndent, asksJson,
    asksLine, ?_, ?_⟩
  · obtain ⟨output, errors, ending, shows⟩ :=
      (reports true true fun _ => canIndent).2 payInJson asksJson
    cases shows _ _ _ settles with
    | record isRead =>
        simp only [saidOf, saidOfRemainder, Except.isOk, Except.toBool, Bill.cost_classify, costText,
          paymentText, remainderText] at isRead
        exact ⟨output, errors, ending, isRead⟩
  · obtain ⟨output, errors, ending, shows⟩ :=
      (reports false false nofun).2 payInLine asksLine
    cases shows _ _ _ settles with
    | line spells prints =>
        have printed := prints.symm.trans (Report.print?_plain_of_spells spells)
        simp only [lineOf, Bill.cost_classify, costText, paymentText, remainderText,
          Option.some.injEq] at printed
        obtain rfl : output = "{2}{U} - {W}{U} = {1}\n" := printed.trans (by decide +kernel)
        exact ⟨errors, ending⟩

end ManaCost.CommandLine
