import Mathlib
import ManaCost.CommandLine.Plain

namespace ManaCost.CommandLine

/-!
# What arguments ask for

Arguments are described by the ways to write them: `Calls` says how a command is called, `Gives` how
its flags and operands may be mixed, and `Flag.Chooses` which of two opposite flags counts.  What is
relied on of a parser is `Parser.TakesPayments`: that it reads a payment that is asked for in these
ways.  The main statements are `Parser.takesPayments_plain`, by which the plain parser does, and
`exists_asksToPay`, by which every payment can be asked for.
-/

namespace Flag

theorem name_injective
    {left right : Flag}
    (same : left.name = right.name) :
    left = right := by
  revert same
  cases left <;> cases right <;> decide

theorem name_ne_hyphens
    (flag : Flag) :
    flag.name ≠ "--" := by
  cases flag <;> decide

theorem looksLikeFlag_name
    (flag : Flag) :
    looksLikeFlag flag.name = true := by
  cases flag <;> decide

theorem find?_name
    {allowed : List Flag}
    {flag : Flag}
    (isAllowed : flag ∈ allowed) :
    (allowed.find? fun other => other.name == flag.name) = some flag := by
  induction allowed with
  | nil => exact absurd isAllowed List.not_mem_nil
  | cons first rest inductionHypothesis =>
      by_cases same : first = flag
      · simp [same]
      · have different : first.name ≠ flag.name := same ∘ name_injective
        have inRest : flag ∈ rest := (List.mem_cons.1 isAllowed).resolve_left (Ne.symm same)
        simpa [different] using inductionHypothesis inRest

/-- Of two opposite flags the last one that is given chooses. -/
inductive Chooses (yes no : Flag) : List Flag → Option Bool → Prop where
  | neither
      {given : List Flag}
      (noYes : yes ∉ given)
      (noNo : no ∉ given) :
      Chooses yes no given none
  | yes
      {before after : List Flag}
      (noYes : yes ∉ after)
      (noNo : no ∉ after) :
      Chooses yes no (before ++ yes :: after) (some true)
  | no
      {before after : List Flag}
      (noYes : yes ∉ after)
      (noNo : no ∉ after) :
      Chooses yes no (before ++ no :: after) (some false)

variable {yes no : Flag} {given after : List Flag}

theorem find?_reverse_eq_none
    (noYes : yes ∉ given)
    (noNo : no ∉ given) :
    (given.reverse.find? fun flag => flag == yes || flag == no) = none := by
  simp only [List.find?_eq_none, List.mem_reverse, Bool.or_eq_true, beq_iff_eq, not_or]
  intro flag member
  exact ⟨fun isYes => noYes (isYes ▸ member), fun isNo => noNo (isNo ▸ member)⟩

theorem choice?_eq_iff
    (different : yes ≠ no)
    {choice : Option Bool} :
    choice? given yes no = choice ↔ Chooses yes no given choice := by
  constructor
  · rintro rfl
    unfold choice?
    cases found : given.reverse.find? fun flag => flag == yes || flag == no with
    | none =>
        simp only [List.find?_eq_none, List.mem_reverse] at found
        exact .neither (fun member => found yes member (by simp))
          (fun member => found no member (by simp))
    | some flag =>
        obtain ⟨isEither, later, earlier, reversed, others⟩ :=
          List.find?_eq_some_iff_append.1 found
        have shape : given = earlier.reverse ++ flag :: later.reverse := by
          rw [← List.reverse_reverse given, reversed]
          simp
        have noYes : yes ∉ later.reverse := by
          intro member
          simpa using others yes (List.mem_reverse.1 member)
        have noNo : no ∉ later.reverse := by
          intro member
          simpa using others no (List.mem_reverse.1 member)
        rw [shape, Option.map_some]
        rcases Bool.or_eq_true_iff.1 isEither with isYes | isNo
        · obtain rfl := eq_of_beq isYes
          exact beq_self_eq_true flag ▸ .yes noYes noNo
        · obtain rfl := eq_of_beq isNo
          exact beq_false_of_ne (Ne.symm different) ▸ .no noYes noNo
  · intro chooses
    cases chooses with
    | neither noYes noNo => simp [choice?, find?_reverse_eq_none noYes noNo]
    | yes noYes noNo => simp [choice?, find?_reverse_eq_none noYes noNo]
    | no noYes noNo => simp [choice?, find?_reverse_eq_none noYes noNo, Ne.symm different]

end Flag

/-- The operand cannot be taken for a flag: it is a single hyphen, or does not begin with one. -/
def IsPlainOperand
    (operand : String) :
    Prop :=
  operand = "-" ∨ operand.toList.head? ≠ some '-'

/-- Flags that a command allows and operands, in any order.  Behind a double hyphen everything is an
operand, and in front of one whatever cannot be taken for a flag. -/
inductive Gives (allowed : List Flag) : List String → List Flag → List String → Prop where
  | nil : Gives allowed [] [] []
  | hyphens (operands : List String) : Gives allowed ("--" :: operands) [] operands
  | flag
      {flag : Flag}
      {arguments operands : List String}
      {given : List Flag}
      (isAllowed : flag ∈ allowed)
      (others : Gives allowed arguments given operands) :
      Gives allowed (flag.name :: arguments) (flag :: given) operands
  | operand
      {operand : String}
      {arguments operands : List String}
      {given : List Flag}
      (plain : IsPlainOperand operand)
      (others : Gives allowed arguments given operands) :
      Gives allowed (operand :: arguments) given (operand :: operands)

/-- A command is called by its name, behind requests for verbose logging and perhaps a double
hyphen. -/
inductive Calls (command : Command) (own : List String) : Bool → List String → Prop where
  | name : Calls command own false (command.name :: own)
  | hyphens : Calls command own false ("--" :: command.name :: own)
  | verbose
      {isVerbose : Bool}
      {argument : String}
      {arguments : List String}
      (asks : argument ∈ verbosityFlags)
      (others : Calls command own isVerbose arguments) :
      Calls command own true (argument :: arguments)

/-- What is relied on of a parser: it finds the payment command with its own arguments, and reads
these as the operands and the flags that are given. -/
structure Parser.TakesPayments
    (parser : Parser) :
    Prop where
  call : ∀ {own arguments : List String} {isVerbose : Bool},
    Calls .pay own isVerbose arguments →
      parser.call? arguments = some ⟨isVerbose, .pay, own⟩
  request : ∀ {own : List String} {isVerbose : Bool} {given : List Flag} {cost payment : String}
      {strict? colorPaysGeneric? : Option Bool} {json : Bool},
    Gives Command.pay.flags own given [cost, payment] →
      Flag.Chooses .strict .lenient given strict? →
        Flag.Chooses .colorPaysGeneric .noColorPaysGeneric given colorPaysGeneric? →
          (json = true ↔ .json ∈ given) →
            parser.request? ⟨isVerbose, .pay, own⟩ =
              some ⟨.pay cost payment strict? colorPaysGeneric?, json⟩

/-- Arguments that ask to pay one text out of another, with the flags that are given. -/
inductive AsksToPay
    (cost payment : String)
    (strict? colorPaysGeneric? : Option Bool)
    (json isVerbose : Bool) :
    List String → Prop where
  | intro
      {arguments own : List String}
      {given : List Flag}
      (calls : Calls .pay own isVerbose arguments)
      (gives : Gives Command.pay.flags own given [cost, payment])
      (strict : Flag.Chooses .strict .lenient given strict?)
      (colorPaysGeneric :
        Flag.Chooses .colorPaysGeneric .noColorPaysGeneric given colorPaysGeneric?)
      (form : json = true ↔ .json ∈ given) :
      AsksToPay cost payment strict? colorPaysGeneric? json isVerbose arguments

theorem looksLikeFlag_of_isPlainOperand
    {operand : String}
    (plain : IsPlainOperand operand) :
    looksLikeFlag operand = false := by
  rcases plain with rfl | notHyphen
  · decide
  · unfold looksLikeFlag
    split
    · rename_i shape
      exact absurd (congrArg List.head? shape) notHyphen
    · rfl

theorem separate?_eq_of_gives
    {allowed given : List Flag}
    {arguments operands : List String}
    (gives : Gives allowed arguments given operands) :
    separate? allowed arguments = some (given, operands) := by
  induction gives with
  | nil => rfl
  | hyphens operands => simp [separate?]
  | @flag flag arguments operands given isAllowed _ inductionHypothesis =>
      simp [separate?, flag.name_ne_hyphens, flag.looksLikeFlag_name, Flag.find?_name isAllowed,
        inductionHypothesis]
  | @operand operand arguments operands given plain _ inductionHypothesis =>
      have notFlag := looksLikeFlag_of_isPlainOperand plain
      have notHyphens : operand ≠ "--" := by
        rintro rfl
        exact absurd notFlag (by decide)
      simp [separate?, notHyphens, notFlag, inductionHypothesis]

/-- Flags behind which a double hyphen stands may be followed by any operands. -/
theorem gives_names
    {allowed given : List Flag}
    (areAllowed : given ⊆ allowed)
    (operands : List String) :
    Gives allowed (given.map Flag.name ++ "--" :: operands) given operands := by
  induction given with
  | nil => exact .hyphens operands
  | cons flag rest inductionHypothesis =>
      obtain ⟨isAllowed, restAllowed⟩ := List.cons_subset.1 areAllowed
      exact .flag isAllowed (inductionHypothesis restAllowed)

namespace Command

theorem ofName?_name
    (command : Command) :
    ofName? command.name = some command := by
  cases command <;> decide

theorem not_looksLikeFlag_name
    (command : Command) :
    looksLikeFlag command.name = false := by
  cases command <;> decide

theorem name_ne_hyphens
    (command : Command) :
    command.name ≠ "--" := by
  cases command <;> decide

end Command

/-- A call is read as one of its command with the command's own arguments. -/
theorem ofArguments?_eq_of_calls
    {command : Command}
    {own arguments : List String}
    {isVerbose : Bool}
    (calls : Calls command own isVerbose arguments)
    (verbose : Bool) :
    Call.ofArguments? verbose arguments = some ⟨verbose || isVerbose, command, own⟩ := by
  induction calls generalizing verbose with
  | name =>
      simp [Call.ofArguments?, Call.ofCommand?, command.name_ne_hyphens,
        command.not_looksLikeFlag_name, command.ofName?_name]
  | hyphens =>
      simp [Call.ofArguments?, Call.ofCommand?, command.ofName?_name]
  | @verbose _ argument arguments asks _ inductionHypothesis =>
      have isFlag : argument ≠ "--" ∧ looksLikeFlag argument = true ∧
          asksForVerbosity argument = true := by
        revert argument
        simp only [verbosityFlags, List.forall_mem_cons]
        decide
      simp [Call.ofArguments?, isFlag, inductionHypothesis]

/-- The plain parser reads a payment that is asked for. -/
theorem Parser.takesPayments_plain :
    Parser.plain.TakesPayments where
  call calls := by
    have isRead := ofArguments?_eq_of_calls calls false
    rwa [Bool.false_or] at isRead
  request {_ _ given _ _ strict? colorPaysGeneric? json} gives strict colorPaysGeneric form := by
    have strictChoice : Flag.choice? given .strict .lenient = strict? :=
      (Flag.choice?_eq_iff (by decide)).2 strict
    have genericChoice :
        Flag.choice? given .colorPaysGeneric .noColorPaysGeneric = colorPaysGeneric? :=
      (Flag.choice?_eq_iff (by decide)).2 colorPaysGeneric
    have hasJson : given.contains .json = json :=
      Bool.eq_iff_iff.2 (List.contains_iff_mem.trans form.symm)
    simp only [plain, Request.ofCall?, separate?_eq_of_gives gives, Task.of?, Option.map_some,
      strictChoice, genericChoice, hasJson]

/-- Every payment can be asked for, whatever the texts and the flags. -/
theorem exists_asksToPay
    (cost payment : String)
    (strict? colorPaysGeneric? : Option Bool)
    (json isVerbose : Bool) :
    ∃ arguments, AsksToPay cost payment strict? colorPaysGeneric? json isVerbose arguments := by
  let given : List Flag :=
    (strict?.map (cond · Flag.strict .lenient)).toList ++
      (colorPaysGeneric?.map (cond · Flag.colorPaysGeneric .noColorPaysGeneric)).toList ++
        cond json [.json] []
  obtain ⟨strict, colorPaysGeneric, form⟩ :
      Flag.choice? given .strict .lenient = strict? ∧
        Flag.choice? given .colorPaysGeneric .noColorPaysGeneric = colorPaysGeneric? ∧
          (json = true ↔ .json ∈ given) := by
    rcases strict? with _ | _ | _ <;> rcases colorPaysGeneric? with _ | _ | _ <;>
      cases json <;> decide
  have allowed : given ⊆ Command.pay.flags := by
    intro flag _
    cases flag <;> decide
  obtain ⟨arguments, calls⟩ : ∃ arguments,
      Calls .pay (given.map Flag.name ++ "--" :: [cost, payment]) isVerbose arguments := by
    cases isVerbose with
    | false => exact ⟨_, .name⟩
    | true => exact ⟨_, .verbose (List.mem_cons_self) .name⟩
  exact ⟨arguments, .intro calls (gives_names allowed [cost, payment])
    ((Flag.choice?_eq_iff (by decide)).1 strict)
    ((Flag.choice?_eq_iff (by decide)).1 colorPaysGeneric) form⟩

end ManaCost.CommandLine
