import TabCompletion.CommandLine.Request

namespace TabCompletion.CommandLine

/-- The words that ask for a verbosity. -/
def verbosityWords (verbosity : Verbosity) : List Text :=
  (if verbosity.noColor then ["--no-color".toList] else []) ++
    (if verbosity.quiet then ["--quiet".toList] else []) ++
      if verbosity.verbose then ["--verbose".toList] else []

/-- The words for a flag that may be given. -/
def flagWords (flag : Text) (given : Bool) : List Text :=
  if given then [flag] else []

/-- The words that name a shell by an option, by an argument, or by both. -/
def shellWords (option argument : Option Text) : List Text :=
  (match option with
    | some shell => [shellOption.long, shell]
    | none => []) ++
    match argument with
    | some shell => ["--".toList, shell]
    | none => []

/-- The shell that such words name. An empty option is none, and any other comes before the
argument. -/
def shellNamed (option argument : Option Text) : Option Text :=
  (option.filter (!·.isEmpty)).or argument

namespace Request

/-- The options of words that name a shell. -/
def shellOptions (option : Option Text) : List Given :=
  option.toList.map (⟨shellOption.long, ·⟩)

theorem long_of_mem_shellOptions {option : Option Text} {given : Given} (member : given ∈ shellOptions option) :
    given.long = shellOption.long := by
  obtain ⟨shell, -, rfl⟩ := List.mem_map.mp member
  rfl

theorem early?_eq_none {parsed : Parsed}
    (plain : ∀ given ∈ parsed.options, given.long ≠ "--help".toList ∧ given.long ≠ "--version".toList) :
    early? parsed = none := by
  refine List.findSome?_eq_none_iff.mpr fun given member => ?_
  obtain ⟨notHelp, notVersion⟩ := plain given member
  rw [if_neg notHelp, if_neg notVersion]

theorem plain_of_mem_shellOptions {option : Option Text} {given : Given} (member : given ∈ shellOptions option) :
    given.long ≠ "--help".toList ∧ given.long ≠ "--version".toList := by
  rw [long_of_mem_shellOptions member]
  decide

/-- Two dashes end the options, so that an argument after them may look like one. -/
theorem parse?_dashes (specs : List OptionSpec) (mingled : Bool) (rest : List Text) :
    parse? specs mingled ("--".toList :: rest) = some ⟨[], rest⟩ := by
  rw [parse?]
  rfl

theorem parse?_shellOption (specs : List OptionSpec) (shell : Text) (rest : List Text) :
    parse? (helpOption :: shellOption :: specs) true (shellOption.long :: shell :: rest) =
      (parse? (helpOption :: shellOption :: specs) true rest).map (Parsed.withOption shellOption.long shell) := by
  rw [parse?]
  rfl

theorem parse?_shellWords (specs : List OptionSpec) (option argument : Option Text) :
    parse? (helpOption :: shellOption :: specs) true (shellWords option argument) =
      some ⟨shellOptions option, argument.toList⟩ := by
  have dashes (argument : Option Text) : parse? (helpOption :: shellOption :: specs) true
      (shellWords none argument) = some ⟨[], argument.toList⟩ := by
    cases argument with
    | none => rfl
    | some shell => exact parse?_dashes _ _ _
  cases option with
  | none => exact dashes argument
  | some shell =>
    have split : shellWords (some shell) argument = shellOption.long :: shell :: shellWords none argument := rfl
    rw [split, parse?_shellOption, dashes]
    rfl

variable (verbosity : Verbosity) (option argument : Option Text)

theorem ofArguments_completion (rest : List Text) :
    ofArguments (verbosityWords verbosity ++ "completion".toList :: rest) = ofCompletion verbosity rest := by
  obtain ⟨noColor, quiet, verbose⟩ := verbosity
  cases noColor <;> cases quiet <;> cases verbose <;> rfl

theorem onShell_eq (request : Option Text → Request) {parsed : Parsed} {option argument : Option Text}
    (value : parsed.value? shellOption.long = option) (arguments : parsed.arguments = argument.toList) :
    onShell request parsed = request (shellNamed option argument) := by
  unfold onShell
  rw [value, arguments]
  cases argument with
  | none => rw [shellNamed, Option.or_none]; rfl
  | some shell => rfl

theorem ofArguments_generate :
    ofArguments (verbosityWords verbosity ++ "completion".toList :: "generate".toList ::
      shellWords option argument) = generate verbosity (shellNamed option argument) := by
  rw [ofArguments_completion]
  change ofLeaf [shellOption] (onShell (generate verbosity)) (shellWords option argument) = _
  rw [ofLeaf, parse?_shellWords]
  dsimp only
  rw [early?_eq_none fun _ => plain_of_mem_shellOptions, Option.getD_none]
  exact onShell_eq _ (by cases option <;> rfl) rfl

/-- A flag before the words that name a shell is noted, and the shell stays the same. -/
theorem ofLeaf_flagged {flag : OptionSpec} (request : Bool → Option Text → Request) (given : Bool)
    (parsed : ∀ rest, parse? [helpOption, shellOption, flag] true (flag.long :: rest) =
      (parse? [helpOption, shellOption, flag] true rest).map (Parsed.withOption flag.long []))
    (apart : flag.long ≠ shellOption.long ∧ flag.long ≠ "--help".toList ∧ flag.long ≠ "--version".toList) :
    ofLeaf [shellOption, flag] (fun parsed => onShell (request (parsed.has flag.long)) parsed)
      (flagWords flag.long given ++ shellWords option argument) =
        request given (shellNamed option argument) := by
  obtain ⟨notShell, plain⟩ := apart
  cases given with
  | false =>
    have absent : Parsed.has ⟨shellOptions option, argument.toList⟩ flag.long = false := by
      refine List.any_eq_false.mpr fun given member => ?_
      rw [long_of_mem_shellOptions member]
      simpa using notShell.symm
    change ofLeaf _ _ (shellWords option argument) = _
    rw [ofLeaf, parse?_shellWords]
    dsimp only
    rw [early?_eq_none fun _ => plain_of_mem_shellOptions, Option.getD_none, absent]
    exact onShell_eq _ (by cases option <;> rfl) rfl
  | true =>
    have present : Parsed.has ⟨⟨flag.long, []⟩ :: shellOptions option, argument.toList⟩ flag.long = true := by
      simp [Parsed.has]
    change ofLeaf _ _ (flag.long :: shellWords option argument) = _
    rw [ofLeaf, parsed, parse?_shellWords]
    dsimp only [Option.map_some, Parsed.withOption]
    rw [early?_eq_none fun given member => ?_, Option.getD_none]
    · rw [present]
      refine onShell_eq _ ?_ rfl
      cases option with
      | none => simp [Parsed.value?, shellOptions, notShell]
      | some shell => simp [Parsed.value?, shellOptions]
    · rcases List.mem_cons.mp member with rfl | later
      · exact plain
      · exact plain_of_mem_shellOptions later

theorem ofArguments_install (detailed : Bool) :
    ofArguments (verbosityWords verbosity ++ "completion".toList :: "install".toList ::
      (flagWords "--verbose" detailed ++ shellWords option argument)) =
        install verbosity (shellNamed option argument) detailed := by
  rw [ofArguments_completion]
  exact ofLeaf_flagged option argument (fun detailed shell => install verbosity shell detailed) detailed
    (fun rest => by rw [parse?]; rfl) (by decide)

theorem ofArguments_uninstall (confirmed : Bool) :
    ofArguments (verbosityWords verbosity ++ "completion".toList :: "uninstall".toList ::
      (flagWords "--yes" confirmed ++ shellWords option argument)) =
        uninstall verbosity (shellNamed option argument) confirmed := by
  rw [ofArguments_completion]
  exact ofLeaf_flagged option argument (fun confirmed shell => uninstall verbosity shell confirmed) confirmed
    (fun rest => by rw [parse?]; rfl) (by decide)

end Request

end TabCompletion.CommandLine
