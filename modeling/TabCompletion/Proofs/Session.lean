import TabCompletion.CommandLine.Session
import TabCompletion.Proofs.Disk

namespace TabCompletion

/-- A text of which every character can be written. -/
def Charset.Spells (charset : Charset) (text : Text) : Prop :=
  ∀ character ∈ text, charset.has character = true

namespace Console

variable (console : Console) (verbosity : Verbosity) (text : Text)

@[simp]
theorem out_line : (console.line text).out = console.out := rfl

@[simp]
theorem out_info : (console.info verbosity text).out = console.out := by
  unfold info
  split <;> rfl

@[simp]
theorem out_debug : (console.debug verbosity text).out = console.out := by
  unfold debug
  split <;> rfl

/-- Notes are no data. -/
@[simp]
theorem out_notes (notes : List Text) :
    (notes.foldl (fun console note => console.debug verbosity note) console).out = console.out := by
  induction notes generalizing console with
  | nil => rfl
  | cons note notes ih => rw [List.foldl_cons, ih, out_debug]

end Console

namespace CommandLine

@[simp]
theorem Console.out_report (console : Console) (verbosity : Verbosity) (failure : Failure) :
    (Console.report console verbosity failure).out = console.out := by
  unfold Console.report
  simp only [Console.suggestion]
  split
  · rw [Console.out_info]
    rfl
  · rfl

namespace Action

variable {α β : Type}

@[simp]
theorem run_pure (value : α) (session : Session) :
    (pure value : Action α) session = (.ok value, session) := rfl

@[simp]
theorem run_throw (fault : Fault) (session : Session) :
    (throw fault : Action α) session = (.error fault, session) := rfl

@[simp]
theorem run_fail (failure : Failure) (session : Session) :
    (fail failure : Action α) session = (.error (.failure failure), session) := rfl

@[simp]
theorem run_write (step : Console → Console) (session : Session) :
    write step session = (.ok (), { session with console := step session.console }) := rfl

theorem run_bind (action : Action α) (next : α → Action β) (session : Session) :
    (action >>= next) session =
      match action session with
      | (.ok value, session) => next value session
      | (.error fault, session) => (.error fault, session) := by
  change (ExceptT.bindCont next (action session).1) (action session).2 = _
  cases action session with
  | mk result session => cases result <;> rfl

theorem run_print {charset : Charset} {text : Text} (spelled : charset.Spells text) (session : Session) :
    print charset text session = (.ok (), { session with console := session.console.data text }) := by
  have none : text.find? (fun character => !charset.has character) = none :=
    List.find?_eq_none.mpr fun character member => by simp [spelled character member]
  rw [print, none]
  rfl

/-- Nothing is written of a text that has a character that cannot be. -/
theorem run_print_unspelled {charset : Charset} {text : Text} (unspelled : ¬ charset.Spells text)
    (session : Session) :
    ∃ character, print charset text session = (.error (.unencodable character), session) := by
  rw [print]
  cases found : text.find? fun character => !charset.has character with
  | some character => exact ⟨character, rfl⟩
  | none =>
    refine absurd (fun character member => ?_) unspelled
    simpa using List.find?_eq_none.mp found character member

/-- The session once notes have been told and put away. -/
def told (verbosity : Verbosity) (console : Console) (world : World) : Session where
  console := world.notes.foldl (fun console note => console.debug verbosity note) console
  world := { world with notes := [] }

@[simp]
theorem out_told (verbosity : Verbosity) (console : Console) (world : World) :
    (told verbosity console world).console.out = console.out :=
  Console.out_notes ..

@[simp]
theorem files_told (verbosity : Verbosity) (console : Console) (world : World) :
    (told verbosity console world).world.files = world.files := rfl

theorem run_onDisk (verbosity : Verbosity) (action : Disk α) (session : Session) :
    onDisk verbosity action session =
      ((action { session.world with notes := [] }).1,
        told verbosity session.console (action { session.world with notes := [] }).2) := rfl

/-- A look at the world takes no notes, so that only those of before are put away. -/
theorem run_look (verbosity : Verbosity) (view : World → Except Fault α) (next : α → Action β)
    (session : Session) :
    (onDisk verbosity (Disk.look view) >>= next) session =
      match view { session.world with notes := [] } with
      | .ok value => next value { session with world := { session.world with notes := [] } }
      | .error fault => (.error fault, { session with world := { session.world with notes := [] } }) := by
  rw [run_bind, run_onDisk, Disk.run_look]
  cases view { session.world with notes := [] } <;> rfl

theorem run_write_bind (step : Console → Console) (next : Unit → Action β) (session : Session) :
    (write step >>= next) session = next () { session with console := step session.console } := rfl

end Action

variable {host : Host} {recorder : Recorder} {verbosity : Verbosity} {action : Action Int} {world : World}
  {session : Session}

theorem runAction_ok {exitCode : Int} (run : action { world := world } = (.ok exitCode, session)) :
    runAction host recorder verbosity action world =
      (⟨.ok exitCode, session.console⟩, session.world) := by
  rw [runAction, run]

theorem runAction_failure {failure : Failure}
    (run : action { world := world } = (.error (.failure failure), session)) :
    runAction host recorder verbosity action world =
      (⟨.ok failure.exitCode, Console.report session.console verbosity failure⟩, session.world) := by
  rw [runAction, run]

/-- A fault that no rule foresees is logged, and that may come to another fault. -/
theorem runAction_fault {fault : Fault} (unforeseen : ∀ failure, fault ≠ .failure failure)
    (run : action { world := world } = (.error fault, session)) :
    runAction host recorder verbosity action world =
      match writeCrashLog host recorder fault session.world with
      | (.ok path, world) =>
        (⟨.ok 1, session.console.error ("Unexpected error. Debug log: " ++ path.text)⟩, world)
      | (.error fault, world) => (⟨.error fault, session.console⟩, world) := by
  rw [runAction, run]
  cases fault with
  | failure failure => exact absurd rfl (unforeseen failure)
  | _ => rfl

/-- A fault that no rule foresees adds nothing to the data, whether it can be logged or not. -/
theorem runAction_fault_out {fault : Fault} (unforeseen : ∀ failure, fault ≠ .failure failure)
    (run : action { world := world } = (.error fault, session)) :
    let answer := (runAction host recorder verbosity action world).1
    (answer.exit = .ok 1 ∨ ∃ other, answer.exit = .error other) ∧
      answer.console.out = session.console.out := by
  rw [runAction_fault unforeseen run]
  rcases writeCrashLog host recorder fault session.world with ⟨other | path, after⟩
  · exact ⟨Or.inr ⟨other, rfl⟩, rfl⟩
  · exact ⟨Or.inl rfl, rfl⟩

theorem Failure.exitCode_ne_zero (failure : Failure) : failure.exitCode ≠ 0 := by
  rw [Failure.exitCode]
  cases failure.kind <;> decide

/-- A run that ends with zero came to it by itself: no failure and no fault tells zero. -/
theorem runAction_zero (ended : (runAction host recorder verbosity action world).1.exit = .ok 0) :
    ∃ session, action { world := world } = (.ok 0, session) ∧
      runAction host recorder verbosity action world = (⟨.ok 0, session.console⟩, session.world) := by
  rcases run : action { world := world } with ⟨fault | exitCode, session⟩
  · exfalso
    by_cases foreseen : ∃ failure, fault = .failure failure
    · obtain ⟨failure, rfl⟩ := foreseen
      rw [runAction_failure run] at ended
      exact Failure.exitCode_ne_zero failure (Except.ok.inj ended)
    · rw [runAction_fault (fun failure same => foreseen ⟨failure, same⟩) run] at ended
      split at ended <;> cases ended
  · rw [runAction_ok run] at ended
    cases ended
    exact ⟨session, rfl, runAction_ok run⟩

end CommandLine

end TabCompletion
