import TabCompletion.Proofs.Startup

namespace TabCompletion.Installer

open World (Plain Evolves Reaches)

theorem removeFile_evolves {world after : World} {path : Path} (plain : world.Plain)
    (run : world.removeFile path = .ok after) :
    Evolves (fun _ => False) (· = world.spot path) world after := by
  obtain ⟨location, node, located, other, rfl⟩ := World.removeFile_taken run
  obtain ⟨-, rfl, standing⟩ := (plain.locate_taken_iff (by simp)).mp located
  exact Evolves.of_erase plain (by simp [World.hasDirectory_iff standing, other])

/-- How taking the block out of the startup file comes to its end. -/
inductive Clears (startup : Path) (world : World) : Except Fault Bool → World → Prop
  | unseen {fault : Fault} (unseen : world.isFile startup = .error fault) :
      Clears startup world (.error fault) world
  | absent (absent : world.isFile startup = .ok false) : Clears startup world (.ok false) world
  | denied {location : Location} {mode : Nat} {bytes : Bytes}
      (located : world.locate .target startup = .ok (.taken location (.locked mode bytes))) :
      Clears startup world (.error (.refused .denied startup)) world
  | undecodable {location : Location} {mode : Nat} {bytes : Bytes} {invalid : Utf8.Fault}
      (located : world.locate .target startup = .ok (.taken location (.file mode bytes)))
      (undecodable : Utf8.decode bytes = .error invalid) :
      Clears startup world (.error (.undecodable invalid)) world
  | marked {location : Location} {mode : Nat} {bytes : Bytes} {text marker : Text}
      (located : world.locate .target startup = .ok (.taken location (.file mode bytes)))
      (decoded : Utf8.decode bytes = .ok text)
      (removed : Block.remove markers text.unifyNewlines = .error marker) :
      Clears startup world (.error (.failure (.missingMarker (some startup) marker))) world
  | current {location : Location} {mode : Nat} {bytes : Bytes} {text : Text}
      (located : world.locate .target startup = .ok (.taken location (.file mode bytes)))
      (decoded : Utf8.decode bytes = .ok text)
      (removed : Block.remove markers text.unifyNewlines = .ok text.unifyNewlines) :
      Clears startup world (.ok false) world
  | refused {location : Location} {mode : Nat} {bytes : Bytes} {text updated : Text} {fault : Fault}
      (located : world.locate .target startup = .ok (.taken location (.file mode bytes)))
      (decoded : Utf8.decode bytes = .ok text)
      (removed : Block.remove markers text.unifyNewlines = .ok updated)
      (differ : updated ≠ text.unifyNewlines) (refused : world.replaceFault? location = some fault) :
      Clears startup world (.error fault) world
  | written {location : Location} {mode : Nat} {bytes : Bytes} {text updated : Text}
      (located : world.locate .target startup = .ok (.taken location (.file mode bytes)))
      (decoded : Utf8.decode bytes = .ok text)
      (removed : Block.remove markers text.unifyNewlines = .ok updated)
      (differ : updated ≠ text.unifyNewlines) (fine : world.replaceFault? location = none) :
      Clears startup world (.ok true)
        (world.set location (.file (mode % 0o1000) (Utf8.encode updated)))

theorem clears_of_run {startup : Path} {world after : World} {result : Except Fault Bool}
    (plain : world.Plain) (run : removeBlock startup world = (result, after)) :
    Clears startup world result after := by
  have whole := run
  unfold removeBlock at run
  rcases Disk.look_bind_cases run with ⟨fault, unseen, rfl, rfl⟩ | ⟨regular, seen, run⟩
  · exact .unseen unseen
  cases regular with
  | false =>
    cases run
    exact .absent seen
  | true =>
    obtain ⟨location, mode, bytes, located | located⟩ := World.located_of_isFile seen
    case inr =>
      simp only [if_true] at run
      rw [Disk.run_look_bind_error (World.readText_of_locked located)] at run
      cases run
      exact .denied located
    have content := World.readText_of_located located
    cases decoded : Utf8.decode bytes with
    | error invalid =>
      rw [decoded] at content
      simp only [if_true] at run
      rw [Disk.run_look_bind_error content] at run
      cases run
      exact .undecodable located decoded
    | ok text =>
      rw [removeBlock_eq plain located decoded] at whole
      split at whole
      · rename_i removed
        cases whole
        exact .marked located decoded removed
      · rename_i removed
        split at whole
        · rename_i same
          cases whole
          exact .current located decoded (same ▸ removed)
        · rename_i differ
          split at whole
          · rename_i refused
            cases whole
            exact .refused located decoded removed differ refused
          · rename_i fine
            cases whole
            exact .written located decoded removed differ fine

/-- Only the place of the startup file changes when its block is taken out. -/
theorem removeBlock_evolves {startup : Path} {world after : World} {result : Except Fault Bool}
    (plain : world.Plain) (run : removeBlock startup world = (result, after)) :
    Evolves (fun _ => False) (· = world.spot startup) world after := by
  cases clears_of_run plain run with
  | written located =>
    obtain ⟨-, rfl, standing⟩ := (plain.locate_taken_iff (by simp)).mp located
    exact .of_standing plain standing _ _
  | _ => exact .refl plain

/-- A script of ours is removed, and any other file is left. -/
theorem removeScript_cases {target : Path} {world after : World} {result : Except Fault Removal}
    (run : removeScript target world = (result, after)) :
    after = world ∨ world.isOwned target = .ok true ∧ world.removeFile target = .ok after := by
  unfold removeScript at run
  rcases Disk.look_bind_cases run with ⟨fault, -, -, rfl⟩ | ⟨standing, there, run⟩
  · exact Or.inl rfl
  cases standing with
  | false =>
    cases run
    exact Or.inl rfl
  | true =>
    simp only [if_true] at run
    rcases Disk.look_bind_cases run with ⟨fault, -, -, rfl⟩ | ⟨owned, owner, run⟩
    · exact Or.inl rfl
    cases owned with
    | false =>
      cases run
      exact Or.inl rfl
    | true =>
      simp only [if_true] at run
      rcases Disk.change_bind_cases run with ⟨fault, -, -, rfl⟩ | ⟨next, removed, run⟩
      · exact Or.inl rfl
      · cases run
        exact Or.inr ⟨owner, removed⟩

/-- Only the place of the script changes when the script is removed. -/
theorem removeScript_evolves {target : Path} {world after : World} {result : Except Fault Removal}
    (plain : world.Plain) (run : removeScript target world = (result, after)) :
    Evolves (fun _ => False) (· = world.spot target) world after := by
  rcases removeScript_cases run with rfl | ⟨-, removed⟩
  · exact .refl plain
  · exact removeFile_evolves plain removed

theorem uninstall_unresolved {installer : Installer} {world : World} {fault : Fault}
    (unresolved : installer.scriptPath world = .error fault) :
    installer.uninstall world = (.error fault, world) := by
  rw [uninstall, Disk.run_look_bind_error unresolved]

/-- A removal changes the files as far as it gets, and reports a success only of both parts. -/
theorem uninstall_cases {installer : Installer} {world : World} {target : Path}
    (resolved : installer.scriptPath world = .ok target) :
    (installer.uninstall world).2 = (removeAll installer.startupFile target world).2 ∧
      ∀ outcome, outcome.success = true →
        ((installer.uninstall world).1 = .ok outcome ↔
          (removeAll installer.startupFile target world).1 = .ok outcome) := by
  have looked : Disk.look installer.scriptPath world = (.ok target, world) := by
    rw [Disk.run_look, resolved]
  have run : installer.uninstall world = _ := Disk.run_bind_ok looked _
  rw [Disk.run_bind, Disk.run_attempt] at run
  cases removed : removeAll installer.startupFile target world with
  | mk answer after =>
    rw [removed] at run
    cases answer with
    | ok outcome =>
      rw [run]
      exact ⟨rfl, fun _ _ => Iff.rfl⟩
    | error fault =>
      cases fault with
      | failure failure =>
        rw [run]
        refine ⟨rfl, fun outcome success => ⟨fun same => ?_, fun same => by cases same⟩⟩
        cases same
        cases success
      | _ =>
        rw [run]
        refine ⟨?_, fun outcome success => ⟨fun same => ?_, fun same => by cases same⟩⟩
        · dsimp only
          split <;> rfl
        · dsimp only at same
          split at same <;> cases same
          cases success

/-- An outcome is that of both parts of the removal, or tells what kept one of them from its
end and is no success. -/
theorem uninstall_reported {installer : Installer} {world after : World} {target : Path}
    {outcome : UninstallOutcome} (resolved : installer.scriptPath world = .ok target)
    (run : installer.uninstall world = (.ok outcome, after)) :
    removeAll installer.startupFile target world = (.ok outcome, after) ∨
      outcome.success = false ∧ ∃ fault, removeAll installer.startupFile target world = (.error fault, after) ∧
        ((∃ failure, fault = .failure failure) ∨ fault.isSystem = true ∨ fault.isUndecodable = true) := by
  rw [uninstall, Disk.run_look_bind resolved, Disk.run_bind, Disk.run_attempt] at run
  cases removed : removeAll installer.startupFile target world with
  | mk answer final =>
    rw [removed] at run
    cases answer with
    | ok outcome =>
      cases run
      exact Or.inl rfl
    | error fault =>
      refine Or.inr ?_
      cases fault with
      | failure failure =>
        cases run
        exact ⟨rfl, _, rfl, Or.inl ⟨failure, rfl⟩⟩
      | _ =>
        dsimp only at run
        split at run
        · rename_i told
          cases run
          exact ⟨rfl, _, rfl, Or.inr (by simpa using told)⟩
        · cases run

/-- The script is looked at once the block has been taken out. -/
theorem removeAll_cases {startup target : Path} {world after : World}
    {result : Except Fault UninstallOutcome}
    (run : removeAll startup target world = (result, after)) :
    (∃ fault, removeBlock startup world = (.error fault, after) ∧ result = .error fault) ∨
      ∃ blockRemoved middle answer, removeBlock startup world = (.ok blockRemoved, middle) ∧
        removeScript target middle = (answer, after) ∧
        result = answer.map (removalOutcome startup target blockRemoved) := by
  unfold removeAll at run
  rw [Disk.run_bind] at run
  cases block : removeBlock startup world with
  | mk first middle =>
    rw [block] at run
    cases first with
    | error fault =>
      cases run
      exact Or.inl ⟨fault, rfl, rfl⟩
    | ok blockRemoved =>
      dsimp only at run
      rw [Disk.run_bind] at run
      cases script : removeScript target middle with
      | mk second final =>
        rw [script] at run
        cases second with
        | error fault =>
          cases run
          exact Or.inr ⟨blockRemoved, middle, _, rfl, script, rfl⟩
        | ok removal =>
          cases run
          exact Or.inr ⟨blockRemoved, middle, _, rfl, script, rfl⟩

/-- Both parts of a removal that came to its outcome came to theirs. -/
theorem removeAll_eq_ok {startup target : Path} {world after : World} {outcome : UninstallOutcome}
    (run : removeAll startup target world = (.ok outcome, after)) :
    ∃ blockRemoved middle removal, removeBlock startup world = (.ok blockRemoved, middle) ∧
      removeScript target middle = (.ok removal, after) ∧
      outcome = removalOutcome startup target blockRemoved removal := by
  obtain ⟨blockRemoved, middle, block, run⟩ := Disk.bind_eq_ok run
  obtain ⟨removal, final, script, run⟩ := Disk.bind_eq_ok run
  cases run
  exact ⟨blockRemoved, middle, removal, block, script, rfl⟩

end TabCompletion.Installer
