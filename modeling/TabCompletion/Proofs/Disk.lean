import TabCompletion.FileSystem.Disk
import TabCompletion.Proofs.Evolution

namespace TabCompletion

namespace Disk

variable {α β : Type}

@[simp]
theorem run_pure (value : α) (world : World) : (pure value : Disk α) world = (.ok value, world) := rfl

@[simp]
theorem run_throw (fault : Fault) (world : World) :
    (throw fault : Disk α) world = (.error fault, world) := rfl

@[simp]
theorem run_look (view : World → Except Fault α) (world : World) :
    look view world = (view world, world) := rfl

@[simp]
theorem run_change (step : World → Except Fault World) (world : World) :
    change step world =
      match step world with
      | .ok world => (.ok (), world)
      | .error fault => (.error fault, world) := rfl

@[simp]
theorem run_attempt (action : Disk α) (world : World) :
    attempt action world = (.ok (action world).1, (action world).2) := rfl

@[simp]
theorem run_note (text : Text) (world : World) :
    note text world = (.ok (), { world with notes := world.notes ++ [text] }) := rfl

theorem run_bind (action : Disk α) (next : α → Disk β) (world : World) :
    (action >>= next) world =
      match action world with
      | (.ok value, world) => next value world
      | (.error fault, world) => (.error fault, world) := by
  change (ExceptT.bindCont next (action world).1) (action world).2 = _
  cases action world with
  | mk result world => cases result <;> rfl

/-- What an action came to, and the world it left. -/
theorem run_bind_ok {action : Disk α} {value : α} {world middle : World}
    (run : action world = (.ok value, middle)) (next : α → Disk β) :
    (action >>= next) world = next value middle := by
  rw [run_bind, run]

theorem run_bind_error {action : Disk α} {fault : Fault} {world middle : World}
    (run : action world = (.error fault, middle)) (next : α → Disk β) :
    (action >>= next) world = (.error fault, middle) := by
  rw [run_bind, run]

/-- A sequence that came to a result did so in each of its parts. -/
theorem bind_eq_ok {action : Disk α} {next : α → Disk β} {result : β} {world after : World}
    (run : (action >>= next) world = (.ok result, after)) :
    ∃ value middle, action world = (.ok value, middle) ∧ next value middle = (.ok result, after) := by
  rw [run_bind] at run
  split at run
  · rename_i value middle first
    exact ⟨value, middle, first, run⟩
  · cases run

theorem run_look_bind {view : World → Except Fault α} {value : α} {world : World}
    (seen : view world = .ok value) (next : α → Disk β) : (look view >>= next) world = next value world := by
  rw [run_bind, run_look, seen]

theorem run_look_bind_error {view : World → Except Fault α} {fault : Fault} {world : World}
    (unseen : view world = .error fault) (next : α → Disk β) :
    (look view >>= next) world = (.error fault, world) := by
  rw [run_bind, run_look, unseen]

/-- A sequence that begins with a look ends there on a fault, or goes on with what was seen. -/
theorem look_bind_cases {view : World → Except Fault α} {next : α → Disk β} {result : Except Fault β}
    {world after : World} (run : (look view >>= next) world = (result, after)) :
    (∃ fault, view world = .error fault ∧ result = .error fault ∧ after = world) ∨
      ∃ value, view world = .ok value ∧ next value world = (result, after) := by
  cases seen : view world with
  | error fault =>
    rw [run_look_bind_error seen] at run
    cases run
    exact Or.inl ⟨fault, rfl, rfl, rfl⟩
  | ok value =>
    rw [run_look_bind seen] at run
    exact Or.inr ⟨value, rfl, run⟩

/-- A sequence that begins with a change ends there on a fault, or goes on in the changed world. -/
theorem change_bind_cases {step : World → Except Fault World} {next : Unit → Disk β}
    {result : Except Fault β} {world after : World} (run : (change step >>= next) world = (result, after)) :
    (∃ fault, step world = .error fault ∧ result = .error fault ∧ after = world) ∨
      ∃ middle, step world = .ok middle ∧ next () middle = (result, after) := by
  rw [run_bind, run_change] at run
  cases stepped : step world with
  | error fault =>
    rw [stepped] at run
    cases run
    exact Or.inl ⟨fault, rfl, rfl, rfl⟩
  | ok middle =>
    rw [stepped] at run
    exact Or.inr ⟨middle, rfl, run⟩

/-- A sequence that begins with a look came to its result by what was seen. -/
theorem look_bind_eq_ok {view : World → Except Fault α} {next : α → Disk β} {result : β}
    {world after : World} (run : (look view >>= next) world = (.ok result, after)) :
    ∃ value, view world = .ok value ∧ next value world = (.ok result, after) := by
  obtain ⟨value, middle, looked, rest⟩ := bind_eq_ok run
  rw [run_look, Prod.mk.injEq] at looked
  obtain ⟨seen, rfl⟩ := looked
  exact ⟨value, seen, rest⟩

end Disk

end TabCompletion
