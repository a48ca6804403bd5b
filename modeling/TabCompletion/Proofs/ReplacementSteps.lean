import TabCompletion.FileSystem.Replacement
import TabCompletion.Proofs.Entry
import TabCompletion.Proofs.Writing

namespace TabCompletion

open FileSystem (Furnished Passed)

namespace World

variable {before world : World} {spot directory : Location} {path : Path} {draw : Draw} {name : Text} {mode : Nat}
  {bytes : Bytes}

/-- One file is at a spot; all else is as it was before. -/
structure Filled (before world : World) (spot : Location) (mode : Nat) (bytes : Bytes) : Prop where
  cwd : world.cwd = before.cwd
  draws : world.draws = before.draws
  get? : ∀ location, world.files.get? location =
    if location = spot then some (.file mode bytes) else before.files.get? location

namespace Filled

theorem start (before : World) (proper : spot ≠ []) (mode : Nat) (bytes : Bytes) :
    Filled before (before.set spot (.file mode bytes)) spot mode bytes :=
  ⟨rfl, rfl, fun location => at?_set proper _ location⟩

theorem set (filled : Filled before world spot mode bytes) (proper : spot ≠ []) (bits : Nat) (others : Bytes) :
    Filled before (world.set spot (.file bits others)) spot bits others := by
  refine ⟨filled.cwd, filled.draws, fun location => ?_⟩
  have put : (world.set spot (.file bits others)).files.get? location = _ := at?_set proper _ location
  rw [put]
  split
  · rfl
  · rename_i apart
    exact (filled.get? location).trans (if_neg apart)

theorem here (filled : Filled before world spot mode bytes) : world.files.get? spot = some (.file mode bytes) := by
  rw [filled.get?, if_pos rfl]

/-- Without the file all is as it was before. -/
theorem erase (filled : Filled before world spot mode bytes) (proper : spot ≠ [])
    (absent : before.files.get? spot = none) : Alike before { world with files := world.files.erase spot } := by
  refine ⟨filled.cwd, filled.draws, fun location => ?_⟩
  change (world.files.erase spot).get? location = before.files.get? location
  rw [FileSystem.get?_erase _ proper]
  split
  · rename_i here
    rw [here, absent]
  · rename_i apart
    rw [filled.get?, if_neg apart]

theorem passed (filled : Filled before world spot mode bytes) (absent : before.files.get? spot = none) :
    Passed before.files world.files := by
  intro location node standing unfilled
  rw [filled.get?, if_neg]
  · exact standing
  · rintro rfl
    rw [absent] at standing
    cases standing

end Filled

/-- A temporary file beside the one at a path: it is to be found, and nothing but it is new. -/
structure Beside (before world : World) (path : Path) (draw : Draw) (directory : Location) (name : Text) (mode : Nat)
    (bytes : Bytes) : Prop where
  enters : before.Enters (path.beside draw) directory name
  absent : before.files.get? (directory ++ [name]) = none
  filled : Filled before world (directory ++ [name]) mode bytes

namespace Beside

theorem set (beside : Beside before world path draw directory name mode bytes) (bits : Nat) (others : Bytes) :
    Beside before (world.set (directory ++ [name]) (.file bits others)) path draw directory name bits others :=
  { beside with filled := beside.filled.set (by simp) bits others }

theorem located (beside : Beside before world path draw directory name mode bytes) (ending : FileSystem.Ending) :
    world.locate ending (path.beside draw) = .ok (.taken (directory ++ [name]) (.file mode bytes)) :=
  (beside.enters.passed (beside.filled.passed beside.absent) beside.filled.cwd).located_file beside.filled.here ending

theorem writeFile (beside : Beside before world path draw directory name mode bytes) (others : Bytes) :
    world.writeFile (path.beside draw) others = .ok (world.set (directory ++ [name]) (.file mode others)) := by
  rw [World.writeFile, beside.located]
  rfl

theorem setMode (beside : Beside before world path draw directory name mode bytes) (bits : Nat) :
    world.setMode (path.beside draw) bits = .ok (world.set (directory ++ [name]) (.file bits bytes)) := by
  rw [World.setMode, beside.located]
  rfl

theorem removeFile (beside : Beside before world path draw directory name mode bytes) :
    world.removeFile (path.beside draw) =
      .ok { world with files := world.files.erase (directory ++ [name]) } := by
  rw [World.removeFile, beside.located]
  rfl

end Beside

theorem beside_parts (path : Path) (draw : Draw) :
    (path.beside draw).parts = path.parts.dropLast ++ ['.' :: path.name ++ '.' :: draw.text ++ ".tmp".toList] := rfl

theorem Beside.name_eq (beside : Beside before world path draw directory name mode bytes) :
    name = '.' :: path.name ++ '.' :: draw.text ++ ".tmp".toList := by
  have parts := beside.enters.parts
  rw [beside_parts, List.dropLast_concat] at parts
  exact (List.singleton_inj.mp (List.append_cancel_left parts)).symm

/-- A temporary file changes nothing about where the file that it is to replace is. -/
theorem Beside.renameSpot (beside : Beside before world path draw directory name mode bytes)
    (absolute : path.isAbsolute = true) (named : ∀ name ∈ path.parts, IsName name) (source : Path) :
    world.renameSpot source path = before.renameSpot source path := by
  have opens : before.Opens path directory := by
    obtain ⟨⟨count, within, leads⟩, standing⟩ := beside.enters.toOpens
    exact ⟨⟨count, within, by rwa [beside_parts, List.dropLast_concat] at leads⟩, standing⟩
  have opensNow := opens.passed (beside.filled.passed beside.absent) beside.filled.cwd
  have located : world.locate .itself path = before.locate .itself path := by
    rcases List.eq_nil_or_concat path.parts with root | ⟨names, last, parts⟩
    · have walked (files : FileSystem) : files.walk .itself FileSystem.maxLinks [] [] = .ok (.taken [] .directory) := by
        rw [FileSystem.walk, FileSystem.get?_nil]
      simp only [World.locate, FileSystem.locate, absolute, root, if_true, walked]
    · rw [List.concat_eq_append] at parts
      have whole : path.parts = path.parts.dropLast ++ [last] := by rw [parts, List.dropLast_concat]
      have proper : IsName last := named last (by simp [parts])
      have apart : directory ++ [last] ≠ directory ++ [name] := fun same => by
        have called : path.name = last := by simp [Path.name, parts]
        have longer := path.beside_name_length draw
        rw [← beside.name_eq, called, List.singleton_inj.mp (List.append_cancel_left same)] at longer
        omega
      have same : world.files.entry directory last = before.files.entry directory last := by
        rw [FileSystem.entry, FileSystem.entry, beside.filled.get?, if_neg apart]
      rw [opensNow.located whole proper (.inl rfl), opens.located whole proper (.inl rfl), same]
  rw [World.renameSpot, World.renameSpot, located]

/-- What is renamed is no longer where it was. -/
theorem Beside.rename (beside : Beside before world path draw directory name mode bytes)
    (absolute : path.isAbsolute = true) (named : ∀ name ∈ path.parts, IsName name) :
    world.rename (path.beside draw) path =
      (before.renameSpot (path.beside draw) path).map fun spot =>
        ({ world with files := world.files.erase (directory ++ [name]) } : World).set spot (.file mode bytes) := by
  rw [World.rename, beside.located, ← beside.renameSpot absolute named]
  rfl

/-- The temporary file is going to be where nothing stands. -/
theorem temporary_free {temporary : Path} (drawn : world.temporary path = .ok temporary) :
    ∃ draw directory name, temporary = path.beside draw ∧
      world.locate .itself temporary = .ok (.free directory name) := by
  unfold World.temporary at drawn
  generalize world.draws = draws at drawn
  induction draws with
  | nil => cases drawn
  | cons draw more ih =>
    obtain ⟨place, located, drawn⟩ := ok_of_bind drawn
    cases place with
    | taken location node => exact ih drawn
    | free directory name =>
      cases drawn
      exact ⟨draw, directory, name, rfl, located⟩

/-- The temporary file is made where its name was drawn. -/
theorem createFile_beside {temporary : Path} (drawn : before.temporary path = .ok temporary) :
    ∃ draw directory name, temporary = path.beside draw ∧
      before.createFile temporary = .ok (before.set (directory ++ [name]) (.file temporaryMode [])) ∧
      Beside before (before.set (directory ++ [name]) (.file temporaryMode [])) path draw directory name
        temporaryMode [] := by
  obtain ⟨draw, above, last, rfl, located⟩ := temporary_free drawn
  obtain ⟨directory, enters, same⟩ :=
    enters_of_located (beside_parts path draw) (path.beside_isName draw) located
  unfold FileSystem.entry at same
  split at same
  · cases same
  · rename_i absent
    cases same
    refine ⟨draw, _, _, rfl, ?_, enters, absent, .start before (by simp) _ _⟩
    rw [World.createFile, located]
    rfl

/-- A file is replaced where its temporary file can be given its name. -/
theorem replaceFile_drawn {mode : Nat} {temporary : Path} (moded : world.replacementMode path = .ok mode)
    (drawn : world.temporary path = .ok temporary) (bytes : Bytes) :
    world.replaceFile path bytes =
      (world.renameSpot temporary path).map fun spot => world.set spot (.file mode bytes) := by
  simp only [World.replaceFile, moded, drawn]
  rfl

end World

/-- Trouble that a temporary file is left for: it cannot be removed, or it can be neither written
nor closed. -/
def Trouble.Strands (trouble : Trouble) : Prop :=
  trouble.remove ≠ none ∨ trouble.write ≠ none ∧ trouble.close ≠ none

namespace Disk

open World (Alike Beside)

variable {trouble : Trouble} {before world after : World} {path : Path} {draw : Draw} {directory : Location}
  {name : Text} {mode bits : Nat} {bytes others : Bytes} {result : Except Fault Unit}

/-- A step that trouble may come to fails without any effect, or is taken. -/
theorem barring_cases {fault : Option Fault} {step : World → Except Fault World}
    (run : barring fault (change step) world = (result, after)) :
    (∃ other, result = .error other ∧ after = world ∧ (fault = none → step world = .error other)) ∨
      result = .ok () ∧ step world = .ok after := by
  cases fault with
  | some other =>
    cases run
    exact Or.inl ⟨other, rfl, rfl, by simp⟩
  | none =>
    rw [barring, run_change] at run
    cases stepped : step world with
    | error other =>
      rw [stepped] at run
      cases run
      exact Or.inl ⟨other, rfl, rfl, fun _ => rfl⟩
    | ok next =>
      rw [stepped] at run
      cases run
      exact Or.inr ⟨rfl, rfl⟩

/-- Whether a write goes wrong or not, the temporary file is there and nothing else has changed. -/
theorem writeBarring_beside {fault : Option (Nat × Fault)}
    (beside : Beside before world path draw directory name mode others)
    (run : writeBarring fault (path.beside draw) bytes world = (result, after)) :
    (∃ other written, result = .error other ∧ fault ≠ none ∧
        Beside before after path draw directory name mode written) ∨
      result = .ok () ∧ Beside before after path draw directory name mode bytes := by
  cases fault with
  | some trouble =>
    obtain ⟨count, other⟩ := trouble
    rw [writeBarring, run_bind, run_change, beside.writeFile] at run
    cases run
    exact Or.inl ⟨other, bytes.take count, rfl, by simp, beside.set _ _⟩
  | none =>
    rw [writeBarring, run_change, beside.writeFile] at run
    cases run
    exact Or.inr ⟨rfl, beside.set _ _⟩

/-- A temporary file is closed and renamed as a whole, or it is still there and nothing else has
changed. -/
theorem closeAndRename_cases (absolute : path.isAbsolute = true) (named : ∀ name ∈ path.parts, IsName name)
    (beside : Beside before world path draw directory name bits others)
    (run : closeAndRename trouble (path.beside draw) path mode bytes world = (result, after)) :
    (∃ fault bits others, result = .error fault ∧ Beside before after path draw directory name bits others ∧
        (trouble = {} → before.renameSpot (path.beside draw) path = .error fault)) ∨
      result = .ok () ∧ ∃ spot, before.renameSpot (path.beside draw) path = .ok spot ∧
        Alike (before.set spot (.file mode bytes)) after := by
  unfold closeAndRename at run
  rw [run_bind] at run
  rcases wrote : writeBarring trouble.close (path.beside draw) bytes world with ⟨closed, first⟩
  rw [wrote] at run
  rcases writeBarring_beside beside wrote with ⟨fault, part, rfl, troubled, left⟩ | ⟨rfl, filled⟩
  · cases run
    exact Or.inl ⟨fault, bits, part, rfl, left, fun none => absurd (by rw [none]) troubled⟩
  dsimp only at run
  rw [run_bind] at run
  rcases marked : barring trouble.setMode (change (·.setMode (path.beside draw) mode)) first with ⟨set, second⟩
  rw [marked] at run
  rcases barring_cases marked with ⟨fault, rfl, rfl, refused⟩ | ⟨rfl, moded⟩
  · cases run
    refine Or.inl ⟨fault, bits, bytes, rfl, filled, fun none => ?_⟩
    have never := refused (by rw [none])
    rw [filled.setMode] at never
    cases never
  rw [filled.setMode] at moded
  cases moded
  -- From here on only the renaming can still fail.
  have whole := filled.set mode bytes
  rcases barring_cases run with ⟨fault, rfl, rfl, refused⟩ | ⟨rfl, renamed⟩
  · refine Or.inl ⟨fault, mode, bytes, rfl, whole, fun none => ?_⟩
    have never := refused (by rw [none])
    rw [whole.rename absolute named] at never
    exact error_of_map never
  · rw [whole.rename absolute named] at renamed
    cases target : before.renameSpot (path.beside draw) path with
    | error fault =>
      rw [target] at renamed
      cases renamed
    | ok spot =>
      rw [target] at renamed
      cases renamed
      obtain ⟨home, enters, rfl, -⟩ := World.renameSpot_entered absolute named target
      have without := whole.filled.erase (by simp) whole.absent
      refine Or.inr ⟨rfl, _, rfl, without.cwd, without.draws, fun location => ?_⟩
      rw [World.at?_set (by simp), World.at?_set (by simp), without.same]

/-- A temporary file is left beside the one at a path, and nothing else has changed. -/
def Stranded (before after : World) (path : Path) : Prop :=
  ∃ draw directory name mode bytes, Beside before after path draw directory name mode bytes

/-- A temporary file that is given up is removed, unless that goes wrong too. -/
theorem giveUp_cases {fault : Fault} (beside : Beside before world path draw directory name mode bytes)
    (run : giveUp trouble (path.beside draw) fault world = (result, after)) :
    result = .error fault ∧ (Alike before after ∨ trouble.remove ≠ none ∧ Stranded before after path) := by
  rw [giveUp, run_bind, run_attempt] at run
  rcases removed : barring trouble.remove (change (·.removeFile (path.beside draw))) world with ⟨answer, left⟩
  rw [removed] at run
  cases run
  refine ⟨rfl, ?_⟩
  rcases barring_cases removed with ⟨other, -, rfl, refused⟩ | ⟨-, erased⟩
  · refine Or.inr ⟨fun none => ?_, draw, directory, name, mode, bytes, beside⟩
    have never := refused none
    rw [beside.removeFile] at never
    cases never
  · rw [beside.removeFile] at erased
    cases erased
    exact Or.inl (beside.filled.erase (by simp) beside.absent)

/-- A replacement step by step comes to what the replacement as a whole comes to, or to a fault
with nothing changed, but for a temporary file that may be left by trouble of that kind; without
trouble it is the same fault. -/
theorem replaceInSteps_cases (absolute : path.isAbsolute = true) (named : ∀ name ∈ path.parts, IsName name)
    (run : replaceInSteps trouble path bytes world = (result, after)) :
    (∃ fault, result = .error fault ∧ (Alike world after ∨ trouble.Strands ∧ Stranded world after path) ∧
        (trouble = {} → world.replaceFile path bytes = .error fault)) ∨
      result = .ok () ∧ ∃ done, world.replaceFile path bytes = .ok done ∧ Alike done after := by
  unfold replaceInSteps at run
  rcases look_bind_cases run with ⟨fault, moded, rfl, rfl⟩ | ⟨mode, moded, later⟩
  · exact Or.inl ⟨fault, rfl, Or.inl (.refl after), fun _ => by rw [World.replaceFile, moded]; rfl⟩
  clear run
  rcases look_bind_cases later with ⟨fault, drawn, rfl, rfl⟩ | ⟨temporary, drawn, run⟩
  · exact Or.inl ⟨fault, rfl, Or.inl (.refl after), fun _ => by rw [World.replaceFile, moded, drawn]; rfl⟩
  clear later
  obtain ⟨draw, directory, name, rfl, made, beside⟩ := World.createFile_beside drawn
  rw [run_bind] at run
  rcases created : barring trouble.create (change (·.createFile (path.beside draw))) world with ⟨answer, first⟩
  rw [created] at run
  rcases barring_cases created with ⟨fault, rfl, rfl, refused⟩ | ⟨rfl, stepped⟩
  · cases run
    refine Or.inl ⟨fault, rfl, Or.inl (.refl _), fun none => ?_⟩
    have never := refused (by rw [none])
    rw [made] at never
    cases never
  cases made.symm.trans stepped
  dsimp only at run
  rw [run_bind, run_attempt] at run
  rcases wrote : writeBarring trouble.write (path.beside draw) bytes
    (world.set (directory ++ [name]) (.file World.temporaryMode [])) with ⟨written, second⟩
  rw [wrote] at run
  rcases writeBarring_beside beside wrote with ⟨fault, part, rfl, troubled, left⟩ | ⟨rfl, filled⟩
  · -- The temporary file is closed before it is given up, and stays when that goes wrong too.
    have write : trouble = {} → world.replaceFile path bytes = .error fault := fun none =>
      absurd (by rw [none]) troubled
    dsimp only at run
    rw [run_bind] at run
    rcases closed : writeBarring trouble.close (path.beside draw) bytes second with ⟨answer, third⟩
    rw [closed] at run
    rcases writeBarring_beside left closed with ⟨other, rest, rfl, troubledToo, still⟩ | ⟨rfl, whole⟩
    · cases run
      exact Or.inl ⟨other, rfl, Or.inr ⟨Or.inr ⟨troubled, troubledToo⟩, _, _, _, _, _, still⟩,
        fun none => absurd (by rw [none]) troubled⟩
    · obtain ⟨rfl, ends⟩ := giveUp_cases whole run
      exact Or.inl ⟨fault, rfl, ends.imp_right (fun strays => ⟨Or.inl strays.1, strays.2⟩), write⟩
  · dsimp only at run
    rw [run_bind, run_attempt] at run
    rcases renamed : closeAndRename trouble (path.beside draw) path mode bytes second with ⟨ended, third⟩
    rw [renamed] at run
    rcases closeAndRename_cases absolute named filled renamed with
      ⟨fault, bits, others, rfl, left, refused⟩ | ⟨rfl, spot, target, same⟩
    · obtain ⟨rfl, ends⟩ := giveUp_cases left run
      refine Or.inl ⟨fault, rfl, ends.imp_right (fun strays => ⟨Or.inl strays.1, strays.2⟩), fun none => ?_⟩
      rw [World.replaceFile_drawn moded drawn, refused none]
      rfl
    · cases run
      refine Or.inr ⟨rfl, _, ?_, same⟩
      rw [World.replaceFile_drawn moded drawn, target]
      rfl

/-- A temporary file that can be neither written nor closed is left with what it has got. -/
theorem replaceInSteps_strands {temporary : Path} {count more : Nat} {fault other : Fault}
    (moded : world.replacementMode path = .ok mode) (drawn : world.temporary path = .ok temporary)
    (created : trouble.create = none) (write : trouble.write = some (count, fault))
    (close : trouble.close = some (more, other)) :
    ∃ draw directory name after, replaceInSteps trouble path bytes world = (.error other, after) ∧
      Beside world after path draw directory name World.temporaryMode (bytes.take more) := by
  obtain ⟨draw, directory, name, rfl, made, beside⟩ := World.createFile_beside drawn
  have filled := beside.set World.temporaryMode (bytes.take count)
  refine ⟨draw, directory, name, _, ?_, filled.set World.temporaryMode (bytes.take more)⟩
  rw [replaceInSteps, run_look_bind moded, run_look_bind drawn, run_bind, created, barring, run_change, made]
  dsimp only
  rw [run_bind, run_attempt, write, writeBarring, run_bind, run_change, beside.writeFile]
  dsimp only [run_throw]
  rw [run_bind, close, writeBarring, run_bind, run_change, filled.writeFile]
  rfl

/-- Before a file is written its path is followed and the directories above it are made. Either
comes to an end, or it is what is done then that decides. -/
theorem write_cases (path : Path) (world : World) :
    (∃ fault middle, Furnished world.files middle.files ∧ ∀ finish : Path → Disk Unit,
        (do let real ← look (·.realPath path); makeDirectories real.parent; finish real : Disk Unit) world =
          (.error fault, middle)) ∨
      ∃ real middle, world.realPath path = .ok real ∧ makeDirectories real.parent world = (.ok (), middle) ∧
        Furnished world.files middle.files ∧ ∀ finish : Path → Disk Unit,
          (do let real ← look (·.realPath path); makeDirectories real.parent; finish real : Disk Unit) world =
            finish real middle := by
  cases resolved : world.realPath path with
  | error fault =>
    refine Or.inl ⟨fault, world, .refl _, fun finish => ?_⟩
    exact run_look_bind_error resolved _
  | ok real =>
    have furnished := CommandLine.makeDirectories_furnished real.parent world (.refl world.files)
    rcases made : makeDirectories real.parent world with ⟨outcome, middle⟩
    rw [made] at furnished
    cases outcome with
    | error fault =>
      refine Or.inl ⟨fault, middle, furnished, fun finish => ?_⟩
      rw [run_look_bind resolved]
      exact run_bind_error made _
    | ok done =>
      refine Or.inr ⟨real, middle, rfl, made, furnished, fun finish => ?_⟩
      rw [run_look_bind resolved]
      exact run_bind_ok made _

/-- One run comes to what another one comes to, or to a fault with nothing changed. -/
def Follows (world : World) (run other : Except Fault Unit × World) : Prop :=
  match run with
  | (.ok (), after) => other.1 = .ok () ∧ Alike other.2 after
  | (.error _, after) => Alike world after

/-- Where a file stands it is written step by step as it is at once, or nothing changes, unless the
temporary file cannot be got rid of. -/
theorem writeInSteps_follows (plain : world.Plain) {location : Location}
    (located : world.locate .target path = .ok (.taken location (.file mode bytes)))
    (clears : ¬ trouble.Strands) (text : Text) :
    Follows world (writeInSteps trouble path text world) (writeText path text world) := by
  obtain ⟨reaches, rfl, standing⟩ := (plain.locate_taken_iff (by simp)).mp located
  have directory := (plain.parent standing).1
  rcases write_cases path world with ⟨fault, middle, -, ends⟩ | ⟨real, middle, resolved, made, -, goes⟩
  · have atOnce : writeText path text world = (.error fault, middle) := ends _
    have inSteps : writeInSteps trouble path text world = (.error fault, middle) := ends _
    have same := writeText_standing plain located text
    rw [inSteps]
    rw [atOnce] at same
    split at same
    · cases same
      exact .refl _
    · cases same
  · have atOnce : writeText path text world = change (·.replaceFile real (Utf8.encode text)) middle := goes _
    have inSteps : writeInSteps trouble path text world = replaceInSteps trouble real (Utf8.encode text) middle := goes _
    have named := plain.spot_named path
    obtain rfl : real = (world.spot path).toPath := by
      rw [plain.realPath_eq reaches.clean] at resolved
      split at resolved
      · cases resolved
      · exact (Except.ok.inj resolved).symm
    obtain rfl : middle = world := by
      have same := makeDirectories_toPath plain
        (fun name member => named name (List.dropLast_subset _ member)) (Or.inl directory)
      rw [show Location.toPath (world.spot path).dropLast = (world.spot path).toPath.parent from rfl, made] at same
      split at same <;> cases same
      rfl
    rw [atOnce, inSteps, run_change]
    rcases run : replaceInSteps trouble (middle.spot path).toPath (Utf8.encode text) middle with ⟨result, after⟩
    rcases replaceInSteps_cases rfl named run with
      ⟨fault, rfl, alike | ⟨strands, -⟩, -⟩ | ⟨rfl, done, replaced, alike⟩
    · exact alike
    · exact absurd strands clears
    · rw [replaced]
      exact ⟨rfl, alike⟩

end Disk

end TabCompletion
