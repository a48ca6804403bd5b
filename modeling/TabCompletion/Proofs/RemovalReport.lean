import TabCompletion.Proofs.Told

namespace TabCompletion

open World (Plain Evolves)
open Disk (FailsAt)

namespace Block

variable {markers : Markers} {text updated : Text} {span : Span}

theorem remove_of_find_error {marker : Text} (failed : find markers text = .error marker) :
    remove markers text = .error marker := by
  rw [remove, failed]
  rfl

/-- A block has at least its end marker, so a text is shorter once its block is taken out. -/
theorem remove_shorter (startSingle : '\n' ∉ markers.start) (finishSingle : '\n' ∉ markers.finish)
    (filled : markers.finish ≠ []) (found : find markers text = .ok (some span)) :
    ∃ updated, remove markers text = .ok updated ∧ updated.length < text.length := by
  obtain ⟨-, -, within, -⟩ := find_eq_some startSingle finishSingle found
  obtain ⟨first, last, -⟩ := widen_newlines startSingle finishSingle found
  obtain ⟨distance, -, -, past⟩ := markers_of_find found
  have length := List.length_pos_iff.mpr filled
  refine ⟨_, by rw [remove, found]; rfl, ?_⟩
  simp only [splice, List.append_nil, List.length_append, List.length_take, List.length_drop]
  omega

theorem remove_of_find_ok {found : Option Span} (find_eq : find markers text = .ok found) :
    ∃ updated, remove markers text = .ok updated := by
  rw [remove, find_eq]
  cases found <;> exact ⟨_, rfl⟩

/-- What a text without its block is, by whether it had one. -/
theorem find_of_remove (proper : markers.Proper) (filled : markers.finish ≠ [])
    (removed : remove markers text = .ok updated) :
    find markers text = .ok none ∧ updated = text ∨
      ∃ span, find markers text = .ok (some span) ∧ updated.length < text.length := by
  rcases remove_cases removed with same | ⟨span, found, -⟩
  · exact Or.inl same
  · obtain ⟨shorter, same, length⟩ := remove_shorter proper.start.1 proper.finish.1 filled found
    obtain rfl := Except.ok.inj (removed.symm.trans same)
    exact Or.inr ⟨span, found, length⟩

theorem mem_of_mem_remove (removed : remove markers text = .ok updated) {c : Char}
    (member : c ∈ updated) : c ∈ text := by
  rcases remove_cases removed with ⟨-, rfl⟩ | ⟨span, -, rfl⟩
  · exact member
  · simp only [splice, List.append_nil, List.mem_append] at member
    rcases member with before | after
    · exact List.mem_of_mem_take before
    · exact List.mem_of_mem_drop after

end Block

/-- A place as it is once another node stands at a location. -/
def Place.renewed (location : Location) (node : Node) : Place → Place
  | taken here old => taken here (if here = location then node else old)
  | free directory name => free directory name

/-- A file written over leads no way elsewhere. -/
theorem FileSystem.walk_renewed {files : FileSystem} (linkFree : files.LinkFree) {location : Location}
    {mode : Nat} {bytes : Bytes} (standing : files.get? location = some (.file mode bytes))
    (newMode : Nat) (newBytes : Bytes) (ending : Ending) (links : Nat) (here : Location) (names : List Text) :
    (files.insert location (.file newMode newBytes)).walk ending links here names =
      (files.walk ending links here names).map (Place.renewed location (.file newMode newBytes)) := by
  have proper : location ≠ [] := by
    rintro rfl
    rw [files.get?_nil] at standing
    cases standing
  have now := files.get?_insert proper (.file newMode newBytes)
  have linkFreeNow : (files.insert location (.file newMode newBytes)).LinkFree := by
    intro other target
    rw [now]
    split
    · simp
    · exact linkFree other target
  have directory (other : Location) :
      (files.insert location (.file newMode newBytes)).get? other = some .directory ↔
        files.get? other = some .directory := by
    rw [now]
    by_cases here : other = location
    · simp [here, standing]
    · rw [if_neg here]
  have vacant (other : Location) :
      (files.insert location (.file newMode newBytes)).get? other = none ↔ files.get? other = none := by
    rw [now]
    by_cases here : other = location
    · simp [here, standing]
    · rw [if_neg here]
  have barred (other : Location) :
      barrier ((files.insert location (.file newMode newBytes)).get? other) = barrier (files.get? other) := by
    rw [now]
    by_cases here : other = location
    · simp [here, standing, barrier]
    · rw [if_neg here]
  -- On its way a walk asks of a location only whether a directory, something else or nothing
  -- stands there.
  induction names generalizing here with
  | nil =>
    rw [walk, walk, now]
    by_cases same : here = location
    · subst same
      simp [standing, Place.renewed, Except.map]
    · cases files.get? here <;> simp [same, Place.renewed, Except.map]
  | cons name rest ih =>
    rw [walk_cons linkFreeNow, walk_cons linkFree]
    simp only [directory, vacant, barred, ih]
    repeat' split
    all_goals rfl

namespace World

variable {world : World} {location : Location} {mode : Nat} {bytes : Bytes}

theorem Plain.locate_renewed (plain : world.Plain) (standing : world.at? location = some (.file mode bytes))
    (newMode : Nat) (newBytes : Bytes) (ending : FileSystem.Ending) (path : Path) :
    (world.set location (.file newMode newBytes)).locate ending path =
      (world.locate ending path).map (Place.renewed location (.file newMode newBytes)) := by
  have walked := FileSystem.walk_renewed plain.linkFree standing newMode newBytes ending
    FileSystem.maxLinks (if path.isAbsolute then [] else world.cwd) path.parts
  simp only [World.locate, FileSystem.locate, World.set, walked]
  cases path.hasNul with
  | true => rfl
  | false =>
    by_cases long : FileSystem.maxPathBytes < path.text.byteCount
    · simp [long, Except.map]
    · simp only [long, if_false, Bool.false_eq_true]
      generalize world.files.walk ending FileSystem.maxLinks _ path.parts = result
      cases result <;> rfl

theorem Plain.exists?_renewed (plain : world.Plain) (standing : world.at? location = some (.file mode bytes))
    (newMode : Nat) (newBytes : Bytes) (path : Path) :
    (world.set location (.file newMode newBytes)).exists? path = world.exists? path := by
  simp only [World.exists?, World.leadsTo, plain.locate_renewed standing]
  cases world.locate .target path with
  | ok place => cases place <;> rfl
  | error fault => rfl

/-- Whose script stands at a path does not depend on a file elsewhere. -/
theorem Plain.isOwned_renewed (plain : world.Plain) (standing : world.at? location = some (.file mode bytes))
    (newMode : Nat) (newBytes : Bytes) {path : Path} (apart : world.spot path ≠ location) :
    (world.set location (.file newMode newBytes)).isOwned path = world.isOwned path := by
  have same : (world.set location (.file newMode newBytes)).locate .target path =
      world.locate .target path := by
    rw [plain.locate_renewed standing]
    cases located : world.locate .target path with
    | error fault => rfl
    | ok place =>
      cases place with
      | free directory name => rfl
      | taken here node =>
        obtain ⟨-, rfl, -⟩ := (plain.locate_taken_iff (by simp)).mp located
        simp [Except.map, Place.renewed, apart]
  simp only [World.isOwned, World.readBytes, same]

/-- A text stays where its file is not touched. -/
theorem Evolves.readText {made touched : Location → Prop} {before after : World} {path : Path} {text : Text}
    (evolves : Evolves made touched before after) (plain : before.Plain)
    (read : before.readText path = .ok text) (apart : ¬ touched (before.spot path)) :
    after.readText path = .ok text := by
  obtain ⟨bytes, readBytes, -⟩ := ok_of_bind read
  obtain ⟨location, mode, located⟩ := readBytes_ok readBytes
  obtain ⟨-, rfl, -⟩ := (plain.locate_taken_iff (by simp)).mp located
  rw [readText_of_located (evolves.located plain located apart), ← readText_of_located located, read]

end World

namespace Installer

variable {startup target : Path} {world middle after : World}

/-- A startup file that can be read, but whose markers do not stand in pairs. -/
def Ambiguous (startup : Path) (world : World) : Prop :=
  world.isFile startup = .ok true ∧ ∃ content marker,
    world.readText startup = .ok content ∧ Block.find markers content = .error marker

/-- Of an ambiguous startup file nothing is taken out. -/
theorem Ambiguous.removeBlock (ambiguous : Ambiguous startup world) :
    ∃ failure, removeBlock startup world = (.error (.failure failure), world) := by
  obtain ⟨regular, content, marker, read, found⟩ := ambiguous
  refine ⟨.missingMarker (some startup) marker, ?_⟩
  rw [Installer.removeBlock, Disk.run_look_bind regular]
  simp only [if_true]
  rw [Disk.run_look_bind read, Block.remove_of_find_error found]
  rfl

/-- Besides the disk and the text of the startup file only its markers keep a block in it. -/
theorem removeBlock_failsAt (startup : Path) (world : World) :
    FailsAt world (fun fault => fault.OnDisk ∨ fault.isUndecodable = true ∨ Ambiguous startup world)
      (removeBlock startup) := by
  refine .look (fun _ failed => Or.inl (Or.inl (World.leadsTo_isSystem failed))) fun regular seen => ?_
  cases regular with
  | false => exact .pure false
  | true =>
    refine .look (fun _ failed => ?_) fun content read => ?_
    · rcases World.readText_error failed with ofPath | undecodable
      · exact Or.inl ofPath.onDisk
      · exact Or.inr (Or.inl undecodable)
    · cases found : Block.find markers content with
      | error marker => exact fun _ _ _ => Or.inr (Or.inr ⟨seen, content, marker, read, found⟩)
      | ok span =>
        obtain ⟨updated, removed⟩ := Block.remove_of_find_ok found
        rw [removed]
        refine .bind (.pure updated) fun _ _ run => ?_
        cases run
        split
        · exact .pure false
        · exact .bind ((Disk.writeText_onDisk startup updated world).mono fun _ onDisk => Or.inl onDisk)
            fun _ _ _ => .pure true

theorem removeScript_onDisk (target : Path) (world : World) :
    FailsAt world Fault.OnDisk (removeScript target) :=
  (removeScript_isSystem target world).mono fun _ system => Or.inl system

/-- How a removal of the block that came to its end left the files. -/
inductive BlockTaken (startup : Path) (before : World) : Bool → World → Prop
  | absent (missing : before.isFile startup = .ok false) : BlockTaken startup before false before
  | unmarked {content : Text} (read : before.readText startup = .ok content)
      (unfound : Block.find markers content = .ok none) : BlockTaken startup before false before
  | taken {mode : Nat} {bytes : Bytes} {content updated : Text} {span : Span}
      (located : before.locate .target startup =
        .ok (.taken (before.spot startup) (.file mode bytes)))
      (standing : before.at? (before.spot startup) = some (.file mode bytes))
      (read : before.readText startup = .ok content)
      (found : Block.find markers content = .ok (some span))
      (removed : Block.remove markers content = .ok updated) (unified : '\r' ∉ updated)
      (differ : Utf8.encode updated ≠ bytes) :
      BlockTaken startup before true
        (before.set (before.spot startup) (.file (mode % 0o1000) (Utf8.encode updated)))

theorem removeBlock_taken (plain : world.Plain) {removed : Bool}
    (run : removeBlock startup world = (.ok removed, middle)) :
    BlockTaken startup world removed middle := by
  cases clears_of_run plain run with
  | absent missing => exact .absent missing
  | current located decoded removal =>
    have read := World.readText_of_located located
    rw [decoded] at read
    rcases Block.find_of_remove markers_proper (by decide) removal with ⟨unfound, -⟩ | ⟨_, -, shorter⟩
    · exact .unmarked read unfound
    · exact absurd shorter (Nat.lt_irrefl _)
  | @written _ mode bytes text updated located decoded removal differ =>
    obtain ⟨-, rfl, standing⟩ := (plain.locate_taken_iff (by simp)).mp located
    have read := World.readText_of_located located
    rw [decoded] at read
    rcases Block.find_of_remove markers_proper (by decide) removal with ⟨-, same⟩ | ⟨span, found, -⟩
    · exact absurd same differ
    · have unified : '\r' ∉ updated := fun member =>
        Text.not_mem_unifyNewlines text (Block.mem_of_mem_remove removal member)
      refine .taken located standing read found removal unified fun same => differ ?_
      rw [← same, Utf8.decode_encode] at decoded
      rw [← Except.ok.inj decoded, Text.unifyNewlines_of_not_mem unified]

namespace BlockTaken

variable {removed : Bool}

theorem evolves (block : BlockTaken startup world removed middle) (plain : world.Plain) :
    Evolves (fun _ => False) (· = world.spot startup) world middle := by
  cases block with
  | absent _ | unmarked _ _ => exact .refl plain
  | taken _ standing _ _ _ _ _ => exact .of_standing plain standing _ _

theorem kept (block : BlockTaken startup world false middle) : middle = world := by
  cases block <;> rfl

theorem changed (block : BlockTaken startup world true middle) :
    middle.at? (world.spot startup) ≠ world.at? (world.spot startup) := by
  cases block with
  | taken _ standing _ _ _ _ differ =>
    rw [world.at?_set_self (world.ne_nil_of_kept (by simp [World.HasDirectory, standing])), standing]
    simp [differ]

theorem exists?_eq (block : BlockTaken startup world removed middle) (plain : world.Plain) (path : Path) :
    middle.exists? path = world.exists? path := by
  cases block with
  | absent _ | unmarked _ _ => rfl
  | taken _ standing _ _ _ _ _ => exact plain.exists?_renewed standing _ _ path

theorem isOwned_eq (block : BlockTaken startup world removed middle) (plain : world.Plain) {path : Path}
    (apart : world.spot path ≠ world.spot startup) : middle.isOwned path = world.isOwned path := by
  cases block with
  | absent _ | unmarked _ _ => rfl
  | taken _ standing _ _ _ _ _ => exact plain.isOwned_renewed standing _ _ apart

/-- What is read is the text without its block, and a text that has none stays. -/
theorem reads (block : BlockTaken startup world removed middle) (plain : world.Plain)
    (regular : world.isFile startup = .ok true) :
    ∃ content updated, world.readText startup = .ok content ∧
      Block.remove markers content = .ok updated ∧ middle.readText startup = .ok updated ∧
      (Block.find markers content = .ok none → removed = false) := by
  cases block with
  | absent missing =>
    rw [regular] at missing
    cases missing
  | @unmarked content read unfound =>
    exact ⟨content, content, read, Block.remove_of_find_none unfound, read, fun _ => rfl⟩
  | @taken mode bytes content updated span located standing read found removed unified differ =>
    refine ⟨content, updated, read, removed, ?_, fun unfound => ?_⟩
    · rw [World.readText_of_located (plain.located_set located _ _), Utf8.decode_encode]
      exact congrArg Except.ok (Text.unifyNewlines_of_not_mem unified)
    · rw [found] at unfound
      cases unfound

end BlockTaken

/-- How a removal of the script that came to its end left the files. -/
inductive ScriptTaken (target : Path) (before : World) : Removal → World → Prop
  | absent (missing : before.exists? target = .ok false) : ScriptTaken target before .absent before
  | foreign (present : before.exists? target = .ok true) (unowned : before.isOwned target = .ok false) :
      ScriptTaken target before .foreign before
  | removed {mode : Nat} {bytes : Bytes} (reaches : before.Reaches target)
      (standing : before.at? (before.spot target) = some (.file mode bytes))
      (owned : before.isOwned target = .ok true) :
      ScriptTaken target before .removed
        { before with files := before.files.erase (before.spot target) }

theorem removeScript_taken (plain : world.Plain) {removal : Removal}
    (run : removeScript target world = (.ok removal, after)) :
    ScriptTaken target world removal after := by
  obtain ⟨present, there, run⟩ := Disk.look_bind_eq_ok run
  cases present with
  | false =>
    cases run
    exact .absent there
  | true =>
    obtain ⟨owned, owner, run⟩ := Disk.look_bind_eq_ok run
    cases owned with
    | false =>
      cases run
      exact .foreign there owner
    | true =>
      obtain ⟨location, mode, bytes, located, -⟩ := World.isOwned_ok owner
      obtain ⟨reaches, rfl, standing⟩ := (plain.locate_taken_iff (by simp)).mp located
      have itself : world.locate .itself target = .ok (.taken (world.spot target) (.file mode bytes)) :=
        (plain.locate_taken_iff (by simp)).mpr ⟨reaches, rfl, standing⟩
      have removed : world.removeFile target =
          .ok { world with files := world.files.erase (world.spot target) } := by
        rw [World.removeFile, itself]
        rfl
      simp only [if_true] at run
      rw [Disk.run_bind, Disk.run_change, removed] at run
      cases run
      exact .removed reaches standing owner

namespace ScriptTaken

variable {removal : Removal}

theorem evolves (script : ScriptTaken target world removal after) (plain : world.Plain) :
    Evolves (fun _ => False) (· = world.spot target) world after := by
  cases script with
  | absent _ | foreign _ _ => exact .refl plain
  | removed _ standing _ => exact .of_erase plain (by simp [World.HasDirectory, standing])

theorem kept (script : ScriptTaken target world removal after) (other : removal ≠ .removed) :
    after = world := by
  cases script with
  | absent _ | foreign _ _ => rfl
  | removed _ _ _ => exact absurd rfl other

theorem changed (script : ScriptTaken target world .removed after) :
    after.at? (world.spot target) ≠ world.at? (world.spot target) := by
  cases script with
  | removed _ standing _ =>
    rw [world.at?_erase (world.ne_nil_of_kept (by simp [World.HasDirectory, standing])), if_pos rfl, standing]
    simp

/-- Nothing is at the script's path afterwards when nothing was there or the script was ours. -/
theorem absent_iff {directory : Path} {name : Text} (proper : IsName name)
    (script : ScriptTaken (directory.child name) world removal after) (plain : world.Plain) :
    after.exists? (directory.child name) = .ok false ↔
      world.exists? (directory.child name) = .ok false ∨ world.isOwned (directory.child name) = .ok true := by
  cases script with
  | absent missing => simp [missing]
  | foreign present unowned => simp [present, unowned]
  | removed reaches standing owned => simp [plain.exists?_erase proper reaches standing, owned]

theorem foreign_of_unowned (script : ScriptTaken target world removal after)
    (unowned : world.isOwned target = .ok false) : removal ≠ .removed := by
  rintro rfl
  cases script with
  | removed _ _ owned =>
    rw [unowned] at owned
    cases owned

end ScriptTaken

/-- What a removal did to the files, and that its outcome tells whether it did anything. -/
structure Removes (startup target : Path) (before after : World) (outcome : UninstallOutcome) : Prop where
  told : outcome.success = true ↔ ∃ location, after.at? location ≠ before.at? location
  reads : before.isFile startup = .ok true → ∃ content updated,
    before.readText startup = .ok content ∧ Block.remove markers content = .ok updated ∧
      after.readText startup = .ok updated ∧
      (Block.find markers content = .ok none →
        after.at? (before.spot startup) = before.at? (before.spot startup))
  absent : after.exists? target = .ok false ↔
    before.exists? target = .ok false ∨ before.isOwned target = .ok true
  foreign : before.isOwned target = .ok false →
    after.at? (before.spot target) = before.at? (before.spot target)
  elsewhere : ∀ location, location ≠ before.spot startup → location ≠ before.spot target →
    after.at? location = before.at? location

/-- Both parts of a removal together. -/
theorem removes_of_taken {directory : Path} {name : Text} (proper : IsName name) (plain : world.Plain)
    {removed : Bool} {removal : Removal} (block : BlockTaken startup world removed middle)
    (script : ScriptTaken (directory.child name) middle removal after)
    (apart : world.spot (directory.child name) ≠ world.spot startup) :
    Removes startup (directory.child name) world after
      (removalOutcome startup (directory.child name) removed removal) := by
  have first := block.evolves plain
  have second := script.evolves first.plain
  have spot := first.spot (directory.child name)
  rw [spot] at second
  have startupKept : after.at? (world.spot startup) = middle.at? (world.spot startup) :=
    second.same (by simp) apart.symm
  have targetKept : middle.at? (world.spot (directory.child name)) =
      world.at? (world.spot (directory.child name)) := first.same (by simp) apart
  refine ⟨?_, fun regular => ?_, ?_, fun unowned => ?_, fun location other otherTarget => ?_⟩
  · rw [removalOutcome_success]
    constructor
    · rintro (rfl | rfl)
      · exact ⟨_, startupKept ▸ block.changed⟩
      · have changed := script.changed
        rw [spot, targetKept] at changed
        exact ⟨_, changed⟩
    · rintro ⟨location, differ⟩
      cases removed with
      | true => exact Or.inl rfl
      | false =>
        refine Or.inr (Decidable.byContradiction fun other => differ ?_)
        rw [script.kept other, block.kept]
  · obtain ⟨content, updated, read, without, now, unmarked⟩ := block.reads plain regular
    refine ⟨content, updated, read, without, second.readText first.plain now ?_, fun unfound => ?_⟩
    · rw [first.spot]
      exact apart.symm
    · obtain rfl := unmarked unfound
      rw [startupKept, block.kept]
  · rw [script.absent_iff proper first.plain, block.exists?_eq plain, block.isOwned_eq plain apart]
  · rw [← block.isOwned_eq plain apart] at unowned
    rw [script.kept (script.foreign_of_unowned unowned), targetKept]
  · rw [second.same (by simp) otherTarget, first.same (by simp) other]

variable {installer : Installer} {outcome : UninstallOutcome}

/-- Neither the system nor a text that is no UTF-8 keeps a removal from its end. -/
def Undisturbed (startup target : Path) (world : World) : Prop :=
  ∀ fault, (removeAll startup target world).1 = .error fault →
    fault.isSystem = false ∧ fault.isUndecodable = false

theorem removeAll_failsAt (startup target : Path) (world : World) :
    FailsAt world (fun fault => fault.OnDisk ∨ fault.isUndecodable = true ∨ Ambiguous startup world)
      (removeAll startup target) :=
  .bind (removeBlock_failsAt startup world) fun _ middle _ =>
    .bind ((removeScript_onDisk target middle).mono fun _ onDisk => Or.inl onDisk) fun _ _ _ => .pure _

/-- With an ambiguous startup file a removal comes to its end, but not to a success. -/
theorem uninstall_ambiguous (resolved : installer.scriptPath world = .ok target)
    (ambiguous : Ambiguous installer.startupFile world) :
    ∃ outcome, installer.uninstall world = (.ok outcome, world) ∧ outcome.success = false := by
  obtain ⟨failure, block⟩ := ambiguous.removeBlock
  rw [uninstall, Disk.run_look_bind resolved, Disk.run_bind, Disk.run_attempt, removeAll,
    Disk.run_bind_error block]
  exact ⟨_, rfl, rfl⟩

/-- Both parts of a removal make up its outcome. -/
theorem uninstall_ended {blockRemoved : Bool} {removal : Removal}
    (resolved : installer.scriptPath world = .ok target)
    (block : removeBlock installer.startupFile world = (.ok blockRemoved, middle))
    (script : removeScript target middle = (.ok removal, after)) :
    installer.uninstall world =
      (.ok (removalOutcome installer.startupFile target blockRemoved removal), after) := by
  rw [uninstall, Disk.run_look_bind resolved, Disk.run_bind, Disk.run_attempt, removeAll,
    Disk.run_bind_ok block, Disk.run_bind_ok script]
  rfl

/-- Where nothing keeps a removal from its end, its outcome is that of both parts. -/
theorem uninstall_undisturbed (resolved : installer.scriptPath world = .ok target)
    (paired : ¬ Ambiguous installer.startupFile world)
    (undisturbed : Undisturbed installer.startupFile target world)
    (run : installer.uninstall world = (.ok outcome, after)) :
    removeAll installer.startupFile target world = (.ok outcome, after) := by
  rcases uninstall_reported resolved run with done | ⟨-, fault, stopped, told⟩
  · exact done
  · obtain ⟨calm, decodable⟩ := undisturbed fault (by rw [stopped])
    rcases removeAll_failsAt _ _ _ fault after stopped with (system | wayward) | undecodable | ambiguous
    · simp [calm] at system
    · rcases told with ⟨failure, rfl⟩ | system | undecodable
      · cases wayward
      · simp [calm] at system
      · simp [decodable] at undecodable
    · simp [decodable] at undecodable
    · exact absurd ambiguous paired

theorem homeAfter_installed (bytes : Bytes) (script : Text) :
    Installed (homeInstaller [] false).home script (homeAfter bytes script) := by
  obtain ⟨outcome, run, success, -⟩ := homeInstaller_install [] bytes script
  exact install_installed (World.homeWith_evolves bytes).plain (homeInstaller_installDir [] false _) run
    (Or.inl success)

theorem homeAfter_readText (text script : Text) :
    (homeAfter (Utf8.encode text) script).readText (homeInstaller [] false).startupFile =
      .ok text.unifyNewlines := by
  have located : (homeAfter (Utf8.encode text) script).locate .target
      (homeInstaller [] false).startupFile = _ := homeAfter_located _ script
  rw [World.readText_of_located located, Utf8.decode_encode]

/-- The outcome of a removal tells what became of the files. Where the markers of a startup file
that can be read do not stand in pairs, it is no success and nothing has changed. Otherwise, where
neither the system nor an undecodable text comes in between, it is a success exactly when something
has changed; the startup file has its text without the block, and its bytes where it had none; the
script is gone exactly when it was missing or ours, and a foreign one is left; and nothing else has
changed. -/
theorem uninstall_tells (plain : world.Plain) (run : installer.uninstall world = (.ok outcome, after)) :
    ∃ target, installer.scriptPath world = .ok target ∧
      (Ambiguous installer.startupFile world → outcome.success = false ∧ after = world) ∧
      (¬ Ambiguous installer.startupFile world → Undisturbed installer.startupFile target world →
        Removes installer.startupFile target world after outcome) := by
  cases located : installer.installDir world with
  | error fault =>
    rw [uninstall_unresolved (scriptPath_error located)] at run
    cases run
  | ok directory =>
    have resolved := scriptPath_eq located
    refine ⟨_, resolved, fun ambiguous => ?_, fun paired undisturbed => ?_⟩
    · obtain ⟨told, same, failed⟩ := uninstall_ambiguous resolved ambiguous
      cases run.symm.trans same
      exact ⟨failed, rfl⟩
    have place : ScriptPlace world directory (world.spot (directory.child scriptName)) := Or.inl rfl
    obtain ⟨removed, middle, removal, block, script, rfl⟩ :=
      removeAll_eq_ok (uninstall_undisturbed resolved paired undisturbed run)
    have first := removeBlock_taken plain block
    exact removes_of_taken scriptName_isName plain first
      (removeScript_taken (first.evolves plain).plain script) place.apart

/-- A block between lines that end in their own way is taken out together with the script, and a
lone marker keeps both where they are. -/
theorem uninstall_tells_at_home :
    let installer := homeInstaller [] false
    let script := Zsh.Target.generate ⟨"demo".toList, []⟩ []
    let marked := homeAfter (Utf8.encode
      "a\r\n# >>> spectest completion >>>\r\nx\r\n# <<< spectest completion <<<\r\nb\r\n".toList) script
    let lone := homeAfter (Utf8.encode "# >>> spectest completion >>>\n".toList) script
    (∃ outcome after, installer.uninstall marked = (.ok outcome, after) ∧ outcome.success = true ∧
      after.readText installer.startupFile = .ok "a\nb\n".toList) ∧
      ∃ outcome, installer.uninstall lone = (.ok outcome, lone) ∧ outcome.success = false := by
  intro installer script marked lone
  have resolved (world : World) : installer.scriptPath world = .ok (installer.home.child scriptName) :=
    scriptPath_eq (homeInstaller_installDir [] false world)
  constructor
  · have installed : Installed installer.home script marked := homeAfter_installed _ script
    have located : marked.locate .target installer.startupFile = _ := homeAfter_located _ script
    have read := homeAfter_readText
      "a\r\n# >>> spectest completion >>>\r\nx\r\n# <<< spectest completion <<<\r\nb\r\n".toList script
    have taken : Block.remove markers (Text.unifyNewlines
        "a\r\n# >>> spectest completion >>>\r\nx\r\n# <<< spectest completion <<<\r\nb\r\n".toList) =
          .ok "a\nb\n".toList := by rfl
    have block := removeBlock_eq installed.plain located (Utf8.decode_encode _)
    have fine : marked.replaceFault? ["home".toList, ".zshrc".toList] = none := homeAfter_fine _ script
    rw [taken] at block
    dsimp only at block
    rw [if_neg (by decide), fine] at block
    have gone := removeScript_installed (installed.evolves (removeBlock_evolves installed.plain block))
    have run := uninstall_ended (resolved marked) block gone
    have paired : ¬ Ambiguous installer.startupFile marked := by
      rintro ⟨-, content, marker, seen, failed⟩
      obtain rfl := Except.ok.inj (read.symm.trans seen)
      rw [Block.remove_of_find_error failed] at taken
      cases taken
    have undisturbed : Undisturbed installer.startupFile (installer.home.child scriptName) marked := by
      intro fault failed
      rw [removeAll, Disk.run_bind_ok block, Disk.run_bind_ok gone] at failed
      cases failed
    obtain ⟨target, same, -, tells⟩ := uninstall_tells installed.plain run
    obtain rfl := Except.ok.inj ((resolved marked).symm.trans same)
    obtain ⟨content, updated, seen, removal, now, -⟩ :=
      (tells paired undisturbed).reads (World.isFile_of_located located)
    obtain rfl := Except.ok.inj (read.symm.trans seen)
    obtain rfl := Except.ok.inj (taken.symm.trans removal)
    exact ⟨_, _, run, (removalOutcome_success _ _ _ _).mpr (Or.inl rfl), now⟩
  · have plain : lone.Plain := (homeAfter_installed _ script).plain
    have located : lone.locate .target installer.startupFile = _ := homeAfter_located _ script
    have ambiguous : Ambiguous installer.startupFile lone :=
      ⟨World.isFile_of_located located, _, _, homeAfter_readText _ script, rfl⟩
    obtain ⟨outcome, run, -⟩ := uninstall_ambiguous (resolved lone) ambiguous
    obtain ⟨target, -, tells, -⟩ := uninstall_tells plain run
    exact ⟨outcome, run, (tells ambiguous).1⟩

end Installer

end TabCompletion
