import TabCompletion.Installer.Install
import TabCompletion.Installer.Uninstall
import TabCompletion.Proofs.Block
import TabCompletion.Proofs.Layout
import TabCompletion.Proofs.Utf8
import TabCompletion.Proofs.Word

namespace TabCompletion

open World (Plain Evolves Reaches)

/-- The text of a path stays on one line. -/
def Path.OneLine (path : Path) : Prop :=
  '\n' ∉ path.text ∧ '\r' ∉ path.text

instance (path : Path) : Decidable path.OneLine :=
  inferInstanceAs (Decidable (_ ∧ _))

namespace Installer

theorem markers_proper : markers.Proper :=
  ⟨by decide, by decide, by decide⟩

/-- A text of which no line is a marker has no block. -/
theorem find_of_unmarked {text : Text} (unified : '\r' ∉ text)
    (unmarked : markers.start ∉ text.newlinePieces ∧ markers.finish ∉ text.newlinePieces) :
    Block.find markers text = .ok none :=
  Block.find_eq_none (Block.findLine?_eq_none_of_pieces markers_proper.start.1 unified unmarked.1)
    (Block.findLine?_eq_none_of_pieces markers_proper.finish.1 unified unmarked.2)

/-- The first line of the block's body. -/
def searchPathLine (directory : Path) : Text :=
  "fpath=(".toList ++ Zsh.quote directory.text ++ " $fpath)".toList

def initLine : Text := "autoload -Uz compinit && compinit"

theorem initLine_single : '\n' ∉ initLine ∧ '\r' ∉ initLine := by decide

theorem blockBody_eq (directory : Path) :
    blockBody directory = searchPathLine directory ++ '\n' :: initLine := by
  have split : " $fpath)\nautoload -Uz compinit && compinit".toList =
      " $fpath)".toList ++ '\n' :: initLine := rfl
  unfold blockBody searchPathLine
  rw [split, List.append_assoc, List.append_assoc, List.append_assoc]

theorem inner_blockBody (directory : Path) : Block.inner (blockBody directory) = blockBody directory := by
  have last : initLine = "autoload -Uz compinit && compini".toList ++ ['t'] := rfl
  have shape : blockBody directory =
      (searchPathLine directory ++ '\n' :: "autoload -Uz compinit && compini".toList) ++ ['t'] := by
    rw [blockBody_eq, last, List.append_assoc, List.cons_append]
  rw [Block.inner, Text.dropFinal, shape, List.reverse_append, List.reverse_singleton,
    List.singleton_append, List.dropWhile_cons_of_neg (by decide), List.reverse_cons,
    List.reverse_reverse]

/-- The line has no characters but those of the directory and a few of its own. -/
theorem not_mem_searchPathLine {directory : Path} {c : Char} (absent : c ∉ directory.text)
    (other : c ∉ "fpath=('\\ $)".toList) : c ∉ searchPathLine directory := by
  simp at other
  have quoted : c ∉ Zsh.quote directory.text := Zsh.not_mem_quote absent (by simp [other])
  unfold searchPathLine
  simp only [List.mem_append, not_or]
  exact ⟨⟨by simp [other], quoted⟩, by simp [other]⟩

theorem searchPathLine_single {directory : Path} (single : directory.OneLine) :
    '\n' ∉ searchPathLine directory ∧ '\r' ∉ searchPathLine directory :=
  ⟨not_mem_searchPathLine single.1 (by decide), not_mem_searchPathLine single.2 (by decide)⟩

theorem searchPathLine_ne (directory : Path) : searchPathLine directory ≠ markers.finish := by
  intro same
  have first : (searchPathLine directory).head? = some 'f' := rfl
  rw [same] at first
  exact absurd first (by decide)

/-- No line of the block's body ends the block. -/
theorem blockBody_free {directory : Path} (single : directory.OneLine) :
    Block.findLine? markers.finish (Block.inner (blockBody directory)) = none := by
  have first := Block.findLine?_of_ne (searchPathLine_single single) (searchPathLine_ne directory)
  have rest : Block.findLine? markers.finish initLine = none :=
    Block.findLine?_of_ne initLine_single (by decide)
  rw [inner_blockBody, blockBody_eq]
  rw [Block.findLine?_append_newline markers_proper.finish.1]
  rw [first, rest]
  rfl

theorem carriage_not_mem_render {directory : Path} (single : directory.OneLine) :
    '\r' ∉ Block.render markers (blockBody directory) := by
  obtain ⟨lines, same, shape⟩ := Block.render_eq markers (blockBody directory)
  have body : '\r' ∉ blockBody directory := by
    rw [blockBody_eq]
    simp only [List.mem_append, List.mem_cons, not_or]
    exact ⟨(searchPathLine_single single).2, by decide, initLine_single.2⟩
  have inside : '\r' ∉ lines := by
    rcases shape with rfl | rfl
    · simp
    · rw [inner_blockBody]
      simpa using body
  rw [same]
  simp only [List.mem_append, List.mem_cons, not_or]
  exact ⟨markers_proper.start.2, by decide, inside, markers_proper.finish.2⟩

theorem carriage_not_mem_append {directory : Path} {text : Text} (single : directory.OneLine)
    (unified : '\r' ∉ text) : '\r' ∉ Block.append markers (blockBody directory) text := by
  have block := carriage_not_mem_render single
  simp [Block.append, unified, block]

theorem carriage_not_mem_splice {directory : Path} {text : Text} (single : directory.OneLine)
    (unified : '\r' ∉ text) (span : Span) :
    '\r' ∉ Block.splice text span (Block.render markers (blockBody directory)) := by
  simp only [Block.splice, List.mem_append, not_or]
  exact ⟨⟨fun member => unified (List.mem_of_mem_take member), carriage_not_mem_render single⟩,
    fun member => unified (List.mem_of_mem_drop member)⟩

theorem splice_append (body other text : Text) :
    Block.splice (Block.append markers body text)
        ⟨text.length + 1, text.length + 1 + (Block.render markers body).length⟩
        (Block.render markers other) =
      Block.append markers other text := by
  have before : (text ++ ['\n']).length = text.length + 1 := by simp
  have whole : Block.append markers body text =
      (text ++ ['\n']) ++ (Block.render markers body ++ ['\n']) := by simp [Block.append]
  rw [Block.splice, whole, ← before, List.take_left, ← List.drop_drop, List.drop_left, List.drop_left]
  simp [Block.append]

/-- A block at the end of a text gets the directory of the latest installation. -/
theorem configuredText_appended {startup directory earlier home : Path} {text : Text}
    (unmarked : Block.find markers text = .ok none) (single : earlier.OneLine) :
    configuredText startup directory home (Block.append markers (blockBody earlier) text) =
      .ok (.inl (Block.append markers (blockBody directory) text)) := by
  have found := Block.find_append markers_proper (Block.findLine?_of_find_none unmarked).1
    (blockBody_free single)
  unfold configuredText
  rw [found]
  exact congrArg (fun updated => Except.ok (Sum.inl updated))
    (splice_append (blockBody earlier) (blockBody directory) text)

/-- A text that is given its block had one in its place before, or gets it at its end. -/
theorem configuredText_cases {startup directory home : Path} {text updated : Text}
    (configured : configuredText startup directory home text = .ok (.inl updated)) :
    (∃ span, Block.find markers text = .ok (some span) ∧
        updated = Block.splice text span (Block.render markers (blockBody directory))) ∨
      Block.find markers text = .ok none ∧ referencesDirectory text directory home = false ∧
        updated = Block.append markers (blockBody directory) text := by
  obtain ⟨span?, found, configured⟩ := ok_of_bind configured
  cases span? with
  | some span =>
    cases configured
    exact Or.inl ⟨span, found, rfl⟩
  | none =>
    cases referenced : referencesDirectory text directory home with
    | true =>
      rw [referenced] at configured
      cases configured
    | false =>
      rw [referenced] at configured
      cases configured
      exact Or.inr ⟨found, rfl, rfl⟩

/-- The text in the startup file, its block aside, is the given one. -/
def Carries (text content : Text) : Prop :=
  content = text ∨ ∃ directory : Path, directory.OneLine ∧
    content = Block.append markers (blockBody directory) text

/-- The block of a directory is what a startup file without one, or with one at its end,
is given. -/
theorem Carries.configured {startup directory home : Path} {text content updated : Text}
    (carries : Carries text content) (unmarked : Block.find markers text = .ok none)
    (configured : configuredText startup directory home content = .ok (.inl updated)) :
    updated = Block.append markers (blockBody directory) text := by
  rcases carries with rfl | ⟨earlier, single, rfl⟩
  · rcases configuredText_cases configured with ⟨span, found, -⟩ | ⟨-, -, same⟩
    · rw [unmarked] at found
      cases found
    · exact same
  · rw [configuredText_appended unmarked single] at configured
    cases configured
    rfl

theorem append_ne (markers : Markers) (body text : Text) : text ≠ Block.append markers body text := by
  intro same
  have length := congrArg List.length same
  simp only [Block.append, List.length_append, List.length_cons] at length
  omega

/-- A text that was given its block is given the same text again. -/
theorem configuredText_again {startup directory home : Path} {text updated : Text}
    (single : directory.OneLine) (unified : '\r' ∉ text)
    (configured : configuredText startup directory home text = .ok (.inl updated)) :
    configuredText startup directory home updated = .ok (.inl updated) ∧ '\r' ∉ updated := by
  rcases configuredText_cases configured with ⟨span, found, rfl⟩ | ⟨found, -, rfl⟩
  · have there := Block.find_splice markers_proper found (blockBody_free single)
    obtain ⟨-, ordered, within, -⟩ := Block.find_eq_some markers_proper.start.1 markers_proper.finish.1 found
    refine ⟨?_, carriage_not_mem_splice single unified span⟩
    rw [configuredText, there]
    exact congrArg (fun updated => Except.ok (Sum.inl updated))
      (Block.splice_splice (Nat.le_trans ordered within) _ _)
  · exact ⟨configuredText_appended found single, carriage_not_mem_append single unified⟩

/-- The startup file is edited as its text says, or not at all. -/
theorem editStartup_eq {installer : Installer} {world : World} {location : Location} {mode : Nat}
    {bytes : Bytes} {text : Text} {directory : Path} (plain : world.Plain)
    (located : world.locate .target installer.startupFile = .ok (.taken location (.file mode bytes)))
    (decoded : Utf8.decode bytes = .ok text)
    (resolved : installer.installDir world = .ok directory) :
    installer.editStartup world =
      match configuredText installer.startupFile directory installer.home text.unifyNewlines with
      | .error marker => (.error (.failure (.missingMarker (some installer.startupFile) marker)), world)
      | .ok (.inr instructions) => (.ok (some instructions), world)
      | .ok (.inl updated) =>
        if updated = text.unifyNewlines then (.ok none, world)
        else
          match world.replaceFault? location with
          | some fault => (.error fault, world)
          | none => (.ok none, world.set location (.file (mode % 0o1000) (Utf8.encode updated))) := by
  have content : world.readText installer.startupFile = .ok text.unifyNewlines := by
    rw [World.readText_of_located located, decoded]
  unfold editStartup
  simp only [Disk.run_bind, Disk.run_look, content, resolved]
  cases configuredText installer.startupFile directory installer.home text.unifyNewlines with
  | error marker => rfl
  | ok outcome =>
    cases outcome with
    | inr instructions => rfl
    | inl updated =>
      simp only [Disk.ofBlock, Disk.run_pure]
      by_cases same : updated = text.unifyNewlines
      · simp only [same, if_true]
        rfl
      · simp only [same, if_false, Disk.run_bind, Disk.writeText_standing plain located]
        cases world.replaceFault? location <;> rfl

theorem editStartup_unread {installer : Installer} {world : World} {fault : Fault}
    (unread : world.readText installer.startupFile = .error fault) :
    installer.editStartup world = (.error fault, world) := by
  rw [editStartup, Disk.run_look_bind_error unread]

/-- The startup file of one world given its block, so that another world is left. -/
structure Configured (installer : Installer) (directory : Path) (before after : World)
    (location : Location) (mode : Nat) (text updated : Text) : Prop where
  located : ∃ bytes, before.locate .target installer.startupFile =
    .ok (.taken location (.file mode bytes)) ∧ Utf8.decode bytes = .ok text
  configured : configuredText installer.startupFile directory installer.home text.unifyNewlines =
    .ok (.inl updated)
  differ : updated ≠ text.unifyNewlines
  fine : before.replaceFault? location = none
  after : after = before.set location (.file (mode % 0o1000) (Utf8.encode updated))

/-- A file that was given its block is the one that is found there. -/
theorem Configured.same {installer : Installer} {directory : Path} {before after : World}
    {location other : Location} {mode bits : Nat} {bytes : Bytes} {text read updated : Text}
    (configured : installer.Configured directory before after other bits read updated)
    (located : before.locate .target installer.startupFile = .ok (.taken location (.file mode bytes)))
    (decoded : Utf8.decode bytes = .ok text) : location = other ∧ mode = bits ∧ text = read := by
  obtain ⟨found, there, again⟩ := configured.located
  have same := there.symm.trans located
  simp only [Except.ok.injEq, Place.taken.injEq, Node.file.injEq] at same
  obtain ⟨rfl, rfl, rfl⟩ := same
  exact ⟨rfl, rfl, Except.ok.inj (decoded.symm.trans again)⟩

/-- How an edit of the startup file, with the given bytes at a location, comes to its end. -/
inductive Edits (installer : Installer) (directory : Path) (world : World) (location : Location)
    (mode : Nat) (bytes : Bytes) : Except Fault (Option (List Text)) → World → Prop
  | undecodable {invalid : Utf8.Fault} (undecodable : Utf8.decode bytes = .error invalid) :
      Edits installer directory world location mode bytes (.error (.undecodable invalid)) world
  | marked {text marker : Text} (decoded : Utf8.decode bytes = .ok text)
      (configured : configuredText installer.startupFile directory installer.home text.unifyNewlines =
        .error marker) :
      Edits installer directory world location mode bytes
        (.error (.failure (.missingMarker (some installer.startupFile) marker))) world
  | referenced {text : Text} {instructions : List Text} (decoded : Utf8.decode bytes = .ok text)
      (configured : configuredText installer.startupFile directory installer.home text.unifyNewlines =
        .ok (.inr instructions)) :
      Edits installer directory world location mode bytes (.ok (some instructions)) world
  | current {text : Text} (decoded : Utf8.decode bytes = .ok text)
      (configured : configuredText installer.startupFile directory installer.home text.unifyNewlines =
        .ok (.inl text.unifyNewlines)) :
      Edits installer directory world location mode bytes (.ok none) world
  | refused {text updated : Text} {fault : Fault} (decoded : Utf8.decode bytes = .ok text)
      (configured : configuredText installer.startupFile directory installer.home text.unifyNewlines =
        .ok (.inl updated))
      (differ : updated ≠ text.unifyNewlines) (refused : world.replaceFault? location = some fault) :
      Edits installer directory world location mode bytes (.error fault) world
  | written {text updated : Text} (decoded : Utf8.decode bytes = .ok text)
      (configured : configuredText installer.startupFile directory installer.home text.unifyNewlines =
        .ok (.inl updated))
      (differ : updated ≠ text.unifyNewlines) (fine : world.replaceFault? location = none) :
      Edits installer directory world location mode bytes (.ok none)
        (world.set location (.file (mode % 0o1000) (Utf8.encode updated)))

section Edits

variable {installer : Installer} {directory : Path} {world after : World} {location : Location}
  {mode : Nat} {bytes : Bytes} {result : Except Fault (Option (List Text))}

theorem editStartup_iff (plain : world.Plain)
    (located : world.locate .target installer.startupFile = .ok (.taken location (.file mode bytes)))
    (resolved : installer.installDir world = .ok directory) :
    installer.editStartup world = (result, after) ↔
      installer.Edits directory world location mode bytes result after := by
  constructor
  · intro run
    cases decoded : Utf8.decode bytes with
    | error invalid =>
      have unread : world.readText installer.startupFile = .error (.undecodable invalid) := by
        rw [World.readText_of_located located, decoded]
      rw [editStartup_unread unread] at run
      cases run
      exact .undecodable decoded
    | ok text =>
      rw [editStartup_eq plain located decoded resolved] at run
      split at run
      · rename_i configured
        cases run
        exact .marked decoded configured
      · rename_i configured
        cases run
        exact .referenced decoded configured
      · rename_i configured
        split at run
        · rename_i same
          cases run
          exact .current decoded (same ▸ configured)
        · rename_i differ
          split at run
          · rename_i refused
            cases run
            exact .refused decoded configured differ refused
          · rename_i fine
            cases run
            exact .written decoded configured differ fine
  · intro edits
    cases edits with
    | undecodable undecodable =>
      exact editStartup_unread (by rw [World.readText_of_located located, undecodable])
    | marked decoded configured => rw [editStartup_eq plain located decoded resolved, configured]
    | referenced decoded configured => rw [editStartup_eq plain located decoded resolved, configured]
    | current decoded configured =>
      rw [editStartup_eq plain located decoded resolved, configured]
      exact if_pos rfl
    | refused decoded configured differ refused =>
      rw [editStartup_eq plain located decoded resolved, configured, refused]
      exact if_neg differ
    | written decoded configured differ fine =>
      rw [editStartup_eq plain located decoded resolved, configured, fine]
      exact if_neg differ

/-- An edit of the startup file gives it its block, or changes nothing. -/
theorem Edits.changed (edits : installer.Edits directory world location mode bytes result after)
    (located : world.locate .target installer.startupFile = .ok (.taken location (.file mode bytes))) :
    after = world ∨ result = .ok none ∧ ∃ text updated,
      installer.Configured directory world after location mode text updated := by
  cases edits with
  | written decoded configured differ fine =>
    exact Or.inr ⟨rfl, _, _, ⟨_, located, decoded⟩, configured, differ, fine, rfl⟩
  | _ => exact Or.inl rfl

theorem Edits.unchanged {fault : Fault}
    (edits : installer.Edits directory world location mode bytes (.error fault) after) :
    after = world := by
  cases edits <;> rfl

end Edits

theorem handInstructions_eq {installer : Installer} {world : World} {directory : Path}
    (resolved : installer.installDir world = .ok directory) :
    installer.handInstructions world =
      (.ok (some (manualInstructions installer.startupFile directory)), world) := by
  rw [handInstructions, Disk.run_look_bind resolved]
  rfl

/-- What configuring the startup file comes to when the file is left to the user. -/
def leftToUser (installer : Installer) (directory : Path) (note : Text) (world : World) :
    Except Fault (Option (List Text)) × World :=
  (.ok (some (manualInstructions installer.startupFile directory)),
    { world with notes := world.notes ++ [note] })

theorem configure_off {installer : Installer} {world : World} {directory : Path}
    (resolved : installer.installDir world = .ok directory)
    (off : installer.settings.autoConfigure = false) :
    installer.configure world =
      (.ok (some (manualInstructions installer.startupFile directory)), world) := by
  simp only [configure, off, Bool.not_false, if_true]
  exact handInstructions_eq resolved

theorem configure_unseen {installer : Installer} {world : World} {fault : Fault}
    (on : installer.settings.autoConfigure = true)
    (unseen : world.isFile installer.startupFile = .error fault) :
    installer.configure world = (.error fault, world) := by
  simp only [configure, on, Bool.not_true, Bool.false_eq_true, if_false]
  rw [Disk.run_look_bind_error unseen]

theorem configure_absent {installer : Installer} {world : World} {directory : Path}
    (resolved : installer.installDir world = .ok directory)
    (on : installer.settings.autoConfigure = true)
    (absent : world.isFile installer.startupFile = .ok false) :
    ∃ note, installer.configure world = installer.leftToUser directory note world := by
  simp only [configure, on, Bool.not_true, Bool.false_eq_true, if_false]
  rw [Disk.run_look_bind absent]
  simp only [Bool.false_eq_true, if_false]
  rw [Disk.run_bind, Disk.run_note]
  exact ⟨_, handInstructions_eq resolved⟩

theorem configure_edited {installer : Installer} {world after : World}
    {instructions : Option (List Text)} (on : installer.settings.autoConfigure = true)
    (regular : world.isFile installer.startupFile = .ok true)
    (edited : installer.editStartup world = (.ok instructions, after)) :
    installer.configure world = (.ok instructions, after) := by
  simp only [configure, on, Bool.not_true, Bool.false_eq_true, if_false]
  rw [Disk.run_look_bind regular]
  simp only [if_true]
  rw [Disk.run_bind, Disk.run_attempt, edited]
  rfl

/-- A startup file that the system or its own bytes keep from being edited is left to the
user. -/
theorem configure_refused {installer : Installer} {world : World} {directory : Path} {fault : Fault}
    (resolved : installer.installDir world = .ok directory)
    (on : installer.settings.autoConfigure = true)
    (regular : world.isFile installer.startupFile = .ok true)
    (refused : installer.editStartup world = (.error fault, world)) :
    if fault.isSystem || fault.isUndecodable then
      ∃ note, installer.configure world = installer.leftToUser directory note world
    else installer.configure world = (.error fault, world) := by
  simp only [configure, on, Bool.not_true, Bool.false_eq_true, if_false]
  rw [Disk.run_look_bind regular]
  simp only [if_true]
  rw [Disk.run_bind, Disk.run_attempt, refused]
  dsimp only
  by_cases tolerated : fault.isSystem || fault.isUndecodable
  · rw [if_pos tolerated, if_pos tolerated, Disk.run_bind, Disk.run_note]
    exact ⟨_, handInstructions_eq resolved⟩
  · rw [if_neg tolerated, if_neg tolerated]
    rfl

theorem handInstructions_unresolved {installer : Installer} {world : World} {fault : Fault}
    (unresolved : installer.installDir world = .error fault) :
    installer.handInstructions world = (.error fault, world) := by
  rw [handInstructions, Disk.run_look_bind_error unresolved]

theorem editStartup_unresolved {installer : Installer} {world : World} {fault : Fault}
    (unresolved : installer.installDir world = .error fault) :
    ∃ other, installer.editStartup world = (.error other, world) := by
  cases read : world.readText installer.startupFile with
  | error other => exact ⟨other, editStartup_unread read⟩
  | ok content =>
    refine ⟨fault, ?_⟩
    unfold editStartup
    simp only [Disk.run_bind, Disk.run_look, read, unresolved]

/-- Without a directory for the script no file is changed. -/
theorem configure_unresolved {installer : Installer} {world : World} {fault : Fault}
    (unresolved : installer.installDir world = .error fault) :
    ∃ result notes, installer.configure world = (result, { world with notes := notes }) := by
  have byHand (note : Text) :
      ((Disk.note note >>= fun _ => installer.handInstructions) : Disk _) world =
        (.error fault, { world with notes := world.notes ++ [note] }) := by
    rw [Disk.run_bind, Disk.run_note]
    exact handInstructions_unresolved unresolved
  unfold configure
  cases installer.settings.autoConfigure with
  | false => exact ⟨_, world.notes, handInstructions_unresolved unresolved⟩
  | true =>
    simp only [Bool.not_true, Bool.false_eq_true, if_false]
    rw [Disk.run_bind, Disk.run_look]
    cases world.isFile installer.startupFile with
    | error other => exact ⟨_, world.notes, rfl⟩
    | ok regular =>
      cases regular with
      | false =>
        simp only [Bool.false_eq_true, if_false]
        exact ⟨_, _, byHand _⟩
      | true =>
        obtain ⟨other, edited⟩ := editStartup_unresolved unresolved
        simp only [if_true]
        rw [Disk.run_bind, Disk.run_attempt, edited]
        dsimp only
        split
        · exact ⟨_, _, byHand _⟩
        · exact ⟨_, world.notes, rfl⟩

/-- A startup file that may not be read is left to the user. -/
theorem configure_denied {installer : Installer} {world : World} {directory : Path}
    {location : Location} {mode : Nat} {bytes : Bytes}
    (resolved : installer.installDir world = .ok directory)
    (on : installer.settings.autoConfigure = true)
    (located : world.locate .target installer.startupFile = .ok (.taken location (.locked mode bytes))) :
    ∃ note, installer.configure world = installer.leftToUser directory note world := by
  have refused := configure_refused resolved on (World.isFile_of_locked located)
    (editStartup_unread (World.readText_of_locked located))
  rwa [if_pos (by rfl)] at refused

/-- How configuring the startup file comes to its end. -/
inductive Configures (installer : Installer) (directory : Path) (world : World) :
    Except Fault (Option (List Text)) → World → Prop
  | off (off : installer.settings.autoConfigure = false) :
      Configures installer directory world
        (.ok (some (manualInstructions installer.startupFile directory))) world
  | unseen {fault : Fault} (on : installer.settings.autoConfigure = true)
      (unseen : world.isFile installer.startupFile = .error fault) :
      Configures installer directory world (.error fault) world
  | absent (on : installer.settings.autoConfigure = true)
      (absent : world.isFile installer.startupFile = .ok false) (note : Text) :
      Configures installer directory world
        (.ok (some (manualInstructions installer.startupFile directory)))
        { world with notes := world.notes ++ [note] }
  | denied {location : Location} {mode : Nat} {bytes : Bytes}
      (on : installer.settings.autoConfigure = true)
      (located : world.locate .target installer.startupFile = .ok (.taken location (.locked mode bytes)))
      (note : Text) :
      Configures installer directory world
        (.ok (some (manualInstructions installer.startupFile directory)))
        { world with notes := world.notes ++ [note] }
  | edited {location : Location} {mode : Nat} {bytes : Bytes} {instructions : Option (List Text)}
      {after : World} (on : installer.settings.autoConfigure = true)
      (located : world.locate .target installer.startupFile = .ok (.taken location (.file mode bytes)))
      (edits : installer.Edits directory world location mode bytes (.ok instructions) after) :
      Configures installer directory world (.ok instructions) after
  | tolerated {location : Location} {mode : Nat} {bytes : Bytes} {fault : Fault}
      (on : installer.settings.autoConfigure = true)
      (located : world.locate .target installer.startupFile = .ok (.taken location (.file mode bytes)))
      (edits : installer.Edits directory world location mode bytes (.error fault) world)
      (tolerated : fault.isSystem || fault.isUndecodable) (note : Text) :
      Configures installer directory world
        (.ok (some (manualInstructions installer.startupFile directory)))
        { world with notes := world.notes ++ [note] }
  | thrown {location : Location} {mode : Nat} {bytes : Bytes} {fault : Fault}
      (on : installer.settings.autoConfigure = true)
      (located : world.locate .target installer.startupFile = .ok (.taken location (.file mode bytes)))
      (edits : installer.Edits directory world location mode bytes (.error fault) world)
      (grave : ¬ (fault.isSystem || fault.isUndecodable)) :
      Configures installer directory world (.error fault) world

theorem configures_of_run {installer : Installer} {world after : World} {directory : Path}
    {result : Except Fault (Option (List Text))} (plain : world.Plain)
    (resolved : installer.installDir world = .ok directory)
    (run : installer.configure world = (result, after)) :
    installer.Configures directory world result after := by
  cases on : installer.settings.autoConfigure with
  | false =>
    rw [configure_off resolved on] at run
    cases run
    exact .off on
  | true =>
    cases regular : world.isFile installer.startupFile with
    | error fault =>
      rw [configure_unseen on regular] at run
      cases run
      exact .unseen on regular
    | ok file =>
      cases file with
      | false =>
        obtain ⟨note, same⟩ := configure_absent resolved on regular
        rw [same] at run
        cases run
        exact .absent on regular note
      | true =>
        obtain ⟨location, mode, bytes, located | located⟩ := World.located_of_isFile regular
        case inr =>
          obtain ⟨note, same⟩ := configure_denied resolved on located
          rw [same] at run
          cases run
          exact .denied on located note
        cases edited : installer.editStartup world with
        | mk answer edit =>
          have edits := (editStartup_iff plain located resolved).mp edited
          cases answer with
          | ok instructions =>
            rw [configure_edited on regular edited] at run
            cases run
            exact .edited on located edits
          | error fault =>
            obtain rfl := edits.unchanged
            have same := configure_refused resolved on regular edited
            split at same
            · rename_i tolerated
              obtain ⟨note, same⟩ := same
              rw [same] at run
              cases run
              exact .tolerated on located edits tolerated note
            · rename_i grave
              rw [same] at run
              cases run
              exact .thrown on located edits grave

theorem configure_resolved {installer : Installer} {world after : World} {directory : Path}
    {result : Except Fault (Option (List Text))} (plain : world.Plain)
    (resolved : installer.installDir world = .ok directory)
    (run : installer.configure world = (result, after)) :
    (∃ notes, after = { world with notes := notes }) ∨
      result = .ok none ∧ ∃ location mode text updated,
        installer.Configured directory world after location mode text updated := by
  cases configures_of_run plain resolved run with
  | @edited location mode _ _ _ _ located edits =>
    rcases edits.changed located with same | ⟨same, rest⟩
    · exact Or.inl ⟨world.notes, same⟩
    · exact Or.inr ⟨same, location, mode, rest⟩
  | absent => exact Or.inl ⟨_, rfl⟩
  | denied => exact Or.inl ⟨_, rfl⟩
  | tolerated => exact Or.inl ⟨_, rfl⟩
  | _ => exact Or.inl ⟨world.notes, rfl⟩

/-- Configuring the startup file gives it its block, or changes no file at all. -/
theorem configure_cases {installer : Installer} {world after : World}
    {result : Except Fault (Option (List Text))} (plain : world.Plain)
    (run : installer.configure world = (result, after)) :
    (∃ notes, after = { world with notes := notes }) ∨
      result = .ok none ∧ ∃ directory location mode text updated,
        installer.installDir world = .ok directory ∧
          installer.Configured directory world after location mode text updated := by
  cases resolved : installer.installDir world with
  | error fault =>
    obtain ⟨other, notes, same⟩ := configure_unresolved resolved
    rw [run, Prod.mk.injEq] at same
    exact Or.inl ⟨notes, same.2⟩
  | ok directory =>
    rcases configure_resolved plain resolved run with quiet | ⟨same, location, mode, text, updated, rest⟩
    · exact Or.inl quiet
    · exact Or.inr ⟨same, directory, location, mode, text, updated, rfl, rest⟩

/-- The block is taken out of the startup file, or the file stays as it is. -/
theorem removeBlock_eq {startup : Path} {world : World} {location : Location} {mode : Nat}
    {bytes : Bytes} {text : Text} (plain : world.Plain)
    (located : world.locate .target startup = .ok (.taken location (.file mode bytes)))
    (decoded : Utf8.decode bytes = .ok text) :
    removeBlock startup world =
      match Block.remove markers text.unifyNewlines with
      | .error marker => (.error (.failure (.missingMarker (some startup) marker)), world)
      | .ok updated =>
        if updated = text.unifyNewlines then (.ok false, world)
        else
          match world.replaceFault? location with
          | some fault => (.error fault, world)
          | none => (.ok true, world.set location (.file (mode % 0o1000) (Utf8.encode updated))) := by
  have content : world.readText startup = .ok text.unifyNewlines := by
    rw [World.readText_of_located located, decoded]
  unfold removeBlock
  simp only [Disk.run_bind, Disk.run_look, World.isFile_of_located located, content, if_true]
  cases Block.remove markers text.unifyNewlines with
  | error marker => rfl
  | ok updated =>
    simp only [Disk.ofBlock, Disk.run_pure]
    by_cases same : updated = text.unifyNewlines
    · simp only [same, if_true]
      rfl
    · simp only [same, if_false, Disk.run_bind, Disk.writeText_standing plain located]
      cases world.replaceFault? location <;> rfl

end Installer

end TabCompletion
