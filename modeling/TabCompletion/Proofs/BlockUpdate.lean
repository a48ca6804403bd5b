import TabCompletion.Block.Update
import TabCompletion.Proofs.BlockReplacement
import TabCompletion.Proofs.Except
import TabCompletion.Proofs.Utf8
import TabCompletion.Proofs.ReplacementSteps

namespace TabCompletion

namespace Block

variable {markers : Markers} {body text updated : Text} {span : Span}

/-- A line that is found has only characters of the text. -/
theorem mem_of_findLine? {line text : Text} {offset : Nat} (found : findLine? line text = some offset)
    {c : Char} (member : c ∈ line) : c ∈ text := by
  obtain ⟨rest, split, -⟩ := beginsWithLine_iff.mp (lineOffset?_begins found)
  exact List.mem_of_mem_drop (split ▸ List.mem_append_left rest member)

/-- Both markers of a block have only characters of the text that it is found in. -/
theorem mem_of_find (found : find markers text = .ok (some span)) {c : Char} :
    (c ∈ markers.start → c ∈ text) ∧ (c ∈ markers.finish → c ∈ text) := by
  obtain ⟨distance, starts, finishes, -⟩ := markers_of_find found
  exact ⟨mem_of_findLine? starts, fun member => List.mem_of_mem_drop (mem_of_findLine? finishes member)⟩

theorem mem_of_mem_inner {c : Char} (member : c ∈ inner body) : c ∈ body := by
  obtain ⟨feeds, whole, -⟩ := inner_append body
  rw [whole]
  exact List.mem_append_left feeds member

theorem mem_render {c : Char} (member : c ∈ render markers body) :
    c ∈ markers.start ∨ c ∈ markers.finish ∨ c ∈ body ∨ c = '\n' := by
  obtain ⟨lines, same, shape⟩ := render_eq markers body
  have inside (among : c ∈ lines) : c ∈ body ∨ c = '\n' := by
    rcases shape with rfl | rfl
    · cases among
    · rcases List.mem_append.mp among with old | feed
      · exact Or.inl (mem_of_mem_inner old)
      · exact Or.inr (List.mem_singleton.mp feed)
  rw [same, List.mem_append, List.mem_cons, List.mem_append] at member
  rcases member with start | feed | among | finish
  · exact Or.inl start
  · exact Or.inr (Or.inr (Or.inr feed))
  · exact Or.inr (Or.inr (inside among))
  · exact Or.inr (Or.inl finish)

/-- A replaced body brings no carriage return into a text unless it has one itself. -/
theorem carriage_not_mem_replace (plain : '\r' ∉ text) (single : '\r' ∉ body)
    (replaced : replace markers body text = .ok updated) : '\r' ∉ updated := by
  obtain ⟨span, found, rfl⟩ := find_of_replace replaced
  obtain ⟨started, finished⟩ := mem_of_find found (c := '\r')
  simp only [splice, List.mem_append, not_or]
  refine ⟨⟨fun member => plain (List.mem_of_mem_take member), fun member => ?_⟩,
    fun member => plain (List.mem_of_mem_drop member)⟩
  rcases mem_render member with start | finish | inside | feed
  · exact plain (started start)
  · exact plain (finished finish)
  · exact single inside
  · cases feed

end Block

/-- The text of a file has no carriage returns once it is read. -/
theorem World.readText_unified {world : World} {path : Path} {text : Text}
    (read : world.readText path = .ok text) : '\r' ∉ text := by
  obtain ⟨bytes, -, decoded⟩ := ok_of_bind read
  split at decoded
  · cases decoded
    exact Text.not_mem_unifyNewlines _
  · cases decoded

namespace Disk

variable {path : Path} {markers : Markers} {body : Text} {world : World}

theorem updateBlockBy_unread {fault : Fault} (unread : world.readText path = .error fault)
    (write : Path → Text → Disk Unit) : updateBlockBy write path markers body world = (.error fault, world) := by
  rw [updateBlockBy, run_look_bind_error unread]

/-- What is written, if anything, is told by the text of the file. -/
theorem updateBlockBy_read {text : Text} (read : world.readText path = .ok text) (write : Path → Text → Disk Unit) :
    updateBlockBy write path markers body world =
      match Block.replace markers body text with
      | .error marker => (.error (.failure (.missingMarker (some path) marker)), world)
      | .ok updated => if updated = text then (.ok (), world) else write path updated world := by
  rw [updateBlockBy, run_look_bind read]
  cases Block.replace markers body text with
  | error marker => rfl
  | ok updated =>
    simp only [ofBlock, run_bind, run_pure]
    by_cases same : updated = text
    · simp only [same, if_true]
      rfl
    · simp only [same, if_false]

/-- Where writing is as good as another way to do it, so is an update. -/
theorem updateBlockBy_follows {write other : Path → Text → Disk Unit}
    (follows : ∀ content, world.readText path = .ok content → ∀ text,
      Follows world (write path text world) (other path text world)) :
    Follows world (updateBlockBy write path markers body world) (updateBlockBy other path markers body world) := by
  cases read : world.readText path with
  | error fault =>
    rw [updateBlockBy_unread read, updateBlockBy_unread read]
    exact .refl world
  | ok text =>
    rw [updateBlockBy_read read, updateBlockBy_read read]
    cases Block.replace markers body text with
    | error marker => exact .refl world
    | ok updated =>
      dsimp only
      split
      · exact ⟨rfl, .refl world⟩
      · exact follows text read updated

/-- An update step by step comes to what the update at once comes to, or nothing changes, whatever
goes wrong as long as the temporary file can be got rid of. -/
theorem updateInSteps_follows (plain : world.Plain) {trouble : Trouble} (clears : ¬ trouble.Strands) :
    Follows world (updateBlockBy (writeInSteps trouble) path markers body world)
      (updateBlock path markers body world) := by
  refine updateBlockBy_follows fun content read text => ?_
  obtain ⟨bytes, readBytes, -⟩ := ok_of_bind read
  obtain ⟨location, mode, located⟩ := World.readBytes_ok readBytes
  exact writeInSteps_follows plain located clears text

/-- A file's block is given another body as the file's text says, or nothing changes. -/
theorem updateBlock_eq (plain : world.Plain) {location : Location} {mode : Nat} {bytes : Bytes} {text : Text}
    (located : world.locate .target path = .ok (.taken location (.file mode bytes)))
    (read : world.readText path = .ok text) :
    updateBlock path markers body world =
      match Block.replace markers body text with
      | .error marker => (.error (.failure (.missingMarker (some path) marker)), world)
      | .ok updated =>
        if updated = text then (.ok (), world)
        else
          match world.replaceFault? location with
          | some fault => (.error fault, world)
          | none => (.ok (), world.set location (.file (mode % 0o1000) (Utf8.encode updated))) := by
  rw [updateBlock, updateBlockBy_read read]
  cases Block.replace markers body text with
  | error marker => rfl
  | ok updated =>
    dsimp only
    split
    · rfl
    · exact writeText_standing plain located updated

/-- One world with another body in the block of a file, or the same world when the text of the
file stays: what an update that comes to its end leaves. -/
structure Updated (path : Path) (markers : Markers) (body : Text) (world after : World) (location : Location)
    (mode : Nat) (bytes : Bytes) (text updated : Text) : Prop where
  located : world.locate .target path = .ok (.taken location (.file mode bytes))
  read : world.readText path = .ok text
  replaced : Block.replace markers body text = .ok updated
  left : updated = text ∧ after = world ∨ updated ≠ text ∧ world.replaceFault? location = none ∧
    after = world.set location (.file (mode % 0o1000) (Utf8.encode updated))

/-- An update comes to its end in a block with another body, or changes nothing. -/
theorem updateBlock_cases {after : World} {result : Except Fault Unit} (plain : world.Plain)
    (run : updateBlock path markers body world = (result, after)) :
    (∃ fault, result = .error fault) ∧ after = world ∨
      result = .ok () ∧ ∃ location mode bytes text updated,
        Updated path markers body world after location mode bytes text updated := by
  cases read : world.readText path with
  | error fault =>
    rw [updateBlock, updateBlockBy_unread read] at run
    cases run
    exact Or.inl ⟨⟨fault, rfl⟩, rfl⟩
  | ok text =>
    obtain ⟨bytes, readBytes, -⟩ := ok_of_bind read
    obtain ⟨location, mode, located⟩ := World.readBytes_ok readBytes
    rw [updateBlock_eq plain located read] at run
    cases replaced : Block.replace markers body text with
    | error marker =>
      rw [replaced] at run
      cases run
      exact Or.inl ⟨⟨_, rfl⟩, rfl⟩
    | ok updated =>
      rw [replaced] at run
      dsimp only at run
      by_cases same : updated = text
      · rw [if_pos same] at run
        cases run
        exact Or.inr ⟨rfl, location, mode, bytes, text, updated, located, read, replaced, Or.inl ⟨same, rfl⟩⟩
      · rw [if_neg same] at run
        cases fine : world.replaceFault? location with
        | some fault =>
          rw [fine] at run
          cases run
          exact Or.inl ⟨⟨fault, rfl⟩, rfl⟩
        | none =>
          rw [fine] at run
          cases run
          exact Or.inr ⟨rfl, location, mode, bytes, text, updated, located, read, replaced,
            Or.inr ⟨same, fine, rfl⟩⟩

namespace Updated

variable {after : World} {location : Location} {mode : Nat} {bytes : Bytes} {text updated : Text}

/-- The file is still there, and apart from it all is as it was. -/
theorem file (done : Updated path markers body world after location mode bytes text updated)
    (plain : world.Plain) :
    after.Plain ∧ ∃ bits bytes', after.locate .target path = .ok (.taken location (.file bits bytes')) ∧
      (bits = if updated = text then mode else mode % 0o1000) ∧
      ∀ other, other ≠ location → after.at? other = world.at? other := by
  rcases done.left with ⟨same, rfl⟩ | ⟨differ, -, rfl⟩
  · exact ⟨plain, mode, bytes, done.located, (if_pos same).symm, fun _ _ => rfl⟩
  · obtain ⟨-, -, standing⟩ := (plain.locate_taken_iff (by simp)).mp done.located
    have proper : location ≠ [] := world.ne_nil_of_kept (by simp [World.HasDirectory, standing])
    refine ⟨(World.Evolves.of_standing plain standing _ _).plain, _, _, plain.located_set done.located _ _,
      (if_neg differ).symm, fun other apart => ?_⟩
    rw [World.at?_set proper, if_neg apart]

/-- The text that the file has is the one that was to be written. -/
theorem readText (done : Updated path markers body world after location mode bytes text updated)
    (plain : world.Plain) (single : '\r' ∉ body) : after.readText path = .ok updated := by
  rcases done.left with ⟨rfl, rfl⟩ | ⟨-, -, rfl⟩
  · exact done.read
  · have unified : '\r' ∉ updated :=
      Block.carriage_not_mem_replace (World.readText_unified done.read) single done.replaced
    rw [World.readText_of_located (plain.located_set done.located _ _), Utf8.decode_encode]
    exact congrArg Except.ok (Text.unifyNewlines_of_not_mem unified)

/-- The same update once more finds its body in the block and changes nothing. -/
theorem again (done : Updated path markers body world after location mode bytes text updated)
    (plain : world.Plain) (proper : markers.Proper) (single : '\r' ∉ body)
    (unended : ∀ line ∈ body.newlinePieces, ¬ Block.Marks markers.finish line) :
    updateBlock path markers body after = (.ok (), after) := by
  obtain ⟨plainAfter, bits, bytes', located, -, -⟩ := done.file plain
  rw [updateBlock_eq plainAfter located (done.readText plain single),
    Block.replace_again proper unended done.replaced]
  exact if_pos rfl

end Updated

/-- An update comes to its end where the file can be read, has a block, and can be written or
need not be. -/
theorem updateBlock_ok_iff (plain : world.Plain) :
    (updateBlock path markers body world).1 = .ok () ↔ ∃ text updated, world.readText path = .ok text ∧
      Block.replace markers body text = .ok updated ∧
      (updated = text ∨ world.replaceFault? (world.spot path) = none) := by
  constructor
  · intro ended
    rcases updateBlock_cases plain (Prod.ext ended rfl) with ⟨⟨fault, failed⟩, -⟩ |
      ⟨-, location, mode, bytes, text, updated, done⟩
    · cases failed
    · obtain ⟨-, rfl, -⟩ := (plain.locate_taken_iff (by simp)).mp done.located
      refine ⟨text, updated, done.read, done.replaced, ?_⟩
      rcases done.left with ⟨same, -⟩ | ⟨-, fine, -⟩
      · exact Or.inl same
      · exact Or.inr fine
  · rintro ⟨text, updated, read, replaced, allowed⟩
    obtain ⟨bytes, readBytes, -⟩ := ok_of_bind read
    obtain ⟨location, mode, located⟩ := World.readBytes_ok readBytes
    obtain ⟨-, rfl, -⟩ := (plain.locate_taken_iff (by simp)).mp located
    rw [updateBlock_eq plain located read, replaced]
    dsimp only
    rcases allowed with same | fine
    · rw [if_pos same]
    · split
      · rfl
      · rw [fine]

/-- An update of the block in a file happens as a whole or not at all. When it fails nothing has
changed; it comes to its end where the file can be read, has a block, and can be written or need not
be; and then nothing but the file has changed, which keeps its permission bits and has the text with
the other body in its block. The same update once more changes nothing. Where the file is written step
by step and something goes wrong on the way, nothing has changed either, as long as the temporary file
can be closed and removed. -/
theorem updateBlock_whole {after : World} {result : Except Fault Unit} (plain : world.Plain)
    (run : updateBlock path markers body world = (result, after)) :
    ((∃ fault, result = .error fault) → after = world) ∧
      (result = .ok () ↔ ∃ text updated, world.readText path = .ok text ∧
        Block.replace markers body text = .ok updated ∧
        (updated = text ∨ world.replaceFault? (world.spot path) = none)) ∧
      (result = .ok () → ∃ mode bits bytes bytes' text updated,
        world.readText path = .ok text ∧ Block.replace markers body text = .ok updated ∧
        world.at? (world.spot path) = some (.file mode bytes) ∧
        after.at? (world.spot path) = some (.file bits bytes') ∧
        bits = (if updated = text then mode else mode % 0o1000) ∧
        (∀ location, location ≠ world.spot path → after.at? location = world.at? location) ∧
        ('\r' ∉ body → after.readText path = .ok updated ∧
          (markers.Proper → (∀ line ∈ body.newlinePieces, ¬ Block.Marks markers.finish line) →
            updateBlock path markers body after = (.ok (), after)))) ∧
      ∀ trouble : Trouble, ¬ trouble.Strands →
        Follows world (updateBlockBy (writeInSteps trouble) path markers body world) (result, after) := by
  have ends : (updateBlock path markers body world).1 = .ok () ↔ _ := updateBlock_ok_iff plain
  rw [run] at ends
  have follows : ∀ trouble : Trouble, ¬ trouble.Strands →
      Follows world (updateBlockBy (writeInSteps trouble) path markers body world) (result, after) :=
    fun trouble clears => run ▸ updateInSteps_follows plain clears
  rcases updateBlock_cases plain run with ⟨⟨fault, rfl⟩, rfl⟩ |
    ⟨rfl, location, mode, bytes, text, updated, done⟩
  · exact ⟨fun _ => rfl, ends, by simp, follows⟩
  · obtain ⟨-, rfl, standing⟩ := (plain.locate_taken_iff (by simp)).mp done.located
    obtain ⟨plainAfter, bits, bytes', there, kept, others⟩ := done.file plain
    obtain ⟨-, -, standingAfter⟩ := (plainAfter.locate_taken_iff (by simp)).mp there
    refine ⟨by simp, ends, fun _ => ⟨mode, bits, bytes, bytes', text, updated, done.read, done.replaced, standing,
      standingAfter, kept, others, fun single => ⟨done.readText plain single, fun proper unended => ?_⟩⟩, follows⟩
    exact done.again plain proper single unended

section Home

/-- The startup file in the home directory, and the markers and body of a block. -/
def homeFile : Path := ⟨.root, ["home".toList, ".zshrc".toList]⟩

def angles : Markers := ⟨">", "<"⟩

/-- The home directory with an empty block in a startup file of those mode bits. -/
def homeWithBlock (mode : Nat) : World :=
  World.bareHome.set ["home".toList, ".zshrc".toList] (.file mode (Utf8.encode ">\n<\n"))

theorem homeWithBlock_plain (mode : Nat) : (homeWithBlock mode).Plain :=
  have parent : World.bareHome.at? ["home".toList] = some .directory := rfl
  (World.Evolves.of_file World.bareHome_plain parent (by decide) mode _).plain

theorem homeWithBlock_located (mode : Nat) :
    (homeWithBlock mode).locate .target homeFile =
      .ok (.taken ["home".toList, ".zshrc".toList] (.file mode (Utf8.encode ">\n<\n"))) := by
  refine ((homeWithBlock_plain mode).locate_taken_iff (by simp)).mpr ⟨⟨rfl, by decide, ?_⟩, rfl, rfl⟩
  exact ⟨rfl, fun _ => by decide, rfl, fun _ => by decide, trivial⟩

theorem homeWithBlock_readText (mode : Nat) : (homeWithBlock mode).readText homeFile = .ok ">\n<\n" := by
  rw [World.readText_of_located (homeWithBlock_located mode), Utf8.decode_encode]
  rfl

theorem homeWithBlock_updated (mode : Nat) :
    updateBlock homeFile angles "x" (homeWithBlock mode) =
      (.ok (), (homeWithBlock mode).set ["home".toList, ".zshrc".toList]
        (.file (mode % 0o1000) (Utf8.encode ">\nx\n<\n"))) := by
  have fine : (homeWithBlock mode).replaceFault? ["home".toList, ".zshrc".toList] = none := by
    have free : (World.bareHome.replaceFault? ["home".toList, ".zshrc".toList]).isNone = true := rfl
    exact World.replaceFault?_set (by simp) (Option.isNone_iff_eq_none.mp free) mode _
  rw [updateBlock_eq (homeWithBlock_plain mode) (homeWithBlock_located mode) (homeWithBlock_readText mode), fine]
  rfl

theorem updateBlock_whole_at_home :
    (homeWithBlock 0o640).Plain ∧ '\r' ∉ "x".toList ∧ angles.Proper ∧
      ∃ after, updateBlock homeFile angles "x" (homeWithBlock 0o640) = (.ok (), after) ∧
        after.readText homeFile = .ok ">\nx\n<\n" ∧
        updateBlock homeFile angles "x" after = (.ok (), after) := by
  have proper : angles.Proper := ⟨by decide, by decide, by decide⟩
  have run := homeWithBlock_updated 0o640
  obtain ⟨-, -, ended, -⟩ := updateBlock_whole (homeWithBlock_plain 0o640) run
  obtain ⟨_, _, _, _, text, updated, read, replaced, -, -, -, -, later⟩ := ended rfl
  obtain rfl : ">\n<\n" = text := Except.ok.inj ((homeWithBlock_readText 0o640).symm.trans read)
  obtain rfl : ">\nx\n<\n" = updated := Except.ok.inj replaced
  obtain ⟨written, again⟩ := later (by decide)
  exact ⟨homeWithBlock_plain _, by decide, proper, _, run, written, again proper (by decide)⟩

/-- Bits above the permission bits are lost: a file that runs as its owner no longer does. -/
theorem updateBlock_drops_bits :
    (homeWithBlock 0o4755).Plain ∧ ∃ after,
      updateBlock homeFile angles "x" (homeWithBlock 0o4755) = (.ok (), after) ∧
      (homeWithBlock 0o4755).at? ((homeWithBlock 0o4755).spot homeFile) =
        some (.file 0o4755 (Utf8.encode ">\n<\n")) ∧
      after.at? ((homeWithBlock 0o4755).spot homeFile) = some (.file 0o755 (Utf8.encode ">\nx\n<\n")) :=
  ⟨homeWithBlock_plain _, _, homeWithBlock_updated _, rfl, rfl⟩

end Home

end Disk

end TabCompletion
