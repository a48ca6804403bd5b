import TabCompletion.Proofs.Installed
import TabCompletion.Proofs.SearchPath

namespace TabCompletion

open World (Plain Evolves Reaches)

namespace Zsh

/-- A text with a quote that quoting would not have left beside the characters it stands beside. -/
def InnerQuote (text : Text) : Prop :=
  ∃ before x c after, text = before ++ x :: '\'' :: c :: after ∧
    x ∉ "'(\\".toList ∧ c ∉ "\\ ".toList

theorem InnerQuote.append {text : Text} (inner : InnerQuote text) (start rest : Text) :
    InnerQuote (start ++ text ++ rest) := by
  obtain ⟨before, x, c, after, rfl, ahead, behind⟩ := inner
  exact ⟨start ++ before, x, c, after ++ rest, by simp, ahead, behind⟩

theorem innerQuote_cons {x : Char} {text : Text} :
    InnerQuote (x :: text) ↔
      (∃ c after, text = '\'' :: c :: after ∧ x ∉ "'(\\".toList ∧ c ∉ "\\ ".toList) ∨
        InnerQuote text := by
  constructor
  · rintro ⟨before, y, c, after, same, ahead, behind⟩
    cases before with
    | nil =>
      obtain ⟨rfl, rest⟩ := List.cons.inj same
      exact Or.inl ⟨c, after, rest, ahead, behind⟩
    | cons first before => exact Or.inr ⟨before, y, c, after, (List.cons.inj same).2, ahead, behind⟩
  · rintro (⟨c, after, rfl, ahead, behind⟩ | inner)
    · exact ⟨[], x, c, after, rfl, ahead, behind⟩
    · simpa using inner.append [x] []

/-- What stands before a quote that quoting put there, or before no quote at all, adds none. -/
theorem not_innerQuote_cons {x : Char} {text : Text} (none : ¬ InnerQuote text)
    (marked : x ∈ "'(\\".toList ∨ ∀ c after, text = '\'' :: c :: after → c ∈ "\\ ".toList) :
    ¬ InnerQuote (x :: text) := by
  rw [innerQuote_cons]
  rintro (⟨c, after, same, ahead, behind⟩ | inner)
  · exact marked.elim ahead fun closing => behind (closing c after same)
  · exact none inner

theorem not_innerQuote_of_not_mem {text : Text} (unquoted : '\'' ∉ text) : ¬ InnerQuote text := by
  rintro ⟨before, x, c, after, rfl, -⟩
  simp at unquoted

theorem not_innerQuote_append {start text : Text} (unquoted : '\'' ∉ start)
    (other : text.head? ≠ some '\'') (none : ¬ InnerQuote text) : ¬ InnerQuote (start ++ text) := by
  induction start with
  | nil => exact none
  | cons x start ih =>
    simp only [List.mem_cons, not_or] at unquoted
    refine not_innerQuote_cons (ih unquoted.2) (Or.inr fun c after same => ?_)
    cases start with
    | nil => exact absurd (congrArg List.head? same) other
    | cons y start => exact absurd (by simp [(List.cons.inj same).1]) unquoted.2

/-- A quote at the begin of the rest of a quoted text is the last one, or stands for a quote. -/
theorem quoted_begins {text rest : Text} {c : Char} {after : Text}
    (same : text.flatMap quoteChar ++ '\'' :: ' ' :: rest = '\'' :: c :: after) :
    c = '\\' ∨ c = ' ' := by
  cases text with
  | nil => exact Or.inr (List.cons.inj (List.cons.inj same).2).1.symm
  | cons d text =>
    rw [List.flatMap_cons, List.append_assoc, quoteChar] at same
    by_cases quote : d = '\''
    · rw [if_pos quote] at same
      exact Or.inl (List.cons.inj (List.cons.inj same).2).1.symm
    · rw [if_neg quote] at same
      exact absurd (List.cons.inj same).1 quote

theorem not_innerQuote_flatMap (text : Text) {rest : Text} (unquoted : '\'' ∉ rest) :
    ¬ InnerQuote (text.flatMap quoteChar ++ '\'' :: ' ' :: rest) := by
  induction text with
  | nil =>
    exact not_innerQuote_cons (not_innerQuote_of_not_mem (by simp [unquoted]))
      (Or.inr fun c after same => by simp_all)
  | cons c text ih =>
    rw [List.flatMap_cons, List.append_assoc, quoteChar]
    by_cases quote : c = '\''
    · rw [if_pos quote]
      have last := not_innerQuote_cons ih (x := '\'') (Or.inl (by decide))
      have third := not_innerQuote_cons last (x := '\'') (Or.inl (by decide))
      have second := not_innerQuote_cons third (x := '\\') (Or.inl (by decide))
      exact not_innerQuote_cons second
        (Or.inr fun d after same => absurd (List.cons.inj same).1 (by decide))
    · rw [if_neg quote]
      refine not_innerQuote_cons ih (Or.inr fun d after same => ?_)
      simpa using quoted_begins same

end Zsh

namespace Installer

/-- The only quotes in the line for a directory are those that quoting put there. -/
theorem not_innerQuote_searchPathLine (directory : Path) :
    ¬ Zsh.InnerQuote (searchPathLine directory) := by
  have shape : searchPathLine directory = "fpath=".toList ++ '(' :: '\'' ::
      (directory.text.flatMap Zsh.quoteChar ++ '\'' :: ' ' :: "$fpath)".toList) := by
    have closing : " $fpath)".toList = ' ' :: "$fpath)".toList := rfl
    unfold searchPathLine
    rw [Zsh.quote, closing]
    simp
  have unquoted : '\'' ∉ "$fpath)".toList := by decide
  have quoted := Zsh.not_innerQuote_flatMap directory.text unquoted
  have opened := Zsh.not_innerQuote_cons quoted (x := '\'') (Or.inl (by decide))
  have listed := Zsh.not_innerQuote_cons opened (x := '(') (Or.inl (by decide))
  rw [shape]
  exact Zsh.not_innerQuote_append (by decide) (by simp) listed

theorem lines_blockBody {directory : Path} (whole : directory.text.Unbroken) :
    (blockBody directory).lines = [searchPathLine directory, initLine] := by
  have filled : initLine ≠ [] := by decide
  rw [blockBody_eq, Text.lines_of_line (searchPathLine_unbroken whole),
    Text.lines_single filled initLine_unbroken]

theorem manualInstructions_eq (startup : Path) {directory : Path}
    (whole : directory.text.Unbroken) :
    manualInstructions startup directory =
      ["To enable completions, add the following to " ++ startup.text ++ ":", [],
        "  ".toList ++ searchPathLine directory, "  ".toList ++ initLine, [],
        "Then: restart your shell or run: exec zsh"] := by
  unfold manualInstructions
  rw [lines_blockBody whole]
  rfl

/-- A text that refers to the directory is given no block, unless it has one to be refreshed. -/
theorem configuredText_ne_of_referenced {startup directory home : Path} {text : Text}
    (blockless : ∀ span, Block.find markers text ≠ .ok (some span))
    (referenced : referencesDirectory text directory home = true) (updated : Text) :
    configuredText startup directory home text ≠ .ok (.inl updated) := by
  intro configured
  rcases configuredText_cases configured with ⟨span, found, -⟩ | ⟨-, unreferenced, -⟩
  · exact blockless span found
  · rw [referenced] at unreferenced
    cases unreferenced

/-- A startup file that refers to the directory is there after an installation as it was before. -/
theorem install_referenced {installer : Installer} {script : Text} {world after : World}
    {result : Except Fault InstallOutcome} {directory : Path} {location : Location} {mode : Nat}
    {bytes : Bytes} {text : Text} (plain : world.Plain)
    (home : world.isDirectory installer.home = .ok true)
    (resolved : installer.installDir world = .ok directory)
    (located : world.locate .target installer.startupFile = .ok (.taken location (.file mode bytes)))
    (decoded : Utf8.decode bytes = .ok text)
    (blockless : ∀ span, Block.find markers text.unifyNewlines ≠ .ok (some span))
    (referenced : referencesDirectory text.unifyNewlines directory installer.home = true)
    (run : installer.install script world = (result, after)) :
    after.locate .target installer.startupFile = .ok (.taken location (.file mode bytes)) := by
  obtain ⟨-, spot, -⟩ := (plain.locate_taken_iff (by simp)).mp located
  have kept {final : World} (evolves : Evolves (Along world directory.anchor directory.parts)
      (ScriptPlace world directory) world final) :
      final.locate .target installer.startupFile = .ok (.taken location (.file mode bytes)) :=
    evolves.located plain located (spot ▸ ScriptPlace.ne_startup)
  rcases install_cases (scriptPath_eq resolved) run with
    ⟨-, ⟨fault, backed⟩ | ⟨backup, middle, fault, backed, written⟩⟩ |
      ⟨backup, middle, placed, backed, written, -, rfl⟩
  · exact kept (backUp_places plain resolved backed)
  · exact kept (placing_evolves plain resolved backed written)
  · have evolves := placing_evolves plain resolved backed written
    have resolvedPlaced := installDir_evolves plain home resolved evolves ScriptPlace.ne_framework
    cases configured : installer.configure placed with
    | mk answer final =>
      rcases configure_resolved evolves.plain resolvedPlaced configured with
        ⟨notes, rfl⟩ | ⟨-, _, _, _, updated, given⟩
      · have quiet : Evolves (fun _ => False) (fun _ => False) placed { placed with notes := notes } :=
          .note evolves.plain notes
        exact quiet.located evolves.plain (kept evolves) (by simp)
      · obtain ⟨-, -, rfl⟩ := given.same (kept evolves) decoded
        exact absurd given.configured (configuredText_ne_of_referenced blockless referenced updated)

/-- The lines that a user is told to add are recognised in a startup file when a spelling of the
directory occurs in the first of them as it is quoted there. So it does for every directory without
quotes, and an installation then leaves the file as it is. It does not when each spelling has a quote
within it: then the file gets the block of the directory besides. -/
theorem instructions_recognised (directory : Path)
    (whole : directory.text.Unbroken) :
    (∀ startup, manualInstructions startup directory =
      ["To enable completions, add the following to " ++ startup.text ++ ":", [],
        "  ".toList ++ searchPathLine directory, "  ".toList ++ initLine, [],
        "Then: restart your shell or run: exec zsh"]) ∧
    ∀ (edit : HandEdit) (home : Path),
      (referencesDirectory (edit.text directory) directory home = true ↔
        referencesDirectory edit.before directory home = true ∨
          (∃ spelling ∈ spellings directory home, spelling.occursIn (searchPathLine directory) = true) ∨
          referencesDirectory edit.after directory home = true) ∧
      ('\'' ∉ directory.text →
        referencesDirectory (edit.text directory) directory home = true ∧
          ∀ {installer : Installer} {script : Text} {world after : World}
            {result : Except Fault InstallOutcome} {location : Location} {mode : Nat} {bytes : Bytes}
            {text : Text}, installer.home = home → world.Plain → world.isDirectory home = .ok true →
            installer.installDir world = .ok directory →
            world.locate .target installer.startupFile = .ok (.taken location (.file mode bytes)) →
            Utf8.decode bytes = .ok text → text.unifyNewlines = edit.text directory →
            (∀ span, Block.find markers text.unifyNewlines ≠ .ok (some span)) →
            installer.install script world = (result, after) →
            after.locate .target installer.startupFile = .ok (.taken location (.file mode bytes))) ∧
      ((∀ spelling ∈ spellings directory home, Zsh.InnerQuote spelling) →
        referencesDirectory edit.before directory home = false →
        referencesDirectory edit.after directory home = false →
        referencesDirectory (edit.text directory) directory home = false ∧
          (Block.find markers (edit.text directory) = .ok none → ∀ startup,
            configuredText startup directory home (edit.text directory) =
              .ok (.inl (Block.append markers (blockBody directory) (edit.text directory))))) := by
  refine ⟨fun startup => manualInstructions_eq startup whole, fun edit home => ?_⟩
  have recognised := edit.referencesDirectory_iff whole directory home
  refine ⟨recognised, fun unquoted => ?_, fun inner above below => ?_⟩
  · have spelled : directory.text ∈ spellings directory home := mem_spellings_iff.mpr (Or.inl rfl)
    have itself : directory.text.occursIn directory.text = true :=
      (Text.occursIn_iff _ _).mpr ⟨[], [], by simp⟩
    have referenced := recognised.mpr
      (Or.inr (Or.inl ⟨directory.text, spelled, occursIn_searchPathLine unquoted itself⟩))
    refine ⟨referenced, ?_⟩
    intro installer script world after result location mode bytes text same plain there resolved
      located decoded content blockless run
    subst same
    exact install_referenced plain there resolved located decoded blockless
      (by rw [content]; exact referenced) run
  · have missed : referencesDirectory (edit.text directory) directory home = false := by
      rw [← Bool.not_eq_true, recognised, above, below]
      rintro (never | ⟨spelling, member, inside⟩ | never)
      · cases never
      · obtain ⟨start, rest, same⟩ := (Text.occursIn_iff _ _).mp inside
        refine not_innerQuote_searchPathLine directory ?_
        rw [same]
        exact (inner spelling member).append start rest
      · cases never
    exact ⟨missed, fun unmarked startup => configuredText_unreferenced unmarked missed⟩

/-- The lines as they are shown, for the home directory and for one with a quote in its name. -/
theorem instructions_recognised_at_home :
    let installer := homeInstaller [] true
    let lines := shownLines.text installer.home
    let quoted : Path := "/h/it's"
    (∃ result after,
      installer.install "script".toList (World.homeWith (Utf8.encode lines)) = (result, after) ∧
        after.locate .target installer.startupFile =
          .ok (.taken ["home".toList, ".zshrc".toList] (.file 0o600 (Utf8.encode lines)))) ∧
      configuredText installer.startupFile quoted ("/h" : Path) (shownLines.text quoted) =
        .ok (.inl (Block.append markers (blockBody quoted) (shownLines.text quoted))) := by
  intro installer lines quoted
  have unified : lines.unifyNewlines = lines := Text.unifyNewlines_of_not_mem (by decide)
  have blockless : ∀ span, Block.find markers lines.unifyNewlines ≠ .ok (some span) := by
    have unmarked : Block.find markers lines = .ok none :=
      find_of_unmarked (by decide) (by decide)
    intro span
    rw [unified, unmarked]
    simp
  have inner : ∀ spelling ∈ spellings quoted ("/h" : Path), Zsh.InnerQuote spelling := by
    have ends : ∀ spelling ∈ spellings quoted ("/h" : Path),
        spelling = spelling.take (spelling.length - 3) ++ "t's".toList := by decide
    intro spelling member
    exact ⟨_, 't', 's', [], ends spelling member, by decide, by decide⟩
  have free : Block.find markers (shownLines.text quoted) = .ok none :=
    find_of_unmarked (by decide) (by decide)
  have home := World.homeWith_evolves (Utf8.encode lines)
  refine ⟨⟨_, _, rfl, ?_⟩, ?_⟩
  · have recognised := (instructions_recognised installer.home (by decide)).2 shownLines installer.home
    exact (recognised.2.1 (by decide)).2 rfl home.plain
      (home.isDirectory World.bareHome_plain World.bareHome_isDirectory)
      (homeInstaller_installDir [] true _) (World.homeWith_located _) (Utf8.decode_encode _)
      unified blockless rfl
  · have missed := (instructions_recognised quoted (by decide)).2 shownLines ("/h" : Path)
    exact (missed.2.2 inner (by decide) (by decide)).2 free installer.startupFile

/-- A directory with a quote in its name is not found in its own line. -/
theorem quoted_name_missed :
    ¬ ∀ (edit : HandEdit) (directory home : Path), directory.isAbsolute = true →
      directory.text.Unbroken →
      referencesDirectory (edit.text directory) directory home = true := by
  intro every
  have found := every shownLines ("/h/it's" : Path) ("/h" : Path) (by decide) (by decide)
  have missed : referencesDirectory (shownLines.text ("/h/it's" : Path)) ("/h/it's" : Path) ("/h" : Path) =
      false := by decide
  rw [missed] at found
  cases found

end Installer

end TabCompletion
