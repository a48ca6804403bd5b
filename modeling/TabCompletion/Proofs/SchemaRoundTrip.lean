import TabCompletion.Outcome
import TabCompletion.Settings.Load
import TabCompletion.Proofs.JsonRoundTrip

namespace TabCompletion

namespace Checked

variable {α β : Type}

theorem seq_ok {f : Checked (α → β)} {x : Checked α} {g : α → β} {a : α} (first : f = .ok g)
    (second : x = .ok a) : f <*> x = .ok (g a) := by
  rw [first, second]
  rfl

theorem map_ok {f : α → β} {x : Checked α} {a : α} (found : x = .ok a) : f <$> x = .ok (f a) :=
  seq_ok rfl found

theorem seq_eq_ok {f : Checked (α → β)} {x : Checked α} {result : β} (read : f <*> x = .ok result) :
    ∃ g a, f = .ok g ∧ x = .ok a ∧ result = g a := by
  change both f x = .ok result at read
  cases f with
  | error first => cases x <;> cases read
  | ok g =>
    cases x with
    | error later => cases read
    | ok a =>
      cases read
      exact ⟨g, a, rfl, rfl, rfl⟩

theorem map_eq_ok {f : α → β} {x : Checked α} {result : β} (read : f <$> x = .ok result) :
    ∃ a, x = .ok a ∧ result = f a := by
  obtain ⟨g, a, same, found, rfl⟩ := seq_eq_ok read
  cases same
  exact ⟨a, found, rfl⟩

theorem under_eq_ok {step : Step} {x : Checked α} {result : α} (read : x.under step = .ok result) :
    x = .ok result := by
  cases x with
  | error list => cases read
  | ok value => exact read

end Checked

namespace Schema

variable {α : Type} {check : Json → Checked α} {write : α → Json}

theorem record_eq_ok {name : Text} {read : List (Text × Json) → Checked α} {value : Json} {result : α}
    (checked : record name read value = .ok result) :
    ∃ fields, value = .object fields ∧ read fields = .ok result := by
  cases value with
  | object fields => exact ⟨fields, rfl, checked⟩
  | _ => cases checked

section Fields

variable {fields : List (Text × Json)} {name : Text} {value : Json} {result absent : α}

theorem required_ok (found : Json.field? name fields = some value) (checked : check value = .ok result) :
    required fields name check = .ok result := by
  rw [required, found]
  dsimp only
  rw [checked]
  rfl

theorem optional_ok (found : Json.field? name fields = some value) (checked : check value = .ok result) :
    optional fields name absent check = .ok result := by
  rw [optional, found]
  dsimp only
  rw [checked]
  rfl

end Fields

/-- Each item of what a list was read as was read from something. -/
theorem mem_of_items {index : Nat} {values : List Json} {results : List α}
    (read : items check index values = .ok results) :
    ∀ result ∈ results, ∃ value, check value = .ok result := by
  induction values generalizing index results with
  | nil =>
    cases read
    simp
  | cons value values ih =>
    obtain ⟨g, others, first, later, rfl⟩ := Checked.seq_eq_ok read
    obtain ⟨result, checked, rfl⟩ := Checked.map_eq_ok first
    intro other member
    rcases List.mem_cons.mp member with rfl | among
    · exact ⟨value, Checked.under_eq_ok checked⟩
    · exact ih later other among

theorem mem_of_optional_tuple {fields : List (Text × Json)} {name : Text} {results : List α}
    (read : optional fields name [] (tuple check) = .ok results) :
    ∀ result ∈ results, ∃ value, check value = .ok result := by
  unfold optional at read
  split at read
  · rename_i value found
    have checked := Checked.under_eq_ok read
    cases value with
    | array values => exact mem_of_items checked
    | _ => cases checked
  · cases read
    simp

/-- A list is read as what it was written from when each item is. -/
theorem items_map {results : List α} (each : ∀ result ∈ results, check (write result) = .ok result)
    (index : Nat) : items check index (results.map write) = .ok results := by
  induction results generalizing index with
  | nil => rfl
  | cons result results ih =>
    have first := each result List.mem_cons_self
    have later := ih (fun other member => each other (List.mem_cons_of_mem _ member)) (index + 1)
    rw [List.map_cons, items, first, later]
    rfl

theorem nullable_ofOption {result : Option α} (each : ∀ value ∈ result, check (write value) = .ok value)
    (proper : ∀ value ∈ result, write value ≠ .null) :
    nullable check (.ofOption write result) = .ok result := by
  cases result with
  | none => rfl
  | some value =>
    have checked := each value rfl
    have written := proper value rfl
    rw [Json.ofOption]
    unfold nullable
    split
    · exact absurd ‹_› written
    · rw [checked]
      rfl

end Schema

theorem Schema.nullable_text (written : Option Text) :
    nullable text (.ofOption .string written) = .ok written :=
  nullable_ofOption (fun _ _ => rfl) (by simp)

theorem Schema.items_text (lines : List Text) : items text 0 (lines.map .string) = .ok lines :=
  @items_map Text text Json.string lines (fun _ _ => rfl) 0

theorem Flag.ofJson_toJson (flag : Flag) : ofJson flag.toJson = .ok flag := by
  obtain ⟨name, short, description, takesValue, values⟩ := flag
  have readShort : Schema.nullable Schema.character (.ofOption (fun c => .string [c]) short) = .ok short :=
    Schema.nullable_ofOption (fun _ _ => rfl) (by simp)
  have readValues : Schema.nullable (Schema.tuple Schema.text) (.ofOption .texts values) = .ok values :=
    Schema.nullable_ofOption (fun lines _ => Schema.items_text lines) (by simp [Json.texts])
  exact Checked.seq_ok (Checked.seq_ok (Checked.seq_ok (Checked.seq_ok
    (Checked.map_ok (Schema.required_ok (by rfl) (by rfl))) (Schema.optional_ok (by rfl) readShort))
    (Schema.optional_ok (by rfl) (by rfl))) (Schema.optional_ok (by rfl) (by rfl)))
    (Schema.optional_ok (by rfl) readValues)

theorem Positional.ofJson_toJson (kind : Positional) : ofJson kind.toJson = .ok kind := by
  rw [toJson, ofJson, ofWord?_word]

theorem Command.toItems_eq (commands : List Command) : toItems commands = commands.map toJson := by
  induction commands with
  | nil => rfl
  | cons command commands ih => rw [toItems, ih, List.map_cons]

/-- A command is read as what it was written from when its subcommands are, one level less deep. -/
theorem Command.ofJsonWithin_toJson {levels : Nat} {command : Command}
    (below : ∀ sub ∈ command.subcommands, ofJsonWithin levels sub.toJson = .ok sub) :
    ofJsonWithin (levels + 1) command.toJson = .ok command := by
  obtain ⟨name, description, flags, subcommands, acceptsPositional, positional⟩ := command
  have readFlags : Schema.tuple Flag.ofJson (.array (flags.map Flag.toJson)) = .ok flags :=
    Schema.items_map (fun flag _ => flag.ofJson_toJson) 0
  have readBelow : Schema.tuple (ofJsonWithin levels) (.array (toItems subcommands)) = .ok subcommands := by
    rw [toItems_eq]
    exact Schema.items_map below 0
  have readKind : Schema.nullable Positional.ofJson (.ofOption Positional.toJson positional) = .ok positional :=
    Schema.nullable_ofOption (fun kind _ => kind.ofJson_toJson) (by simp [Positional.toJson])
  rw [toJson]
  exact Checked.seq_ok (Checked.seq_ok (Checked.seq_ok (Checked.seq_ok (Checked.seq_ok
    (Checked.map_ok (Schema.required_ok (by rfl) (by rfl))) (Schema.optional_ok (by rfl) (by rfl)))
    (Schema.optional_ok (by rfl) readFlags)) (Schema.optional_ok (by rfl) readBelow))
    (Schema.optional_ok (by rfl) (by rfl))) (Schema.optional_ok (by rfl) readKind)

theorem InstallOutcome.ofJson_toJson (outcome : InstallOutcome) : ofJson outcome.toJson = .ok outcome := by
  obtain ⟨success, message, installedPath, backupPath, configured, instructions⟩ := outcome
  have readConfigured : Schema.nullable Schema.bool (.ofOption .bool configured) = .ok configured :=
    Schema.nullable_ofOption (fun _ _ => rfl) (by simp)
  have readInstructions : Schema.nullable (Schema.list Schema.text) (.ofOption .texts instructions) =
      .ok instructions :=
    Schema.nullable_ofOption (fun lines _ => Schema.items_text lines) (by simp [Json.texts])
  exact Checked.seq_ok (Checked.seq_ok (Checked.seq_ok (Checked.seq_ok (Checked.seq_ok
    (Checked.map_ok (Schema.required_ok (by rfl) (by rfl))) (Schema.required_ok (by rfl) (by rfl)))
    (Schema.optional_ok (by rfl) (Schema.nullable_text _)))
    (Schema.optional_ok (by rfl) (Schema.nullable_text _)))
    (Schema.optional_ok (by rfl) readConfigured)) (Schema.optional_ok (by rfl) readInstructions)

theorem UninstallOutcome.ofJson_toJson (outcome : UninstallOutcome) : ofJson outcome.toJson = .ok outcome := by
  obtain ⟨success, message⟩ := outcome
  exact Checked.seq_ok (Checked.map_ok (Schema.required_ok (by rfl) (by rfl)))
    (Schema.required_ok (by rfl) (by rfl))

theorem Detection.ofJson_toJson (detection : Detection) : ofJson detection.toJson = .ok detection := by
  obtain ⟨shell, detected⟩ := detection
  exact Checked.seq_ok (Checked.map_ok (Schema.optional_ok (by rfl) (Schema.nullable_text _)))
    (Schema.optional_ok (by rfl) (Schema.nullable_text _))

theorem CompletionSettings.ofJson_toJson (settings : CompletionSettings) :
    ofJson settings.toJson = .ok settings := by
  obtain ⟨autoConfigure, installDir⟩ := settings
  exact Checked.seq_ok (Checked.map_ok (Schema.optional_ok (by rfl) (by rfl)))
    (Schema.optional_ok (by rfl) (Schema.nullable_text _))

/-- Settings are read as what they were written from when no other field has the name of theirs. -/
theorem Settings.ofJson_toJson {settings : Settings}
    (apart : completionField ∉ settings.others.map Prod.fst) : ofJson settings.toJson = .ok settings := by
  obtain ⟨completion, others⟩ := settings
  have kept : (others.filter fun field => field.1 != completionField) = others := by
    refine List.filter_eq_self.mpr fun field member => ?_
    refine bne_iff_ne.mpr fun same => apart ?_
    exact List.mem_map.mpr ⟨field, member, same⟩
  have read : Schema.optional ((completionField, completion.toJson) :: others) completionField {}
      CompletionSettings.ofJson = .ok completion :=
    Schema.optional_ok (List.lookup_cons_self ..) completion.ofJson_toJson
  have rest : ((completionField, completion.toJson) :: others).filter (fun field => field.1 != completionField) =
      others := by
    rw [List.filter_cons_of_neg (by simp), kept]
  refine Checked.seq_ok (Checked.map_ok read) ?_
  exact congrArg Except.ok rest

namespace Json

/-- A value that is read back from its text, with that many levels at most. -/
structure Fits (levels : Nat) (value : Json) : Prop where
  writable : Writable value
  shallow : value.levels ≤ levels

namespace Fits

variable {levels : Nat}

theorem mono {more : Nat} {value : Json} (fits : Fits levels value) (le : levels ≤ more) :
    Fits more value :=
  ⟨fits.writable, Nat.le_trans fits.shallow le⟩

theorem null : Fits (levels + 1) .null := ⟨.null, by simp [Json.levels]⟩

theorem bool (truth : Bool) : Fits (levels + 1) (.bool truth) := ⟨.bool truth, by simp [Json.levels]⟩

theorem string (text : Text) : Fits (levels + 1) (.string text) := ⟨.string text, by simp [Json.levels]⟩

theorem array {items : List Json} (each : ∀ item ∈ items, Fits levels item) :
    Fits (levels + 1) (.array items) := by
  refine ⟨.array fun item member => (each item member).writable, ?_⟩
  have shallow : levelsOfItems items ≤ levels := by
    induction items with
    | nil => exact Nat.zero_le _
    | cons item items ih =>
      rw [levelsOfItems]
      exact Nat.max_le.mpr ⟨(each item List.mem_cons_self).shallow,
        ih fun other member => each other (List.mem_cons_of_mem _ member)⟩
  rw [Json.levels]
  omega

theorem object {fields : List (Text × Json)} (distinct : (fields.map Prod.fst).Nodup)
    (each : ∀ field ∈ fields, Fits levels field.2) : Fits (levels + 1) (.object fields) := by
  refine ⟨.object distinct fun field member => (each field member).writable, ?_⟩
  have shallow : levelsOfFields fields ≤ levels := by
    clear distinct
    induction fields with
    | nil => exact Nat.zero_le _
    | cons field fields ih =>
      obtain ⟨name, value⟩ := field
      rw [levelsOfFields]
      exact Nat.max_le.mpr ⟨(each (name, value) List.mem_cons_self).shallow,
        ih fun other member => each other (List.mem_cons_of_mem _ member)⟩
  rw [Json.levels]
  omega

theorem texts (lines : List Text) : Fits (levels + 2) (.texts lines) := by
  refine array fun item member => ?_
  obtain ⟨line, -, rfl⟩ := List.mem_map.mp member
  exact string line

theorem ofOption {α : Type} {write : α → Json} (each : ∀ value, Fits (levels + 1) (write value))
    (written : Option α) : Fits (levels + 1) (.ofOption write written) := by
  cases written with
  | none => exact null
  | some value => exact each value

end Fits

end Json

open Json (Fits)

theorem Flag.fits (flag : Flag) : Fits 3 flag.toJson := by
  refine .object (by simp) ?_
  simp only [List.forall_mem_cons]
  exact ⟨.string _, .ofOption (fun c => .string [c]) _, .string _, .bool _, .ofOption .texts _,
    List.forall_mem_nil _⟩

theorem InstallOutcome.fits (outcome : InstallOutcome) : Fits 3 outcome.toJson := by
  refine .object (by simp) ?_
  simp only [List.forall_mem_cons]
  exact ⟨.bool _, .string _, .ofOption .string _, .ofOption .string _, .ofOption .bool _,
    .ofOption .texts _, List.forall_mem_nil _⟩

theorem UninstallOutcome.fits (outcome : UninstallOutcome) : Fits 2 outcome.toJson := by
  refine .object (by simp) ?_
  simp only [List.forall_mem_cons]
  exact ⟨.bool _, .string _, List.forall_mem_nil _⟩

theorem Detection.fits (detection : Detection) : Fits 2 detection.toJson := by
  refine .object (by simp) ?_
  simp only [List.forall_mem_cons]
  exact ⟨.ofOption .string _, .ofOption .string _, List.forall_mem_nil _⟩

theorem CompletionSettings.fits (settings : CompletionSettings) : Fits 2 settings.toJson := by
  refine .object (by simp) ?_
  simp only [List.forall_mem_cons]
  exact ⟨.bool _, .ofOption .string _, List.forall_mem_nil _⟩

/-- A command has two levels more than its subcommands, and never less than its options take. -/
theorem Command.fits {levels : Nat} {command : Command}
    (below : ∀ sub ∈ command.subcommands, Fits (levels + 3) sub.toJson) :
    Fits (levels + 5) command.toJson := by
  obtain ⟨name, description, flags, subcommands, acceptsPositional, positional⟩ := command
  have flagsFit : Fits (levels + 4) (.array (flags.map Flag.toJson)) := by
    refine .array fun item member => ?_
    obtain ⟨flag, -, rfl⟩ := List.mem_map.mp member
    exact flag.fits.mono (by omega)
  have belowFit : Fits (levels + 4) (.array (toItems subcommands)) := by
    rw [toItems_eq]
    refine .array fun item member => ?_
    obtain ⟨sub, among, rfl⟩ := List.mem_map.mp member
    exact below sub among
  rw [toJson]
  refine .object (by simp) ?_
  simp only [List.forall_mem_cons]
  exact ⟨.string _, .string _, flagsFit, belowFit, .bool _, .ofOption (fun kind => .string (Positional.word kind)) _,
    List.forall_mem_nil _⟩

/-- A command that was read is read again from what it is written as, which is not nested much
deeper than its levels. -/
theorem Command.ofJsonWithin_again {levels : Nat} {value : Json} {command : Command}
    (read : ofJsonWithin levels value = .ok command) :
    ofJsonWithin levels command.toJson = .ok command ∧ Fits (2 * levels + 3) command.toJson := by
  induction levels generalizing value command with
  | zero => cases read
  | succ levels ih =>
    obtain ⟨fields, rfl, inner⟩ := Schema.record_eq_ok read
    obtain ⟨_, positional, upToAccepts, -, rfl⟩ := Checked.seq_eq_ok inner
    obtain ⟨_, accepts, upToBelow, -, rfl⟩ := Checked.seq_eq_ok upToAccepts
    obtain ⟨_, subcommands, upToFlags, readBelow, rfl⟩ := Checked.seq_eq_ok upToBelow
    obtain ⟨_, flags, upToDescription, -, rfl⟩ := Checked.seq_eq_ok upToFlags
    obtain ⟨_, description, upToName, -, rfl⟩ := Checked.seq_eq_ok upToDescription
    obtain ⟨name, -, rfl⟩ := Checked.map_eq_ok upToName
    have below (sub : Command) (member : sub ∈ subcommands) :=
      (Schema.mem_of_optional_tuple readBelow sub member).elim fun _ checked => ih checked
    exact ⟨ofJsonWithin_toJson fun sub member => (below sub member).1,
      Command.fits fun sub member => (below sub member).2⟩

namespace Settings

/-- Settings whose other fields have names of their own and values that are read back. -/
structure Kept (settings : Settings) : Prop where
  distinct : (settings.others.map Prod.fst).Nodup
  apart : completionField ∉ settings.others.map Prod.fst
  writable : ∀ field ∈ settings.others, Json.Writable field.2

/-- What other fields were read stand in their order, without the one that means something. -/
theorem others_of_ofJson {value : Json} {settings : Settings} (read : ofJson value = .ok settings) :
    ∃ fields, value = .object fields ∧
      settings.others = fields.filter fun field => field.1 != completionField := by
  obtain ⟨fields, rfl, inner⟩ := Schema.record_eq_ok read
  obtain ⟨_, others, first, kept, rfl⟩ := Checked.seq_eq_ok inner
  obtain ⟨completion, -, rfl⟩ := Checked.map_eq_ok first
  cases kept
  exact ⟨fields, rfl, rfl⟩

theorem Kept.of_fields {fields : List (Text × Json)} {settings : Settings}
    (distinct : (fields.map Prod.fst).Nodup)
    (others : settings.others = fields.filter fun field => field.1 != completionField)
    (writable : ∀ field ∈ settings.others, Json.Writable field.2) : settings.Kept := by
  refine ⟨?_, ?_, writable⟩
  · rw [others]
    exact distinct.sublist (List.filter_sublist.map Prod.fst)
  · rw [others]
    simp

theorem Kept.of_ofJson {value : Json} {settings : Settings} (writable : Json.Writable value)
    (read : ofJson value = .ok settings) : settings.Kept := by
  obtain ⟨fields, rfl, others⟩ := others_of_ofJson read
  cases writable with
  | object distinct each =>
    refine .of_fields distinct others fun field member => each field ?_
    rw [others] at member
    exact (List.mem_filter.mp member).1

/-- The deepest that a value of another field is nested in settings that are written. -/
def Shallow (settings : Settings) : Prop :=
  ∀ field ∈ settings.others, field.2.levels ≤ maxLevels

theorem written_eq_ok_iff {settings : Settings} {text : Text} :
    settings.written = .ok text ↔ settings.Shallow ∧ text = settings.toJson.write := by
  unfold written Shallow
  split
  · rename_i shallow
    simp only [List.all_eq_true, decide_eq_true_eq] at shallow
    exact ⟨fun same => ⟨shallow, (Except.ok.inj same).symm⟩, fun same => congrArg Except.ok same.2.symm⟩
  · rename_i deep
    simp only [List.all_eq_true, decide_eq_true_eq] at deep
    exact iff_of_false (fun same => by cases same) fun same => deep same.1

theorem written_of_not_shallow {settings : Settings} (deep : ¬ settings.Shallow) :
    settings.written = .error .nestedOutput := by
  rw [written, if_neg]
  simpa only [Shallow, List.all_eq_true, decide_eq_true_eq] using deep

theorem Kept.fits {settings : Settings} (kept : settings.Kept) (shallow : settings.Shallow) :
    Fits (maxLevels + 1) settings.toJson := by
  refine .object ?_ ?_
  · exact List.nodup_cons.mpr ⟨kept.apart, kept.distinct⟩
  · rw [List.forall_mem_cons]
    exact ⟨settings.completion.fits.mono (by decide), fun field member =>
      ⟨kept.writable field member, shallow field member⟩⟩

end Settings

end TabCompletion
