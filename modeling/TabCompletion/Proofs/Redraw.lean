import TabCompletion.Proofs.Answer
import TabCompletion.Proofs.Listing

namespace TabCompletion

open FileSystem (maxNameBytes maxPathBytes)

theorem Draw.byteCount (draw : Draw) : draw.text.byteCount = 8 := by
  have each (letters : Text) (drawn : ∀ c ∈ letters, c ∈ drawnFrom) : letters.byteCount = letters.length := by
    induction letters with
    | nil => rfl
    | cons c rest ih =>
      have one : (drawnFrom.all fun c => c.utf8Size == 1) = true := by decide
      rw [Text.byteCount, beq_iff_eq.mp (List.all_eq_true.mp one c (drawn c List.mem_cons_self)),
        ih fun other member => drawn other (List.mem_cons_of_mem c member), List.length_cons, Nat.add_comm]
  rw [each draw.text draw.letters, draw.length]

namespace Location

theorem fault?_eq_none_iff {location : Location} :
    location.fault? = none ↔ NulFree location ∧ location.toPath.text.byteCount ≤ maxPathBytes ∧
      ∀ name ∈ location, name.byteCount ≤ maxNameBytes := by
  have nul : location.toPath.hasNul = true ↔ ¬ NulFree location := by
    simp [Path.hasNul, toPath, NulFree]
  unfold fault?
  by_cases clean : NulFree location
  · rw [clean.hasNul, if_neg (by simp)]
    simp [clean]
  · rw [nul.mpr clean]
    simp [clean]

theorem byteCount_concat {above : Location} {name other : Text} (same : name.byteCount = other.byteCount) :
    (toPath (above ++ [name])).text.byteCount = (toPath (above ++ [other])).text.byteCount := by
  have spelled (names : Location) : names.toPath.text = ['/'] ++ Text.join ['/'] names := rfl
  rw [spelled, spelled, Text.join_concat, Text.join_concat]
  split <;> simp only [Text.byteCount_append, same]

/-- Whether the name of a temporary file is too long does not hang on what is drawn for it. -/
theorem beside_fits {location : Location} {draw : Draw} (fits : (location.beside draw).fault? = none)
    (other : Draw) : (location.beside other).fault? = none := by
  have named (draw : Draw) : location.beside draw =
      location.dropLast ++ ['.' :: location.toPath.name ++ '.' :: draw.text ++ ".tmp".toList] := rfl
  have long (draw : Draw) : Text.byteCount ('.' :: location.toPath.name ++ '.' :: draw.text ++ ".tmp".toList) =
      location.toPath.name.byteCount + 14 := by
    have dot : Char.utf8Size '.' = 1 := rfl
    have ending : Text.byteCount ".tmp".toList = 4 := rfl
    simp only [Text.byteCount_append, Text.byteCount, List.cons_append, draw.byteCount, dot, ending]
    omega
  obtain ⟨clean, short, narrow⟩ := fault?_eq_none_iff.mp fits
  rw [named] at short clean narrow
  rw [named, fault?_eq_none_iff]
  have above : NulFree location.dropLast := fun name member => clean name (List.mem_append_left _ member)
  refine ⟨above.concat ?_, ?_, fun name member => ?_⟩
  · have last := clean _ (List.mem_append_right _ (List.mem_singleton_self _))
    simp only [List.mem_append, List.mem_cons, not_or] at last ⊢
    exact ⟨⟨last.1.1, last.1.2.1, other.nulFree⟩, last.2⟩
  · rwa [byteCount_concat ((long other).trans (long draw).symm)]
  · rcases List.mem_append.mp member with old | new
    · exact narrow name (List.mem_append_left _ old)
    · rw [List.mem_singleton.mp new, long other, ← long draw]
      exact narrow _ (List.mem_append_right _ (List.mem_singleton_self _))

end Location

namespace World

/-- The same files and the same directory to work in, for a run that draws other names. -/
def redraw (world : World) (draws : List Draw) : World :=
  { world with draws := draws }

/-- One of the names drawn for a temporary file is free. -/
def Spare (world : World) (draws : List Draw) (location : Location) : Prop :=
  ∃ draw ∈ draws, world.at? (location.beside draw) = none

/-- Other names serve for a temporary file as well as those that a world has. -/
def Redraws (world : World) (draws : List Draw) (location : Location) : Prop :=
  world.Spare draws location ↔ world.Spare world.draws location

variable {world : World} {draws : List Draw} {location : Location}

@[simp] theorem at?_redraw : (world.redraw draws).at? location = world.at? location := rfl

@[simp] theorem spot_redraw {path : Path} : (world.redraw draws).spot path = world.spot path := rfl

theorem isFile_redraw {path : Path} : (world.redraw draws).isFile path = world.isFile path := rfl

theorem Plain.redraw (plain : world.Plain) (draws : List Draw) : (world.redraw draws).Plain :=
  ⟨plain.linkFree, plain.rooted, plain.named⟩

/-- A temporary file has a location where its name is not too long and one of those drawn is free. -/
theorem besideFrom_ok_iff :
    (∃ place, world.besideFrom location draws = .ok place) ↔
      world.Spare draws location ∧ ∀ draw, (location.beside draw).fault? = none := by
  induction draws with
  | nil => simp [besideFrom, Spare]
  | cons draw more ih =>
    rw [besideFrom]
    cases fits : (location.beside draw).fault? with
    | some fault => simpa using fun _ => ⟨draw, by simp [fits]⟩
    | none =>
      have every := Location.beside_fits fits
      cases free : world.at? (location.beside draw) with
      | none => simpa [every] using ⟨draw, List.mem_cons_self, free⟩
      | some node =>
        simp only [Option.isSome_some, if_true]
        rw [ih]
        simp [Spare, free]

theorem replaceFault?_eq_none_iff :
    world.replaceFault? location = none ↔ NulFree location ∧ Location.fault? location.dropLast = none ∧
      location.fault? = none ∧ (∃ place, world.beside location = .ok place) ∧ ¬ world.HasDirectory location := by
  have nul : location.toPath.hasNul = true ↔ ¬ NulFree location := by
    simp [Path.hasNul, Location.toPath, NulFree]
  unfold replaceFault?
  by_cases clean : NulFree location
  · rw [clean.hasNul, if_neg (by simp)]
    simp only [clean, true_and, Option.or_eq_none_iff]
    refine and_congr_right fun _ => and_congr_right fun _ => ?_
    cases world.beside location with
    | error fault => simp
    | ok place => by_cases kept : world.HasDirectory location <;> simp [kept]
  · simp [nul.mpr clean, clean]

/-- With other names that serve as well a file can be replaced where it could be. -/
theorem Redraws.replaceFault?_iff (redraws : world.Redraws draws location) :
    (world.redraw draws).replaceFault? location = none ↔ world.replaceFault? location = none := by
  rw [replaceFault?_eq_none_iff, replaceFault?_eq_none_iff]
  refine and_congr_right fun _ => and_congr_right fun _ => and_congr_right fun _ => and_congr_left fun _ => ?_
  have again : (world.redraw draws).beside location = world.besideFrom location draws :=
    besideFrom_congr fun _ _ => rfl
  rw [again, beside, besideFrom_ok_iff, besideFrom_ok_iff]
  exact and_congr_left fun _ => redraws

/-- Where a file cannot be replaced it cannot be with other names either, and if the fault is another
one, it is the system that refuses. -/
theorem Redraws.replaceFault?_eq (redraws : world.Redraws draws location) :
    (world.redraw draws).replaceFault? location = world.replaceFault? location ∨
      ∃ fault other, world.replaceFault? location = some fault ∧
        (world.redraw draws).replaceFault? location = some other ∧
        fault.isSystem = true ∧ other.isSystem = true := by
  have same := redraws.replaceFault?_iff
  by_cases clean : NulFree location
  · cases first : world.replaceFault? location with
    | none => exact Or.inl (same.mpr first)
    | some fault =>
      cases second : (world.redraw draws).replaceFault? location with
      | none => rw [same.mp second] at first; cases first
      | some other =>
        exact Or.inr ⟨fault, other, rfl, rfl, replaceFault?_isSystem clean first, replaceFault?_isSystem clean second⟩
  · have nul : location.toPath.hasNul = true := by
      simpa [Path.hasNul, Location.toPath, NulFree] using clean
    exact Or.inl (by simp only [replaceFault?, nul, if_true])

end World

end TabCompletion
