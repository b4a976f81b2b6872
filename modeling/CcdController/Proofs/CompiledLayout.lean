import CcdController.Proofs.Layout

namespace CcdController

def Program.Resolves (program : Program) (reference : Option String) (address : UInt16) : Prop :=
  match reference with
  | none => address = noMode
  | some name =>
      program.addressOf name = .ok address ∧
        ∃ header, program.words[address.toNat]? = some (.header header)

/-- The memory of a program holds the modes of an assembly, whose headers `header` gives. -/
structure LaidOut (assembly : Assembly) (program : Program) (header : Mode → ModeHeader) :
    Prop where
  words_eq : program.words =
    assembly.modes.flatMap fun mode => .header (header mode) :: mode.states.map .state
  size_le : program.size ≤ memoryCapacity
  addresses_increasing : (program.addresses.map Prod.snd).Pairwise (· < ·)
  modeNames_eq : program.modeNames = assembly.modes.map Mode.name
  address_eq : ∀ index, ∀ inside : index < assembly.modes.length, ∃ address,
    program.addressOf assembly.modes[index].name = .ok address ∧
      address.toNat = ((assembly.modes.take index).map fun mode => 1 + mode.states.length).sum
  header_at : ∀ mode ∈ assembly.modes, ∀ address, program.addressOf mode.name = .ok address →
    program.words[address.toNat]? = some (.header (header mode)) ∧ address ≠ noMode
  apart : ∀ one ∈ assembly.modes, ∀ other ∈ assembly.modes, one ≠ other → ∀ a b,
    program.addressOf one.name = .ok a → program.addressOf other.name = .ok b →
      a.toNat + (1 + one.states.length) ≤ b.toNat ∨
        b.toNat + (1 + other.states.length) ≤ a.toNat
  stateCount_eq : ∀ mode ∈ assembly.modes, (header mode).stateCount.toNat = mode.states.length
  loopCount_eq : ∀ mode ∈ assembly.modes, (header mode).loopCount = mode.loopCount
  nestedLoopCount_eq : ∀ mode ∈ assembly.modes,
    (header mode).nestedLoopCount = mode.nestedLoopCount
  isNested_eq : ∀ mode ∈ assembly.modes, (header mode).isNested = mode.parent.isSome
  next_resolves : ∀ mode ∈ assembly.modes, program.Resolves mode.next (header mode).nextAddress
  parent_resolves : ∀ mode ∈ assembly.modes,
    program.Resolves mode.parent (header mode).parentAddress
  nested : ∀ mode ∈ assembly.modes, (header mode).isNested = true →
    1 ≤ (header mode).nestedLoopCount.toNat ∧ ∃ outer,
      program.words[(header mode).parentAddress.toNat]? = some (.header outer) ∧
        outer.isNested = false
  not_nested : ∀ mode ∈ assembly.modes, (header mode).isNested = false →
    (header mode).nestedLoopCount = 0

namespace Assembly

variable {assembly : Assembly} {mode : Mode}

theorem resolves_addressFor (fits : assembly.lineCount ≤ memoryCapacity) {reference : Option String}
    (known : ∀ name, reference = some name → ∃ found, assembly.find? name = some found) :
    assembly.image.Resolves reference (assembly.addressFor reference) := by
  cases reference with
  | none => rfl
  | some name =>
      obtain ⟨found, at_name⟩ := known name rfl
      have placed := addressOf_image_of_known ⟨found, at_name⟩
      exact ⟨placed, _, header_at_addressOf fits at_name placed⟩

theorem apart_of_lt (fits : assembly.lineCount ≤ memoryCapacity) {first second : Nat}
    (inside : second < assembly.modes.length) (ordered : first < second) :
    (UInt16.ofNat (assembly.offset first)).toNat +
        (1 + (assembly.modes.get ⟨first, Nat.lt_trans ordered inside⟩).states.length) ≤
      (UInt16.ofNat (assembly.offset second)).toNat := by
  rw [toNat_ofNat_offset fits (Nat.lt_trans ordered inside), toNat_ofNat_offset fits inside]
  exact offset_apart (Nat.lt_trans ordered inside) ordered

theorem apart_of_ne (fits : assembly.lineCount ≤ memoryCapacity) {one other : Mode}
    (oneMember : one ∈ assembly.modes) (otherMember : other ∈ assembly.modes)
    (distinct : one ≠ other) {a b : UInt16} (placedOne : assembly.image.addressOf one.name = .ok a)
    (placedOther : assembly.image.addressOf other.name = .ok b) :
    a.toNat + (1 + one.states.length) ≤ b.toNat ∨
      b.toNat + (1 + other.states.length) ≤ a.toNat := by
  obtain ⟨i, iInside, iNamed, rfl⟩ := addressOf_image_iff.mp placedOne
  obtain ⟨j, jInside, jNamed, rfl⟩ := addressOf_image_iff.mp placedOther
  have isOne := eq_of_name_eq (List.getElem_mem iInside) oneMember iNamed
  have isOther := eq_of_name_eq (List.getElem_mem jInside) otherMember jNamed
  subst isOne isOther
  rcases Nat.lt_trichotomy i j with before | same | after
  · exact .inl (apart_of_lt fits jInside before)
  · subst same
    exact absurd rfl distinct
  · exact .inr (apart_of_lt fits iInside after)

theorem toNat_stateCount (assembly : Assembly) (mode : Mode) :
    (assembly.headerOf mode).stateCount.toNat = mode.states.length :=
  UInt16.toNat_ofNat_of_lt' (Nat.lt_of_le_of_lt mode.states_le (by decide))

theorem parent_of_nested (sound : assembly.Sound) (fits : assembly.lineCount ≤ memoryCapacity)
    (member : mode ∈ assembly.modes) {parent : String} (named : mode.parent = some parent) :
    ∃ outer, assembly.image.words[(assembly.headerOf mode).parentAddress.toNat]? =
      some (.header outer) ∧ outer.isNested = false := by
  obtain ⟨found, at_name, top⟩ := sound.parent_known mode member parent named
  have placed := addressOf_image_of_known ⟨found, at_name⟩
  refine ⟨assembly.headerOf found, ?_, ?_⟩
  · rw [show (assembly.headerOf mode).parentAddress = assembly.addressFor (some parent) from
      congrArg assembly.addressFor named]
    exact header_at_addressOf fits at_name placed
  · have outermost : found.nesting = none := Option.map_eq_none_iff.mp top
    simp only [headerOf, Mode.isNested, outermost, Option.isSome_none]

theorem nestedLoopCount_pos {nesting : Nesting} (nested : mode.nesting = some nesting) :
    1 ≤ (assembly.headerOf mode).nestedLoopCount.toNat := by
  simp only [headerOf, Mode.nestedLoopCount, nested]
  exact UInt16.lt_iff_toNat_lt.mp nesting.returns_pos

theorem laidOut_image (sound : assembly.Sound) (fits : assembly.lineCount ≤ memoryCapacity) :
    LaidOut assembly assembly.image assembly.headerOf where
  words_eq := rfl
  size_le := by
    rw [size_image]
    exact fits
  addresses_increasing := increasing_addresses fits
  modeNames_eq := map_fst_addressesFrom 0 assembly.modes
  address_eq := by
    intro index inside
    exact ⟨_, addressOf_image inside, toNat_ofNat_offset fits inside⟩
  header_at := by
    intro mode member address placed
    exact ⟨header_at_addressOf fits (find?_name member) placed, addressOf_ne_noMode fits placed⟩
  apart := by
    intro one oneMember other otherMember distinct a b placedOne placedOther
    exact apart_of_ne fits oneMember otherMember distinct placedOne placedOther
  stateCount_eq := by
    intro mode _
    exact toNat_stateCount assembly mode
  loopCount_eq := by
    intro mode _
    rfl
  nestedLoopCount_eq := by
    intro mode _
    rfl
  isNested_eq := by
    intro mode _
    simp only [headerOf, Mode.isNested, Mode.parent, Option.isSome_map]
  next_resolves := by
    intro mode member
    exact resolves_addressFor fits (sound.next_known mode member)
  parent_resolves := by
    intro mode member
    apply resolves_addressFor fits
    intro name named
    obtain ⟨found, at_name, -⟩ := sound.parent_known mode member name named
    exact ⟨found, at_name⟩
  nested := by
    intro mode member isNested
    obtain ⟨nesting, nested⟩ := Option.isSome_iff_exists.mp isNested
    have named : mode.parent = some nesting.parent := by rw [Mode.parent, nested, Option.map_some]
    exact ⟨nestedLoopCount_pos nested, parent_of_nested sound fits member named⟩
  not_nested := by
    intro mode _ notNested
    have outermost : mode.nesting = none := Option.not_isSome_iff_eq_none.mp (by
      rw [Bool.not_eq_true]
      exact notNested)
    simp only [headerOf, Mode.nestedLoopCount, outermost]

theorem laidOut_of_compile {program : Program} (compiled : assembly.compile.outcome = .ok program) :
    ∃ header, LaidOut assembly program header := by
  obtain ⟨sound, fits, rfl⟩ := compile_ok_iff.mp compiled
  exact ⟨assembly.headerOf, laidOut_image sound fits⟩

/-- One line of a detector is read out three times, with its pixels shifted in between, before the
sequencer comes to rest. -/
def lineReadout : Assembly where
  modes := [
    { name := "line", loopCount := 1, next := some "pixels", nesting := none
      states := [⟨1, 10, by decide⟩], states_le := by decide },
    { name := "pixels", loopCount := 2, next := some "rest", nesting := some ⟨"line", 2, by decide⟩
      states := [⟨2, 1, by decide⟩, ⟨3, 4, by decide⟩], states_le := by decide },
    { name := "rest", loopCount := 0, next := none, nesting := none
      states := [], states_le := by decide }]
  names_nodup := by decide

theorem laidOut_lineReadout : lineReadout.compile.outcome = .ok lineReadout.image ∧
    ∃ header, LaidOut lineReadout lineReadout.image header :=
  ⟨by rfl, laidOut_of_compile (by rfl)⟩

end Assembly

end CcdController
