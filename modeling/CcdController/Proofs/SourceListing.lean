import CcdController.Program.Listing
import CcdController.Proofs.CompiledLayout
import CcdController.Proofs.Numerals
import CcdController.Proofs.PinNaming

/-!
Listings of compiled programs, compared with the modes that were compiled. `sourceRows` writes the rows
of a mode down from the mode alone, with the names that the mode gives, and nothing here but
`modeText_addressFor` knows that the memory keeps addresses in their place.
-/
namespace CcdController

namespace Listing

open Text (decimal)

def referenceText (reference : Option String) : String := reference.getD "-"

def modeRow (line : Nat) (mode : Mode) : String :=
  s!"{decimal 4 line} MODE  {mode.name} | n_states:{mode.states.length} | " ++
    s!"n_loops:{mode.loopCount} | nested_loops:{mode.nestedLoopCount} | " ++
    s!"is_nested:{mode.isNested.toNat} | next:{referenceText mode.next} | " ++
    s!"parent:{referenceText mode.parent}"

def sourceRows (labels : Option PinLabels) (line : Nat) (mode : Mode) : List String :=
  modeRow line mode :: mode.states.mapIdx fun place state =>
    s!"{decimal 4 (line + 1 + place)} STATE {pinsText labels state} | hold:{state.holdTime}"

/-- Sixteen digits, four pins to a digit, pin 0 in the last. -/
def ShowsAllPins (state : TimingState) (text : String) : Prop :=
  ∃ digits : List Nat, text = "pins:" ++ String.ofList (digits.map Text.hexDigit) ∧
    digits.length = 16 ∧ (∀ digit ∈ digits, digit < 16) ∧
    ∀ pin < pinCount, ∃ digit, digits[15 - pin / 4]? = some digit ∧
      digit.testBit (pin % 4) = state.level pin

def ShowsLabels (labels : PinLabels) (state : TimingState) (text : String) : Prop :=
  ∃ shown : List (String × Nat),
    text = " ".intercalate (shown.map fun label => s!"{label.1}:{(state.level label.2).toNat}") ∧
    shown.Pairwise (fun one other => one.2 < other.2) ∧ (shown.map Prod.fst).Nodup ∧
    ∀ name pin, (name, pin) ∈ shown ↔ labels.addressOf name = .ok pin

theorem showsAllPins (state : TimingState) : ShowsAllPins state (pinsText none state) := by
  refine ⟨(List.range 16).reverse.map fun place => state.pins.toNat / 16 ^ place % 16, ?_, rfl, ?_, ?_⟩
  · have fits : state.pins.toNat < 16 ^ 16 := state.pins.isLt
    rw [pinsText, Text.hex_eq (by decide) fits, List.map_map]
    rfl
  · intro digit member
    obtain ⟨place, -, rfl⟩ := List.mem_map.mp member
    exact Nat.mod_lt _ (by decide)
  · intro pin inside
    have place : pin / 4 < 16 := Nat.div_lt_of_lt_mul inside
    have back : 16 - 1 - (15 - pin / 4) = pin / 4 := by omega
    refine ⟨state.pins.toNat / 16 ^ (pin / 4) % 16, ?_, ?_⟩
    · rw [List.getElem?_map, List.getElem?_reverse (by rw [List.length_range]; omega),
        List.length_range, back, List.getElem?_range place]
      rfl
    · have power : 16 ^ (pin / 4) = 2 ^ (4 * (pin / 4)) := (Nat.pow_mul 2 4 (pin / 4)).symm
      have low : pin % 4 < 4 := Nat.mod_lt _ (by decide)
      calc
        _ = (state.pins.toNat / 2 ^ (4 * (pin / 4)) % 2 ^ 4).testBit (pin % 4) := by
          rw [power, show 16 = 2 ^ 4 from rfl]
        _ = state.pins.toNat.testBit (pin % 4 + 4 * (pin / 4)) := by
          rw [Nat.testBit_mod_two_pow, decide_eq_true low, Bool.true_and, Nat.testBit_div_two_pow]
        _ = state.pins.toNat.testBit pin := by rw [Nat.mod_add_div]

theorem showsLabels (labels : PinLabels) (state : TimingState) :
    ShowsLabels labels state (pinsText (some labels) state) :=
  ⟨labels.entries, rfl, labels.increasing, labels.names_nodup, fun _ _ => labels.mem_entries_iff⟩

end Listing

namespace Assembly

open Listing

variable {assembly : Assembly} {mode : Mode} {address : UInt16}

theorem length_words_image : assembly.image.words.length = assembly.lineCount := size_image

structure HeldAt (assembly : Assembly) (mode : Mode) (address : UInt16) (line : Nat) : Prop where
  member : mode ∈ assembly.modes
  placed : assembly.image.addressOf mode.name = .ok address
  from_address : address.toNat ≤ line
  within : line < address.toNat + mode.lineCount

theorem exists_index {line count : Nat} (few : count ≤ assembly.modes.length)
    (below : line < assembly.offset count) : ∃ index, ∃ _inside : index < assembly.modes.length,
      assembly.offset index ≤ line ∧ line < assembly.offset (index + 1) := by
  induction count with
  | zero => exact absurd below (Nat.not_lt_zero line)
  | succ count ih =>
      by_cases earlier : line < assembly.offset count
      · exact ih (Nat.le_of_succ_le few) earlier
      · exact ⟨count, few, Nat.le_of_not_lt earlier, below⟩

theorem exists_heldAt (fits : assembly.lineCount ≤ memoryCapacity) {line : Nat}
    (below : line < assembly.lineCount) : ∃ mode address, assembly.HeldAt mode address line := by
  rw [← offset_length] at below
  obtain ⟨index, inside, from_offset, within⟩ := exists_index (Nat.le_refl _) below
  rw [offset_succ inside] at within
  have start := toNat_ofNat_offset fits inside
  refine ⟨assembly.modes[index], UInt16.ofNat (assembly.offset index), List.getElem_mem inside,
    addressOf_image inside, ?_, ?_⟩
  · rw [start]
    exact from_offset
  · rw [start]
    exact within

theorem end_le (fits : assembly.lineCount ≤ memoryCapacity) (member : mode ∈ assembly.modes)
    (placed : assembly.image.addressOf mode.name = .ok address) :
    address.toNat + mode.lineCount ≤ assembly.lineCount := by
  obtain ⟨later, block⟩ := drop_addressOf fits (find?_name member) placed
  have sizes := congrArg List.length block
  have one : 0 < mode.lineCount := by
    unfold Mode.lineCount
    omega
  rw [List.length_drop, List.length_append, length_linesOf, length_words_image] at sizes
  omega

def Known (assembly : Assembly) (reference : Option String) : Prop :=
  ∀ name, reference = some name → ∃ found, assembly.find? name = some found

theorem Sound.known_next (sound : assembly.Sound) (member : mode ∈ assembly.modes) :
    assembly.Known mode.next := sound.next_known mode member

theorem Sound.known_parent (sound : assembly.Sound) (member : mode ∈ assembly.modes) :
    assembly.Known mode.parent := by
  intro name named
  obtain ⟨found, at_name, -⟩ := sound.parent_known mode member name named
  exact ⟨found, at_name⟩

section

variable (fits : assembly.lineCount ≤ memoryCapacity) {reference : Option String}
  (known : assembly.Known reference)

include fits known

/-- A reference is shown by the name that it was made with. -/
theorem modeText_addressFor :
    modeText assembly.image.nameAt? (assembly.addressFor reference) = referenceText reference := by
  cases reference with
  | none => rfl
  | some name =>
      have placed := addressOf_image_of_known (known name rfl)
      rw [modeText, if_neg (addressOf_ne_noMode fits placed), nameAt?_addressOf fits placed]
      rfl

theorem addressFor_eq_noMode_iff : assembly.addressFor reference = noMode ↔ reference = none := by
  cases reference with
  | none => exact ⟨fun _ => rfl, fun _ => rfl⟩
  | some name =>
      have placed := addressOf_image_of_known (known name rfl)
      exact ⟨fun halt => absurd halt (addressOf_ne_noMode fits placed), fun none => nomatch none⟩

theorem named_addressFor : assembly.addressFor reference = noMode ∨
    ∃ other ∈ assembly.modes,
      assembly.image.nameAt? (assembly.addressFor reference) = some other.name := by
  cases reference with
  | none => exact .inl rfl
  | some name =>
      obtain ⟨found, at_name⟩ := known name rfl
      obtain ⟨member, rfl⟩ := find?_eq_some_iff.mp at_name
      have placed := addressOf_image_of_known ⟨found, at_name⟩
      exact .inr ⟨found, member, nameAt?_addressOf fits placed⟩

end

theorem headerRow_eq (sound : assembly.Sound) (fits : assembly.lineCount ≤ memoryCapacity)
    (member : mode ∈ assembly.modes) (placed : assembly.image.addressOf mode.name = .ok address) :
    headerRow assembly.image.nameAt? address (assembly.headerOf mode) =
      modeRow address.toNat mode := by
  have own : modeText assembly.image.nameAt? address = mode.name := by
    rw [modeText, if_neg (addressOf_ne_noMode fits placed), nameAt?_addressOf fits placed]
    rfl
  have next : modeText assembly.image.nameAt? (assembly.headerOf mode).nextAddress =
      referenceText mode.next := modeText_addressFor fits (sound.known_next member)
  have parent : modeText assembly.image.nameAt? (assembly.headerOf mode).parentAddress =
      referenceText mode.parent := modeText_addressFor fits (sound.known_parent member)
  have count : toString (assembly.headerOf mode).stateCount = toString mode.states.length :=
    congrArg (fun count : Nat => toString count) (toNat_stateCount assembly mode)
  rw [headerRow, own, next, parent, count]
  rfl

theorem rows_linesOf (sound : assembly.Sound) (fits : assembly.lineCount ≤ memoryCapacity)
    (member : mode ∈ assembly.modes) (placed : assembly.image.addressOf mode.name = .ok address)
    (labels : Option PinLabels) :
    (assembly.linesOf mode).mapIdx
        (fun place => row assembly.image.nameAt? labels (place + address.toNat)) =
      sourceRows labels address.toNat mode := by
  rw [linesOf, List.mapIdx_cons, sourceRows, Nat.zero_add]
  apply List.cons_eq_cons.mpr
  constructor
  · rw [row, UInt16.ofNat_toNat]
    exact headerRow_eq sound fits member placed
  · apply List.ext_getElem
    · simp only [List.length_mapIdx, List.length_map]
    · intro place shown below
      have inside : place < mode.states.length := by
        rw [List.length_mapIdx] at below
        exact below
      have ends := end_le fits member placed
      have capacity : memoryCapacity < UInt16.size := by decide
      have line : (UInt16.ofNat (place + 1 + address.toNat)).toNat = address.toNat + 1 + place := by
        unfold Mode.lineCount at ends
        rw [UInt16.toNat_ofNat_of_lt' (by omega)]
        omega
      rw [List.getElem_mapIdx, List.getElem_mapIdx, List.getElem_map, row, stateRow, line]

/-- How the listing of a compiled program, with labels or without, shows the modes of its source. -/
structure ListsSource (assembly : Assembly) (program : Program)
    (rows : Option PinLabels → List String) : Prop where
  text_eq : ∀ labels, program.listing labels = "\n".intercalate (rows labels)
  length_eq : ∀ labels, (rows labels).length = program.words.length
  numbered : ∀ labels line row, (rows labels)[line]? = some row →
    ∃ rest, row = Text.decimal 4 line ++ rest
  mode_at : ∀ mode ∈ assembly.modes, ∃ address, program.addressOf mode.name = .ok address ∧
    ∀ labels, ∃ earlier later, rows labels = earlier ++ sourceRows labels address.toNat mode ++ later ∧
      earlier.length = address.toNat
  covered : ∀ line < program.words.length, ∃ mode ∈ assembly.modes, ∃ address,
    program.addressOf mode.name = .ok address ∧ address.toNat ≤ line ∧
      line < address.toNat + (1 + mode.states.length)
  /-- Only an address that stands for no mode lacks a name, so that no address is shown as it is. -/
  named : ∀ line header, program.words[line]? = some (Word.header header) →
    ∀ address, address = UInt16.ofNat line ∨ address = header.nextAddress ∨
        address = header.parentAddress →
      address = noMode ∨ ∃ mode ∈ assembly.modes, program.nameAt? address = some mode.name
  dash_iff : ∀ mode ∈ assembly.modes, ∀ address header, program.addressOf mode.name = .ok address →
    program.words[address.toNat]? = some (Word.header header) →
      (header.nextAddress = noMode ↔ mode.next = none) ∧
        (header.parentAddress = noMode ↔ mode.parent = none)
  same_header : ∀ labels (line : Nat) header, program.words[line]? = some (Word.header header) →
    (rows (some labels))[line]? = (rows none)[line]?
  pins : ∀ state, ShowsAllPins state (pinsText none state)
  labeled_pins : ∀ labels state, ShowsLabels labels state (pinsText (some labels) state)

theorem exists_rest (names : ModeNames) (labels : Option PinLabels) (line : Nat) (word : Word) :
    ∃ rest, row names labels line word = Text.decimal 4 (UInt16.ofNat line).toNat ++ rest := by
  cases word with
  | header header =>
      rw [row, headerRow]
      simp only [String.append_assoc]
      exact ⟨_, rfl⟩
  | state state =>
      rw [row, stateRow]
      simp only [String.append_assoc]
      exact ⟨_, rfl⟩

theorem exists_mode_of_header (fits : assembly.lineCount ≤ memoryCapacity) {line : Nat}
    {header : ModeHeader} (found : assembly.image.words[line]? = some (.header header)) :
    ∃ mode ∈ assembly.modes, ∃ address, assembly.image.addressOf mode.name = .ok address ∧
      address.toNat = line ∧ header = assembly.headerOf mode := by
  obtain ⟨below, -⟩ := List.getElem?_eq_some_iff.mp found
  rw [length_words_image] at below
  obtain ⟨mode, address, held⟩ := exists_heldAt fits below
  obtain ⟨later, block⟩ := drop_addressOf fits (find?_name held.member) held.placed
  obtain ⟨place, rfl⟩ := Nat.exists_eq_add_of_le held.from_address
  have within : place < (assembly.linesOf mode).length := by
    rw [length_linesOf]
    exact Nat.lt_of_add_lt_add_left held.within
  rw [← List.getElem?_drop, block, List.getElem?_append_left within, linesOf] at found
  cases place with
  | zero =>
      have header_eq := Word.header.inj (Option.some.inj found)
      exact ⟨mode, held.member, address, held.placed, rfl, header_eq.symm⟩
  | succ place =>
      rw [List.getElem?_cons_succ, List.getElem?_map] at found
      obtain ⟨state, -, other⟩ := Option.map_eq_some_iff.mp found
      cases other

theorem exists_split (sound : assembly.Sound) (fits : assembly.lineCount ≤ memoryCapacity)
    (member : mode ∈ assembly.modes) (placed : assembly.image.addressOf mode.name = .ok address)
    (labels : Option PinLabels) : ∃ earlier later,
      rows assembly.image.nameAt? labels assembly.image.words =
        earlier ++ sourceRows labels address.toNat mode ++ later ∧ earlier.length = address.toNat := by
  obtain ⟨later, block⟩ := drop_addressOf fits (find?_name member) placed
  have ends := end_le fits member placed
  have front : (assembly.image.words.take address.toNat).length = address.toNat := by
    apply List.length_take_of_le
    rw [length_words_image]
    omega
  have split : assembly.image.words =
      assembly.image.words.take address.toNat ++ (assembly.linesOf mode ++ later) := by
    rw [← block, List.take_append_drop]
  refine ⟨(assembly.image.words.take address.toNat).mapIdx (row assembly.image.nameAt? labels),
    later.mapIdx fun place => row assembly.image.nameAt? labels
      (place + (assembly.linesOf mode).length + address.toNat), ?_, ?_⟩
  · rw [rows, ← rows_linesOf sound fits member placed labels]
    conv_lhs => rw [split]
    rw [List.mapIdx_append, List.mapIdx_append, front, List.append_assoc]
  · rw [List.length_mapIdx, front]

theorem listsSource_image (sound : assembly.Sound) (fits : assembly.lineCount ≤ memoryCapacity) :
    ListsSource assembly assembly.image fun labels =>
      rows assembly.image.nameAt? labels assembly.image.words where
  text_eq := by
    intro labels
    rfl
  length_eq := by
    intro labels
    exact List.length_mapIdx
  numbered := by
    intro labels line shown there
    rw [rows, List.getElem?_mapIdx] at there
    obtain ⟨word, found, rfl⟩ := Option.map_eq_some_iff.mp there
    have below := (List.getElem?_eq_some_iff.mp found).1
    have narrow : memoryCapacity < UInt16.size := by decide
    rw [length_words_image] at below
    have small : (UInt16.ofNat line).toNat = line := UInt16.toNat_ofNat_of_lt' (by omega)
    have starts := exists_rest assembly.image.nameAt? labels line word
    rw [small] at starts
    exact starts
  mode_at := by
    intro mode member
    have placed := addressOf_image_of_known ⟨mode, find?_name member⟩
    exact ⟨_, placed, exists_split sound fits member placed⟩
  covered := by
    intro line below
    rw [length_words_image] at below
    obtain ⟨mode, address, held⟩ := exists_heldAt fits below
    exact ⟨mode, held.member, address, held.placed, held.from_address, held.within⟩
  named := by
    intro line header found address shown
    obtain ⟨mode, member, own, placed, rfl, rfl⟩ := exists_mode_of_header fits found
    rcases shown with rfl | rfl | rfl
    · rw [UInt16.ofNat_toNat]
      exact .inr ⟨mode, member, nameAt?_addressOf fits placed⟩
    · exact named_addressFor fits (sound.known_next member)
    · exact named_addressFor fits (sound.known_parent member)
  dash_iff := by
    intro mode member address header placed found
    have held := header_at_addressOf fits (find?_name member) placed
    cases found.symm.trans held
    exact ⟨addressFor_eq_noMode_iff fits (sound.known_next member),
      addressFor_eq_noMode_iff fits (sound.known_parent member)⟩
  same_header := by
    intro labels line header found
    simp only [rows, List.getElem?_mapIdx, found, Option.map_some, row]
  pins := showsAllPins
  labeled_pins := showsLabels

/-- The listing of a compiled program shows its source: the rows of each mode in their place, and no
others. -/
theorem listing_showsSource {program : Program} (compiled : assembly.compile.outcome = .ok program) :
    ∃ rows, ListsSource assembly program rows := by
  obtain ⟨sound, fits, rfl⟩ := compile_ok_iff.mp compiled
  exact ⟨_, listsSource_image sound fits⟩

theorem listing_showsSource_lineReadout : lineReadout.compile.outcome = .ok lineReadout.image ∧
    ∃ rows, ListsSource lineReadout lineReadout.image rows :=
  ⟨by rfl, listing_showsSource (by rfl)⟩

end Assembly

end CcdController
