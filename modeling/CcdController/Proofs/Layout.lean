import Mathlib.Algebra.GroupWithZero.Nat
import CcdController.Assembly
import CcdController.Proofs.Keyed
import CcdController.Proofs.Traversal

/-!
Where compiling puts the modes of an assembly. `layOut_eq` says that sound modes are laid out as
`image`, which is written down without any failure, unless they take too many lines; `compile_ok_iff`
follows from it. What stands where in an image follows from `drop_offset`.
-/
namespace CcdController

namespace Assembly

variable {assembly : Assembly} {mode : Mode}

theorem find?_eq_some_iff {name : String} :
    assembly.find? name = some mode ↔ mode ∈ assembly.modes ∧ mode.name = name :=
  Keyed.find?_eq_some_iff assembly.names_nodup

theorem find?_name (member : mode ∈ assembly.modes) : assembly.find? mode.name = some mode :=
  find?_eq_some_iff.mpr ⟨member, rfl⟩

theorem eq_of_name_eq {other : Mode} (member : mode ∈ assembly.modes)
    (otherMember : other ∈ assembly.modes) (named : mode.name = other.name) : mode = other := by
  have found := find?_name member
  rw [named, find?_name otherMember] at found
  exact (Option.some.inj found).symm

def offset (assembly : Assembly) (index : Nat) : Nat :=
  ((assembly.modes.take index).map Mode.lineCount).sum

theorem offset_succ {index : Nat} (inside : index < assembly.modes.length) :
    assembly.offset (index + 1) = assembly.offset index + assembly.modes[index].lineCount := by
  unfold offset
  rw [List.take_succ_eq_append_getElem inside, List.map_append, List.sum_append]
  simp

theorem offset_mono (assembly : Assembly) {first second : Nat} (ordered : first ≤ second) :
    assembly.offset first ≤ assembly.offset second := by
  unfold offset
  rw [← List.take_append_drop first (assembly.modes.take second), List.take_take,
    Nat.min_eq_left ordered, List.map_append, List.sum_append]
  exact Nat.le_add_right _ _

theorem offset_apart {first second : Nat} (inside : first < assembly.modes.length)
    (ordered : first < second) :
    assembly.offset first + assembly.modes[first].lineCount ≤ assembly.offset second := by
  rw [← offset_succ]
  exact offset_mono assembly ordered

theorem lineCount_eq_sum (assembly : Assembly) :
    assembly.lineCount = (assembly.modes.map Mode.lineCount).sum := by
  rw [lineCount, List.sum_eq_foldr, List.foldr_map]

theorem offset_length : assembly.offset assembly.modes.length = assembly.lineCount := by
  rw [offset, List.take_length, lineCount_eq_sum]

theorem offset_lt {index : Nat} (inside : index < assembly.modes.length) :
    assembly.offset index < assembly.lineCount := by
  have ends := offset_mono assembly (Nat.succ_le_of_lt inside)
  rw [offset_succ inside, offset_length] at ends
  have lines : 0 < assembly.modes[index].lineCount := by
    unfold Mode.lineCount
    omega
  omega

def addressesFrom (offset : Nat) : List Mode → AddressTable
  | [] => []
  | mode :: rest => (mode.name, UInt16.ofNat offset) :: addressesFrom (offset + mode.lineCount) rest

def addresses (assembly : Assembly) : AddressTable := addressesFrom 0 assembly.modes

theorem map_offsetsFrom (start : Nat) (modes : List Mode) :
    (offsetsFrom start modes).map (fun entry => (entry.1, UInt16.ofNat entry.2)) =
      addressesFrom start modes := by
  induction modes generalizing start with
  | nil => rfl
  | cons mode rest ih => rw [offsetsFrom, List.map_cons, ih, addressesFrom]

theorem lt_of_mem_offsetsFrom {start : Nat} {modes : List Mode} {entry : String × Nat}
    (member : entry ∈ offsetsFrom start modes) :
    entry.2 < start + (modes.map Mode.lineCount).sum := by
  induction modes generalizing start with
  | nil => cases member
  | cons mode rest ih =>
      have lines : 0 < mode.lineCount := by
        unfold Mode.lineCount
        omega
      rw [List.map_cons, List.sum_cons]
      rcases List.mem_cons.mp member with rfl | later
      · omega
      · have := ih later
        omega

theorem map_fst_addressesFrom (start : Nat) (modes : List Mode) :
    (addressesFrom start modes).map Prod.fst = modes.map Mode.name := by
  induction modes generalizing start with
  | nil => rfl
  | cons mode rest ih => rw [addressesFrom, List.map_cons, List.map_cons, ih]

theorem getElem?_addressesFrom (start : Nat) (modes : List Mode) (index : Nat) :
    (addressesFrom start modes)[index]? = modes[index]?.map fun mode =>
      (mode.name, UInt16.ofNat (start + ((modes.take index).map Mode.lineCount).sum)) := by
  induction modes generalizing start index with
  | nil => rfl
  | cons mode rest ih =>
      cases index with
      | zero => simp [addressesFrom]
      | succ index =>
          rw [addressesFrom, List.getElem?_cons_succ, List.getElem?_cons_succ, ih]
          simp [Nat.add_assoc]

theorem nodup_map_fst_addresses (assembly : Assembly) :
    (assembly.addresses.map Prod.fst).Nodup := by
  rw [addresses, map_fst_addressesFrom]
  exact assembly.names_nodup

theorem mem_addresses_iff {name : String} {address : UInt16} :
    (name, address) ∈ assembly.addresses ↔ ∃ index, ∃ inside : index < assembly.modes.length,
      assembly.modes[index].name = name ∧ UInt16.ofNat (assembly.offset index) = address := by
  simp only [List.mem_iff_getElem?, addresses, getElem?_addressesFrom, Nat.zero_add,
    Option.map_eq_some_iff, Prod.mk.injEq, List.getElem?_eq_some_iff]
  constructor
  · rintro ⟨index, mode, ⟨inside, rfl⟩, named, placed⟩
    exact ⟨index, inside, named, placed⟩
  · rintro ⟨index, inside, named, placed⟩
    exact ⟨index, _, ⟨inside, rfl⟩, named, placed⟩

theorem lookup_addresses {index : Nat} (inside : index < assembly.modes.length) :
    assembly.addresses.lookup assembly.modes[index].name =
      some (UInt16.ofNat (assembly.offset index)) := by
  rw [Keyed.lookup_eq_some_iff assembly.nodup_map_fst_addresses, mem_addresses_iff]
  exact ⟨index, inside, rfl, rfl⟩

def addressFor (assembly : Assembly) (reference : Option String) : UInt16 :=
  (reference.bind fun name => assembly.addresses.lookup name).getD noMode

def headerOf (assembly : Assembly) (mode : Mode) : ModeHeader where
  stateCount := UInt16.ofNat mode.states.length
  loopCount := mode.loopCount
  nestedLoopCount := mode.nestedLoopCount
  isNested := mode.isNested
  nextAddress := assembly.addressFor mode.next
  parentAddress := assembly.addressFor mode.parent

def linesOf (assembly : Assembly) (mode : Mode) : List Word :=
  .header (assembly.headerOf mode) :: mode.states.map .state

def image (assembly : Assembly) : Program :=
  ⟨assembly.modes.flatMap assembly.linesOf, assembly.addresses⟩

theorem length_linesOf (mode : Mode) : (assembly.linesOf mode).length = mode.lineCount := by
  rw [linesOf, List.length_cons, List.length_map, Mode.lineCount, Nat.add_comm]

theorem size_image : assembly.image.size = assembly.lineCount := by
  rw [Program.size, image, List.length_flatMap, lineCount_eq_sum]
  simp only [length_linesOf]

theorem modeNames_image : assembly.image.modeNames = assembly.modes.map Mode.name :=
  map_fst_addressesFrom 0 assembly.modes

theorem drop_offset (assembly : Assembly) (index : Nat) :
    assembly.image.words.drop (assembly.offset index) =
      (assembly.modes.drop index).flatMap assembly.linesOf := by
  have front : ((assembly.modes.take index).flatMap assembly.linesOf).length =
      assembly.offset index := by
    rw [List.length_flatMap, offset]
    simp only [length_linesOf]
  calc
    _ = ((assembly.modes.take index).flatMap assembly.linesOf ++
          (assembly.modes.drop index).flatMap assembly.linesOf).drop (assembly.offset index) := by
      rw [← List.flatMap_append, List.take_append_drop]
      rfl
    _ = _ := by rw [← front, List.drop_left]

/-- The lines of a mode stand at its address, and those of later modes after them. -/
theorem drop_offset_eq_append {index : Nat} (inside : index < assembly.modes.length) :
    assembly.image.words.drop (assembly.offset index) =
      assembly.linesOf assembly.modes[index] ++
        (assembly.modes.drop (index + 1)).flatMap assembly.linesOf := by
  rw [drop_offset, List.drop_eq_getElem_cons inside, List.flatMap_cons]

/-- Every reference leads to a registered mode, and no parent is nested itself. -/
structure Sound (assembly : Assembly) : Prop where
  next_known : ∀ mode ∈ assembly.modes, ∀ next, mode.next = some next →
    ∃ found, assembly.find? next = some found
  parent_known : ∀ mode ∈ assembly.modes, ∀ parent, mode.parent = some parent →
    ∃ found, assembly.find? parent = some found ∧ found.parent = none

theorem nextIssues_eq_nil_iff : assembly.nextIssues mode = [] ↔
    ∀ next, mode.next = some next → ∃ found, assembly.find? next = some found := by
  unfold nextIssues
  cases mode.next with
  | none => simp
  | some next => cases found : assembly.find? next <;> simp [found]

theorem parentIssues_eq_nil_iff : assembly.parentIssues mode = [] ↔
    ∀ parent, mode.parent = some parent →
      ∃ found, assembly.find? parent = some found ∧ found.parent = none := by
  unfold parentIssues
  cases mode.parent with
  | none => simp
  | some parent =>
      cases found : assembly.find? parent with
      | none => simp [found]
      | some outer => cases above : outer.parent <;> simp [found, above]

theorem issues_eq_nil_iff : assembly.issues = [] ↔ assembly.Sound := by
  simp only [issues, List.flatMap_eq_nil_iff, List.append_eq_nil_iff, nextIssues_eq_nil_iff,
    parentIssues_eq_nil_iff]
  constructor
  · intro clean
    exact ⟨fun mode member => (clean mode member).1, fun mode member => (clean mode member).2⟩
  · intro sound mode member
    exact ⟨sound.next_known mode member, sound.parent_known mode member⟩

theorem lookup_addresses_of_find? {name : String} (found : assembly.find? name = some mode) :
    ∃ index, ∃ inside : index < assembly.modes.length, assembly.modes[index] = mode ∧
      assembly.addresses.lookup name = some (UInt16.ofNat (assembly.offset index)) := by
  obtain ⟨member, rfl⟩ := find?_eq_some_iff.mp found
  obtain ⟨index, inside, rfl⟩ := List.mem_iff_getElem.mp member
  exact ⟨index, inside, rfl, lookup_addresses inside⟩

theorem resolve_addresses {reference : Option String}
    (known : ∀ name, reference = some name → ∃ found, assembly.find? name = some found) :
    Mode.resolve assembly.addresses reference = .ok (assembly.addressFor reference) := by
  cases reference with
  | none => rfl
  | some name =>
      obtain ⟨found, at_name⟩ := known name rfl
      obtain ⟨index, inside, -, held⟩ := lookup_addresses_of_find? at_name
      simp only [Mode.resolve, addressFor, Option.bind_some, held, Option.getD_some]

theorem block_eq_linesOf (sound : assembly.Sound) (member : mode ∈ assembly.modes) :
    block assembly.addresses mode = .ok (assembly.linesOf mode) := by
  have next := resolve_addresses (sound.next_known mode member)
  have parent : Mode.resolve assembly.addresses mode.parent =
      .ok (assembly.addressFor mode.parent) := by
    apply resolve_addresses
    intro name named
    obtain ⟨found, at_name, -⟩ := sound.parent_known mode member name named
    exact ⟨found, at_name⟩
  simp only [block, Mode.header, next, parent]
  rfl

theorem addressesAt_eq_addresses
    (narrow : ∀ entry ∈ offsetsFrom 0 assembly.modes, entry.2 < UInt16.size) :
    (offsetsFrom 0 assembly.modes).mapM (addressAt assembly.lineCount) = .ok assembly.addresses := by
  rw [addresses, ← map_offsetsFrom]
  apply mapM_eq_ok_map
  intro entry member
  exact if_pos (narrow entry member)

/-- An address that does not fit is told as the number of lines, not as that address. -/
theorem addressesAt_eq_overflow {entry : String × Nat}
    (member : entry ∈ offsetsFrom 0 assembly.modes) (wide : UInt16.size ≤ entry.2) :
    (offsetsFrom 0 assembly.modes).mapM (addressAt assembly.lineCount) =
      .error (.memoryOverflow assembly.lineCount memoryCapacity) := by
  apply mapM_eq_error
  · intro other _
    unfold addressAt
    by_cases narrow : other.2 < UInt16.size
    · exact .inr ⟨_, if_pos narrow⟩
    · exact .inl (if_neg narrow)
  · exact ⟨entry, member, if_neg (Nat.not_lt.mpr wide)⟩

/-- Sound modes are laid out as their image or take too many lines. Whichever check finds that out,
the same number of lines is told. -/
theorem layOut_eq (sound : assembly.Sound) : assembly.layOut =
    if memoryCapacity < assembly.lineCount then
      .error (.memoryOverflow assembly.lineCount memoryCapacity)
    else .ok assembly.image := by
  by_cases narrow : ∀ entry ∈ offsetsFrom 0 assembly.modes, entry.2 < UInt16.size
  · have blocks : assembly.modes.mapM (block assembly.addresses) =
        .ok (assembly.modes.map assembly.linesOf) := mapM_eq_ok_map fun _ => block_eq_linesOf sound
    have size : (assembly.modes.map assembly.linesOf).flatten.length = assembly.lineCount := by
      rw [← List.flatMap_def]
      exact size_image
    simp only [layOut, addressesAt_eq_addresses narrow, blocks, bind, Except.bind, size]
    rfl
  · simp only [not_forall, Nat.not_lt] at narrow
    obtain ⟨entry, member, wide⟩ := narrow
    have inside := lt_of_mem_offsetsFrom member
    rw [Nat.zero_add, ← lineCount_eq_sum] at inside
    have long : memoryCapacity < assembly.lineCount := by
      have capacity : memoryCapacity = 1023 := rfl
      have narrowest : UInt16.size = 65536 := rfl
      omega
    rw [if_pos long, layOut, addressesAt_eq_overflow member wide]
    rfl

theorem compile_of_issues (found : assembly.issues ≠ []) : assembly.compile =
    ⟨.error (.inconsistent assembly.issues), assembly.issues.map .inconsistency⟩ :=
  if_pos found

theorem compile_of_overflow (sound : assembly.Sound) (long : memoryCapacity < assembly.lineCount) :
    assembly.compile = ⟨.error (.memoryOverflow assembly.lineCount memoryCapacity), []⟩ := by
  rw [compile, if_neg (not_not_intro (issues_eq_nil_iff.mpr sound)), layOut_eq sound, if_pos long]

theorem compile_of_fits (sound : assembly.Sound) (fits : assembly.lineCount ≤ memoryCapacity) :
    assembly.compile =
      ⟨.ok assembly.image, [.compiled assembly.modes.length assembly.lineCount]⟩ := by
  rw [compile, if_neg (not_not_intro (issues_eq_nil_iff.mpr sound)), layOut_eq sound,
    if_neg (Nat.not_lt.mpr fits)]
  simp only [size_image]

theorem compile_ok_iff {program : Program} : assembly.compile.outcome = .ok program ↔
    assembly.Sound ∧ assembly.lineCount ≤ memoryCapacity ∧ program = assembly.image := by
  by_cases clean : assembly.issues = []
  · have sound := issues_eq_nil_iff.mp clean
    by_cases fits : assembly.lineCount ≤ memoryCapacity
    · rw [compile_of_fits sound fits]
      simp only [Except.ok.injEq, sound, fits, true_and]
      exact eq_comm
    · rw [compile_of_overflow sound (Nat.lt_of_not_le fits)]
      simp [fits]
  · rw [compile_of_issues clean]
    simp [mt issues_eq_nil_iff.mpr clean]

theorem size_le_of_compile {program : Program} (compiled : assembly.compile.outcome = .ok program) :
    program.size ≤ memoryCapacity := by
  obtain ⟨-, fits, rfl⟩ := compile_ok_iff.mp compiled
  rw [size_image]
  exact fits

section Image

variable {index : Nat} {name : String} {address : UInt16}

theorem toNat_ofNat_offset (fits : assembly.lineCount ≤ memoryCapacity)
    (inside : index < assembly.modes.length) :
    (UInt16.ofNat (assembly.offset index)).toNat = assembly.offset index := by
  have below : assembly.offset index < memoryCapacity := Nat.lt_of_lt_of_le (offset_lt inside) fits
  exact UInt16.toNat_ofNat_of_lt' (Nat.lt_trans below (by decide))

theorem addressOf_image_iff : assembly.image.addressOf name = .ok address ↔
    ∃ index, ∃ inside : index < assembly.modes.length,
      assembly.modes[index].name = name ∧ UInt16.ofNat (assembly.offset index) = address := by
  rw [← mem_addresses_iff, ← Keyed.lookup_eq_some_iff assembly.nodup_map_fst_addresses]
  simp only [Program.addressOf, image]
  cases assembly.addresses.lookup name <;> simp

theorem addressOf_image (inside : index < assembly.modes.length) :
    assembly.image.addressOf assembly.modes[index].name =
      .ok (UInt16.ofNat (assembly.offset index)) :=
  addressOf_image_iff.mpr ⟨index, inside, rfl, rfl⟩

theorem addressOf_image_of_known (known : ∃ found, assembly.find? name = some found) :
    assembly.image.addressOf name = .ok (assembly.addressFor (some name)) := by
  obtain ⟨found, at_name⟩ := known
  obtain ⟨index, inside, -, held⟩ := lookup_addresses_of_find? at_name
  simp only [Program.addressOf, image, addressFor, Option.bind_some, held, Option.getD_some]

theorem addressOf_ne_noMode (fits : assembly.lineCount ≤ memoryCapacity)
    (placed : assembly.image.addressOf name = .ok address) : address ≠ noMode := by
  obtain ⟨index, inside, rfl, rfl⟩ := addressOf_image_iff.mp placed
  intro same
  have value := congrArg UInt16.toNat same
  rw [toNat_ofNat_offset fits inside] at value
  have below := Nat.lt_of_lt_of_le (offset_lt inside) fits
  exact absurd value (Nat.ne_of_lt below)

theorem drop_addressOf (fits : assembly.lineCount ≤ memoryCapacity)
    (found : assembly.find? name = some mode)
    (placed : assembly.image.addressOf name = .ok address) :
    ∃ later, assembly.image.words.drop address.toNat = assembly.linesOf mode ++ later := by
  obtain ⟨index, inside, rfl, rfl⟩ := addressOf_image_iff.mp placed
  have same := Option.some.inj ((find?_name (List.getElem_mem inside)).symm.trans found)
  subst same
  rw [toNat_ofNat_offset fits inside, drop_offset_eq_append inside]
  exact ⟨_, rfl⟩

theorem header_at_addressOf (fits : assembly.lineCount ≤ memoryCapacity)
    (found : assembly.find? name = some mode)
    (placed : assembly.image.addressOf name = .ok address) :
    assembly.image.words[address.toNat]? = some (.header (assembly.headerOf mode)) := by
  obtain ⟨later, block⟩ := drop_addressOf fits found placed
  rw [← Nat.add_zero address.toNat, ← List.getElem?_drop, block]
  rfl

theorem increasing_addresses (fits : assembly.lineCount ≤ memoryCapacity) :
    (assembly.addresses.map Prod.snd).Pairwise (· < ·) := by
  rw [List.pairwise_map, List.pairwise_iff_getElem]
  intro first second firstBound secondBound ordered
  have entry : ∀ index (bound : index < assembly.addresses.length),
      ∃ _ : index < assembly.modes.length,
        assembly.addresses[index].2 = UInt16.ofNat (assembly.offset index) := by
    intro index bound
    have held := List.getElem?_eq_getElem bound
    simp only [addresses, getElem?_addressesFrom, Nat.zero_add, Option.map_eq_some_iff] at held
    obtain ⟨mode, there, same⟩ := held
    exact ⟨(List.getElem?_eq_some_iff.mp there).1, (congrArg Prod.snd same).symm⟩
  obtain ⟨firstInside, firstAt⟩ := entry first firstBound
  obtain ⟨secondInside, secondAt⟩ := entry second secondBound
  rw [firstAt, secondAt, UInt16.lt_iff_toNat_lt, toNat_ofNat_offset fits firstInside,
    toNat_ofNat_offset fits secondInside]
  have apart := offset_apart firstInside ordered
  unfold Mode.lineCount at apart
  omega

theorem nameAt?_addressOf (fits : assembly.lineCount ≤ memoryCapacity)
    (placed : assembly.image.addressOf name = .ok address) :
    assembly.image.nameAt? address = some name := by
  have distinct : (assembly.addresses.map Prod.snd).Nodup :=
    (increasing_addresses fits).imp fun below same => by
      rw [same] at below
      exact absurd below (UInt16.lt_irrefl _)
  have member : (name, address) ∈ assembly.addresses :=
    mem_addresses_iff.mpr (addressOf_image_iff.mp placed)
  have found := (Keyed.find?_eq_some_iff distinct).mpr ⟨member, rfl⟩
  simp only [Program.nameAt?, image, found, Option.map_some]

end Image

end Assembly

end CcdController
