import CcdController.Cli.Report
import CcdController.Program.Upload
import CcdController.Proofs.CommandReading
import CcdController.Proofs.CompiledLayout
import CcdController.Proofs.DumpReading

namespace CcdController

def Command.isMemoryWrite : Command → Bool
  | writeSequencerMemory .. => true
  | _ => false

namespace MemoryImage

variable {instructions : List Instruction} {words : List Word}

def table (words : List Word) : List (Nat × Nat) :=
  words.mapIdx fun address word => (address, word.encode)

theorem mem_table_iff {address line : Nat} : (address, line) ∈ table words ↔
    ∃ word, words[address]? = some word ∧ word.encode = line := by
  rw [table, List.mem_mapIdx]
  constructor
  · rintro ⟨i, below, same⟩
    obtain ⟨rfl, encoded⟩ := Prod.mk.inj same
    exact ⟨_, List.getElem?_eq_getElem below, encoded⟩
  · rintro ⟨word, there, encoded⟩
    obtain ⟨below, same⟩ := List.getElem?_eq_some_iff.mp there
    exact ⟨address, below, by rw [same, encoded]⟩

theorem keys_table : (table words).map Prod.fst = List.range words.length := by
  apply List.ext_getElem
  · simp [table]
  · intro i shown below
    simp [table]

/-- Memory writes that come to a table of words, in whatever order, leave those words. -/
theorem ofInstructions_of_perm
    (writes : (instructions.filterMap write?).Perm (table words)) :
    ofInstructions instructions = .ok words := by
  have nodup : ((instructions.filterMap write?).map Prod.fst).Nodup := by
    rw [(writes.map Prod.fst).nodup_iff, keys_table]
    exact List.nodup_range
  have all : held instructions = instructions.filterMap write? := Keyed.assignAll_of_nodup nodup
  have size : (held instructions).length = words.length := by
    rw [all, writes.length_eq, table, List.length_mapIdx]
  have lines : (List.range words.length).mapM (lineAt (held instructions)) =
      .ok (words.map Word.encode) := by
    apply mapM_eq_ok (by simp)
    intro i address line there taken
    obtain ⟨below, same⟩ := List.getElem?_eq_some_iff.mp there
    rw [List.getElem_range] at same
    rw [List.getElem?_map, same] at taken
    obtain ⟨word, at_address, encoded⟩ := Option.map_eq_some_iff.mp taken
    have found : (held instructions).lookup address = some line := by
      rw [all, Keyed.lookup_eq_some_iff nodup, writes.mem_iff, mem_table_iff]
      exact ⟨word, at_address, encoded⟩
    rw [lineAt, found]
  have decoded : (words.map Word.encode).mapM wordOf = .ok words := by
    apply mapM_eq_ok (List.length_map _)
    intro i line word there taken
    rw [List.getElem?_map, taken] at there
    rw [← Option.some.inj there, wordOf, Word.decode_encode]
    rfl
  rw [ofInstructions, size, lines]
  exact decoded

def sent? (command : Command) : Option (Nat × Nat) := write? command.instruction

theorem sent?_eq (command : Command) : sent? command =
    match command.received with
    | .writeSequencerMemory address line => some (address.toNat, line)
    | _ => none := by
  rw [sent?, write?, Command.ofInstruction_instruction]
  cases command.received <;> rfl

theorem sent?_writeSequencerMemory {address line : Nat} (low : address < 2 ^ 16)
    (small : line < 2 ^ 96) :
    sent? (.writeSequencerMemory (UInt16.ofNat address) line) = some (address, line) := by
  rw [sent?_eq, Command.received, Nat.mod_eq_of_lt small]
  exact congrArg (fun address => some (address, line)) (UInt16.toNat_ofNat_of_lt' low)

theorem sent?_of_not_isMemoryWrite {command : Command} (other : command.isMemoryWrite = false) :
    sent? command = none := by
  rw [sent?_eq]
  cases command <;> first | rfl | cases other

theorem filterMap_sent? (commands : List Command) :
    commands.filterMap sent? = (commands.filter Command.isMemoryWrite).filterMap sent? := by
  rw [List.filterMap_filter]
  congr 1
  funext command
  by_cases writes : command.isMemoryWrite
  · rw [if_pos writes]
  · rw [if_neg writes, sent?_of_not_isMemoryWrite (Bool.eq_false_iff.mpr writes)]

theorem filterMap_sent?_writes {program : Program} (fits : program.size ≤ memoryCapacity) :
    program.writes.filterMap sent? = table program.words := by
  have from_address : ∀ (words : List Word) (address : Nat → Nat),
      (∀ i < words.length, address i < 2 ^ 16) →
      ((words.map Word.encode).mapIdx fun i line =>
          Command.writeSequencerMemory (UInt16.ofNat (address i)) line).filterMap sent? =
        words.mapIdx fun i word => (address i, word.encode) := by
    intro words
    induction words with
    | nil =>
        intro address low
        rfl
    | cons word words ih =>
        intro address low
        have later := ih (fun i => address (i + 1))
          fun i below => low (i + 1) (Nat.succ_lt_succ below)
        have first := sent?_writeSequencerMemory (low 0 (Nat.succ_pos _)) word.encode_lt
        rw [List.map_cons, List.mapIdx_cons, List.filterMap_cons_some first, later,
          List.mapIdx_cons]
  apply from_address program.words id
  intro i below
  have capacity : memoryCapacity = 1023 := rfl
  have size : program.size = program.words.length := rfl
  rw [id]
  omega

end MemoryImage

namespace Dump

theorem encode_ne_nil (order : ByteOrder) (command : Command) : command.encode order ≠ [] := by
  intro empty
  have read := command.readAll_encode order
  rw [empty, Instruction.readAll, if_pos rfl] at read
  cases read

theorem instructions_listing (order : ByteOrder) {width : Nat} (positive : 0 < width)
    {commands : List Command} (few : commands.length < 2 ^ 32) :
    instructions order (listing Text.byteHex order width (commands.map (Command.encode order))) =
      .ok (commands.map Command.instruction) := by
  have filled : ∀ line ∈ commands.map (Command.encode order), line ≠ [] := by
    intro line member
    obtain ⟨command, -, rfl⟩ := List.mem_map.mp member
    exact encode_ne_nil order command
  have parsed := parse_listing order positive (by rwa [List.length_map]) filled
  have groups : (commands.map (Command.encode order)).mapM (lineInstructions order) =
      .ok (commands.map fun command => [command.instruction]) := by
    apply mapM_eq_ok (by rw [List.length_map, List.length_map])
    intro i line group there taken
    rw [List.getElem?_map] at there taken
    obtain ⟨command, at_index, rfl⟩ := Option.map_eq_some_iff.mp there
    rw [at_index, Option.map_some] at taken
    rw [lineInstructions, command.readAll_encode, ← Option.some.inj taken]
  have one_each : (commands.map fun command => [command.instruction]).flatten =
      commands.map Command.instruction := by
    rw [← List.flatMap_def]
    exact List.map_eq_flatMap.symm
  simp only [instructions, parsed, groups, bind, Except.bind]
  exact congrArg Except.ok one_each

end Dump

namespace Assembly

/-- The words of a compiled program come back from a dump of its memory writes, in any order and among
any other commands, and the listing of a dump shows them. Where there are none it says so. -/
theorem memory_of_uploads {assembly : Assembly} {program : Program}
    (compiled : assembly.compile.outcome = .ok program) (order : ByteOrder) {width : Nat}
    (positive : 0 < width) {commands : List Command} (few : commands.length < 2 ^ 32)
    (uploads : (commands.filter Command.isMemoryWrite).Perm program.writes) :
    ∃ text instructions,
      Dump.render order width (commands.map (Command.encode order)) = .ok text ∧
      Dump.instructions order text = .ok instructions ∧
      MemoryImage.ofInstructions instructions = .ok program.words ∧
      Cli.disasmSections order text = .ok [
        ⟨"Instructions", Text.joinedRows (instructions.mapIdx Cli.instructionRow)⟩,
        ⟨"Sequencer memory",
          if program.words = [] then "No sequencer memory writes"
          else Listing.text (fun _ => none) none program.words⟩] := by
  have fits : program.size ≤ memoryCapacity := size_le_of_compile compiled
  have rendered : Dump.render order width (commands.map (Command.encode order)) =
      .ok (Dump.listing Text.byteHex order width (commands.map (Command.encode order))) := by
    rw [Dump.render, if_neg (Nat.pos_iff_ne_zero.mp positive)]
  have read := Dump.instructions_listing order positive few
  have writes : ((commands.map Command.instruction).filterMap MemoryImage.write?).Perm
      (MemoryImage.table program.words) := by
    calc
      (commands.map Command.instruction).filterMap MemoryImage.write? =
          commands.filterMap MemoryImage.sent? := List.filterMap_map
      _ = (commands.filter Command.isMemoryWrite).filterMap MemoryImage.sent? :=
          MemoryImage.filterMap_sent? commands
      List.Perm _ (program.writes.filterMap MemoryImage.sent?) :=
          uploads.filterMap MemoryImage.sent?
      _ = MemoryImage.table program.words := MemoryImage.filterMap_sent?_writes fits
  have image := MemoryImage.ofInstructions_of_perm writes
  refine ⟨_, _, rendered, read, image, ?_⟩
  rw [Cli.disasmSections, read]
  change (((MemoryImage.ofInstructions _).mapError Cli.Failure.ofImage).bind _) = _
  rw [image]
  rfl

/-- An upload backwards, with the sequencer stopped and started around it. -/
def backwardUpload : List Command :=
  .disableSequencer :: lineReadout.image.writes.reverse ++ [.enableSequencer]

theorem memory_of_backwardUpload :
    lineReadout.compile.outcome = .ok lineReadout.image ∧ 0 < 7 ∧
    (backwardUpload.filter Command.isMemoryWrite).Perm lineReadout.image.writes ∧
    ∃ text instructions,
      Dump.render .little 7 (backwardUpload.map (Command.encode .little)) = .ok text ∧
      Dump.instructions .little text = .ok instructions ∧
      MemoryImage.ofInstructions instructions = .ok lineReadout.image.words ∧
      Cli.disasmSections .little text = .ok [
        ⟨"Instructions", Text.joinedRows (instructions.mapIdx Cli.instructionRow)⟩,
        ⟨"Sequencer memory",
          if lineReadout.image.words = [] then "No sequencer memory writes"
          else Listing.text (fun _ => none) none lineReadout.image.words⟩] := by
  have compiled : lineReadout.compile.outcome = .ok lineReadout.image := by rfl
  have uploads : (backwardUpload.filter Command.isMemoryWrite).Perm lineReadout.image.writes :=
    List.reverse_perm lineReadout.image.writes
  have few : backwardUpload.length < 2 ^ 32 := by decide
  exact ⟨compiled, by decide, uploads,
    memory_of_uploads compiled .little (by decide) few uploads⟩

/-- Without words the listing of the program would be empty. -/
theorem notice_of_empty :
    empty.compile.outcome = .ok ⟨[], []⟩ ∧
    ([].filter Command.isMemoryWrite).Perm (Program.writes ⟨[], []⟩) ∧
    Dump.render .little 4 ([].map (Command.encode .little)) = .ok "" ∧
    Cli.disasmSections .little "" ≠
      .ok [⟨"Instructions", ""⟩,
        ⟨"Sequencer memory", Listing.text (fun _ => none) none (Program.words ⟨[], []⟩)⟩] := by
  refine ⟨by rfl, List.Perm.refl _, by rfl, ?_⟩
  have shown : Cli.disasmSections .little "" = .ok [⟨"Instructions", ""⟩,
      ⟨"Sequencer memory", "No sequencer memory writes"⟩] := by rfl
  have listed : Listing.text (fun _ => none) none (Program.words ⟨[], []⟩) = "" := by rfl
  rw [shown, listed]
  intro same
  simp at same

end Assembly

end CcdController
