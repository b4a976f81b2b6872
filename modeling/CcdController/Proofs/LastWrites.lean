import Mathlib.Data.List.Perm.Subperm
import CcdController.MemoryImage
import CcdController.Proofs.CommandRecognition
import CcdController.Proofs.Keyed
import CcdController.Proofs.LineReading
import CcdController.Proofs.Traversal

/-!
Memory images and the last write to each address. `lastWrite` looks for it from the end of the
instructions, without a memory, and `Outcome` says what comes of the lines that are found there. Every
list of instructions comes to one outcome, that of its last writes.
-/
namespace CcdController

namespace MemoryImage

def lineTo (address : Nat) (instruction : Instruction) : Option Nat :=
  match Command.ofInstruction instruction with
  | .ok (.writeSequencerMemory target line) => if target.toNat = address then some line else none
  | _ => none

def lastWrite (instructions : List Instruction) (address : Nat) : Option Nat :=
  instructions.reverse.findSome? (lineTo address)

def Contiguous (lines : Nat → Option Nat) (count : Nat) : Prop :=
  ∀ address, lines address ≠ none ↔ address < count

def RefusedAt (lines : Nat → Option Nat) (address : Nat) (fault : Fault) : Prop :=
  ∃ line, lines address = some line ∧ Word.decode line = .error fault

inductive Outcome (lines : Nat → Option Nat) : Except Failure (List Word) → Prop
  | words {words : List Word}
      (decodes : ∀ address : Nat, (lines address).map Word.decode = words[address]?.map .ok) :
      Outcome lines (.ok words)
  /-- The smallest address that is missing, whatever the lines are. -/
  | gap {address higher : Nat} (missing : lines address = none)
      (lower : ∀ below < address, lines below ≠ none) (above : address < higher)
      (there : lines higher ≠ none) : Outcome lines (.error (.gap address))
  | invalid {count address : Nat} {fault : Fault} (contiguous : Contiguous lines count)
      (refused : RefusedAt lines address fault)
      (lower : ∀ below < address, ∀ other, ¬ RefusedAt lines below other) :
      Outcome lines (.error (.fault fault))

variable {lines : Nat → Option Nat} {words : List Word} {address count : Nat}

section

variable (decodes : ∀ address : Nat, (lines address).map Word.decode = words[address]?.map .ok)

include decodes

theorem contiguous_of_decodes : Contiguous lines words.length := by
  intro address
  have same := congrArg Option.isSome (decodes address)
  rw [Option.isSome_map, Option.isSome_map] at same
  rw [← Option.isSome_iff_ne_none, same]
  simp

theorem not_refusedAt_of_decodes (fault : Fault) : ¬ RefusedAt lines address fault := by
  rintro ⟨line, found, refused⟩
  have here := decodes address
  rw [found, Option.map_some, refused] at here
  obtain ⟨word, -, decoded⟩ := Option.map_eq_some_iff.mp here.symm
  cases decoded

end

/-- Above the addresses in use there is no line, so what is missing is not below one. -/
theorem Contiguous.eq_none (contiguous : Contiguous lines count) {higher : Nat}
    (missing : lines address = none) (above : address < higher) : lines higher = none := by
  have beyond : ¬ address < count := fun below => (contiguous address).mpr below missing
  apply Classical.not_not.mp
  intro there
  have within := (contiguous higher).mp there
  omega

theorem eq_of_least {p : Nat → Prop} {one other : Nat} (first : p one) (second : p other)
    (least : ∀ below < one, ¬ p below) (least' : ∀ below < other, ¬ p below) : one = other := by
  rcases Nat.lt_trichotomy one other with less | same | greater
  · exact absurd first (least' one less)
  · exact same
  · exact absurd second (least other greater)

theorem Outcome.unique {one other : Except Failure (List Word)} (first : Outcome lines one)
    (second : Outcome lines other) : one = other := by
  cases first with
  | words decodes =>
      cases second with
      | words decodes' =>
          congr 1
          apply List.ext_getElem?
          intro address
          have same := (decodes address).symm.trans (decodes' address)
          exact Option.map_injective (fun _ _ => Except.ok.inj) same
      | gap missing _ above there =>
          exact absurd ((contiguous_of_decodes decodes).eq_none missing above) there
      | invalid _ refused => exact absurd refused (not_refusedAt_of_decodes decodes _)
  | gap missing lower above there =>
      cases second with
      | words decodes => exact absurd ((contiguous_of_decodes decodes).eq_none missing above) there
      | gap missing' lower' =>
          have same := eq_of_least (p := fun address => lines address = none) missing missing' lower lower'
          rw [same]
      | invalid contiguous => exact absurd (contiguous.eq_none missing above) there
  | invalid contiguous refused lower =>
      cases second with
      | words decodes => exact absurd refused (not_refusedAt_of_decodes decodes _)
      | gap missing _ above there => exact absurd (contiguous.eq_none missing above) there
      | invalid _ refused' lower' =>
          have same := eq_of_least (p := fun address => ∃ fault, RefusedAt lines address fault)
            ⟨_, refused⟩ ⟨_, refused'⟩ (fun below less => not_exists.mpr (lower below less))
            (fun below less => not_exists.mpr (lower' below less))
          subst same
          obtain ⟨line, found, decoded⟩ := refused
          obtain ⟨line', found', decoded'⟩ := refused'
          cases found.symm.trans found'
          cases decoded.symm.trans decoded'
          rfl

variable {instructions : List Instruction}

theorem lineTo_eq (address : Nat) (instruction : Instruction) :
    lineTo address instruction =
      (write? instruction).bind fun write => if address = write.1 then some write.2 else none := by
  unfold lineTo write?
  cases Command.ofInstruction instruction with
  | error fault => rfl
  | ok command =>
      cases command with
      | writeSequencerMemory target line => simp only [Option.bind_some, eq_comm]
      | _ => rfl

theorem lookup_filterMap_write? (instructions : List Instruction) (address : Nat) :
    (instructions.filterMap write?).lookup address = instructions.findSome? (lineTo address) := by
  induction instructions with
  | nil => rfl
  | cons instruction later ih =>
      rw [List.findSome?_cons, lineTo_eq, ← ih]
      cases written : write? instruction with
      | none => rw [List.filterMap_cons_none written, Option.bind_none]
      | some write =>
          rw [List.filterMap_cons_some written, Keyed.lookup_cons_eq, Option.bind_some]
          by_cases same : address = write.1
          · rw [if_pos same, if_pos same]
          · rw [if_neg same, if_neg same]

theorem lookup_held (instructions : List Instruction) (address : Nat) :
    (held instructions).lookup address = lastWrite instructions address := by
  rw [held, Keyed.lookup_assignAll, ← List.filterMap_reverse, lookup_filterMap_write?]
  rfl

theorem lineAt_held (instructions : List Instruction) (address : Nat) :
    lineAt (held instructions) address =
      (lastWrite instructions address).elim (.error (.gap address)) .ok := by
  rw [lineAt, lookup_held]
  cases lastWrite instructions address with
  | none => rfl
  | some line => rfl

theorem mem_held_iff : address ∈ (held instructions).map Prod.fst ↔
    lastWrite instructions address ≠ none := by
  rw [← lookup_held, Keyed.lookup_ne_none_iff]

/-- There are as many lines as addresses below their number, so that none lies above. -/
theorem contiguous_of_full
    (full : ∀ below < (held instructions).length, lastWrite instructions below ≠ none) :
    Contiguous (lastWrite instructions) (held instructions).length := by
  have inside : List.range (held instructions).length ⊆ (held instructions).map Prod.fst := by
    intro below member
    exact mem_held_iff.mpr (full below (List.mem_range.mp member))
  have same : (List.range (held instructions).length).Perm ((held instructions).map Prod.fst) := by
    apply (List.subperm_of_subset List.nodup_range inside).perm_of_length_le
    exact Nat.le_of_eq ((List.length_map _).trans List.length_range.symm)
  intro address
  rw [← mem_held_iff, ← same.mem_iff, List.mem_range]

/-- There are more lines than addresses below one that is missing among them, so that one lies above. -/
theorem exists_above (below : address < (held instructions).length)
    (missing : lastWrite instructions address = none) :
    ∃ higher, address < higher ∧ lastWrite instructions higher ≠ none := by
  by_contra none_above
  have inside : (held instructions).map Prod.fst ⊆ List.range address := by
    intro other member
    have there := mem_held_iff.mp member
    apply List.mem_range.mpr
    rcases Nat.lt_trichotomy other address with less | rfl | greater
    · exact less
    · exact absurd missing there
    · exact absurd ⟨other, greater, there⟩ none_above
  have fewer := (List.subperm_of_subset (Keyed.nodup_assignAll _) inside).length_le
  rw [List.length_map, List.length_range] at fewer
  exact absurd below (Nat.not_lt.mpr fewer)

theorem getElem?_lines {lines : List Nat}
    (found : (List.range (held instructions).length).mapM (lineAt (held instructions)) = .ok lines)
    (address : Nat) : lines[address]? = lastWrite instructions address := by
  have each (i : Nat) := getElem?_of_mapM found i
  have written (i : Nat) (below : i < (held instructions).length) :
      lines[i]? = lastWrite instructions i ∧ lastWrite instructions i ≠ none := by
    have here := each i
    rw [List.getElem?_range below, Option.map_some, lineAt_held] at here
    obtain ⟨line, there, line_eq⟩ := Option.map_eq_some_iff.mp here.symm
    cases last : lastWrite instructions i with
    | none =>
        rw [last] at line_eq
        cases line_eq
    | some other =>
        rw [last] at line_eq
        cases line_eq
        exact ⟨there, Option.some_ne_none _⟩
  have contiguous := contiguous_of_full fun below less => (written below less).2
  by_cases below : address < (held instructions).length
  · exact (written address below).1
  · have beyond : lastWrite instructions address = none :=
      Classical.not_not.mp (mt (contiguous address).mp below)
    have outside := each address
    rw [List.getElem?_eq_none (by rw [List.length_range]; exact Nat.not_lt.mp below)] at outside
    rw [beyond]
    exact Option.map_eq_none_iff.mp outside.symm

theorem wordOf_eq_ok_iff {line : Nat} {word : Word} :
    wordOf line = .ok word ↔ Word.decode line = .ok word := by
  rw [wordOf]
  cases Word.decode line <;> simp [Except.mapError]

theorem wordOf_eq_error_iff {line : Nat} {failure : Failure} : wordOf line = .error failure ↔
    ∃ fault, failure = .fault fault ∧ Word.decode line = .error fault := by
  rw [wordOf]
  cases Word.decode line <;> simp [Except.mapError, eq_comm]

theorem outcome_ofInstructions (instructions : List Instruction) :
    Outcome (lastWrite instructions) (ofInstructions instructions) := by
  rw [ofInstructions]
  cases found : (List.range (held instructions).length).mapM (lineAt (held instructions)) with
  | error failure =>
      obtain ⟨i, address, at_index, fails, done⟩ := exists_getElem?_of_mapM found
      obtain ⟨below, rfl⟩ := List.getElem?_eq_some_iff.mp at_index
      rw [List.length_range] at below
      rw [List.getElem_range, lineAt_held] at fails
      have lower : ∀ j < i, lastWrite instructions j ≠ none := by
        intro j less none
        obtain ⟨line, found⟩ := done j less j (List.getElem?_range (Nat.lt_trans less below))
        rw [lineAt_held, none] at found
        cases found
      cases missing : lastWrite instructions i with
      | some line =>
          rw [missing] at fails
          cases fails
      | none =>
          rw [missing] at fails
          cases fails
          obtain ⟨higher, above, there⟩ := exists_above below missing
          exact .gap missing lower above there
  | ok lines =>
      have last := getElem?_lines found
      have contiguous : Contiguous (lastWrite instructions) lines.length := by
        intro address
        rw [← last, ne_eq, List.getElem?_eq_none_iff, Nat.not_le]
      change Outcome _ (lines.mapM wordOf)
      cases decoded : lines.mapM wordOf with
      | ok words =>
          apply Outcome.words
          intro address
          have here := getElem?_of_mapM decoded address
          rw [last] at here
          cases written : lastWrite instructions address with
          | none =>
              rw [written] at here
              have nothing : words[address]? = none := Option.map_eq_none_iff.mp here.symm
              rw [nothing]
              rfl
          | some line =>
              rw [written] at here
              obtain ⟨word, there, read⟩ := Option.map_eq_some_iff.mp here.symm
              rw [there, Option.map_some, Option.map_some, wordOf_eq_ok_iff.mp read.symm]
      | error failure =>
          obtain ⟨address, line, there, fails, done⟩ := exists_getElem?_of_mapM decoded
          obtain ⟨fault, rfl, refused⟩ := wordOf_eq_error_iff.mp fails
          rw [last] at there
          apply Outcome.invalid contiguous ⟨line, there, refused⟩
          intro below less other ⟨line, found, refused⟩
          rw [← last] at found
          obtain ⟨word, read⟩ := done below less line found
          cases refused.symm.trans (wordOf_eq_ok_iff.mp read)

theorem ofInstruction_write {operand : UInt32} (small : operand.toNat < 2 ^ 16)
    (high middle low : UInt32) : Command.ofInstruction ⟨1, 0, 1, [operand, high, middle, low]⟩ =
      .ok (.writeSequencerMemory operand.toUInt16 (lineOfWords high middle low)) := by
  change Command.ofWords .acquisition 0 1 [operand, high, middle, low] = _
  rw [Command.ofWords_writeSequencerMemory, Command.addressOperand_of_lt small]
  rfl

theorem ofInstruction_write_iff {instruction : Instruction} {target : UInt16} {line : Nat} :
    Command.ofInstruction instruction = .ok (.writeSequencerMemory target line) ↔
      ∃ operand high middle low, instruction = ⟨1, 0, 1, [operand, high, middle, low]⟩ ∧
        operand.toNat = target.toNat ∧ lineOfWords high middle low = line := by
  constructor
  · intro known
    have fits := Command.fits_of_ofInstruction known
    obtain ⟨module, submodule, operation, words⟩ := instruction
    obtain ⟨rfl, rfl, rfl, length_eq, addresses⟩ := fits
    match words, length_eq, addresses with
    | [operand, high, middle, low], _, addresses =>
        have small : operand.toNat < 2 ^ 16 := addresses operand List.mem_cons_self
        have read := (ofInstruction_write small high middle low).symm.trans known
        cases read
        refine ⟨operand, high, middle, low, rfl, ?_, rfl⟩
        rw [UInt32.toNat_toUInt16, Nat.mod_eq_of_lt small]
  · rintro ⟨operand, high, middle, low, rfl, same, rfl⟩
    have small : operand.toNat < 2 ^ 16 := same ▸ target.toNat_lt
    have target_eq : operand.toUInt16 = target := by
      rw [← UInt16.toNat_inj, UInt32.toNat_toUInt16, Nat.mod_eq_of_lt small, same]
    rw [ofInstruction_write small, target_eq]

theorem lineTo_eq_some_iff {instruction : Instruction} {address line : Nat} :
    lineTo address instruction = some line ↔ ∃ target : UInt16, target.toNat = address ∧
      Command.ofInstruction instruction = .ok (.writeSequencerMemory target line) := by
  constructor
  · intro written
    unfold lineTo at written
    split at written
    · next target other known =>
        split at written
        · next same =>
            cases written
            exact ⟨target, same, known⟩
        · cases written
    · cases written
  · rintro ⟨target, rfl, known⟩
    rw [lineTo, known]
    exact if_pos rfl

theorem lineTo_eq_some_iff_operands (instruction : Instruction) (address line : Nat) :
    lineTo address instruction = some line ↔
      ∃ operand high middle low, instruction = ⟨1, 0, 1, [operand, high, middle, low]⟩ ∧
        operand.toNat = address ∧ address < 2 ^ 16 ∧ lineOfWords high middle low = line := by
  rw [lineTo_eq_some_iff]
  constructor
  · rintro ⟨target, rfl, known⟩
    obtain ⟨operand, high, middle, low, shape, same, line_eq⟩ := ofInstruction_write_iff.mp known
    exact ⟨operand, high, middle, low, shape, same, target.toNat_lt, line_eq⟩
  · rintro ⟨operand, high, middle, low, rfl, rfl, small, rfl⟩
    refine ⟨operand.toUInt16, ?_, ofInstruction_write small high middle low⟩
    rw [UInt32.toNat_toUInt16, Nat.mod_eq_of_lt small]

theorem lastWrite_eq_some_iff (address line : Nat) : lastWrite instructions address = some line ↔
    ∃ earlier write later, instructions = earlier ++ write :: later ∧
      lineTo address write = some line ∧ ∀ other ∈ later, lineTo address other = none := by
  rw [lastWrite, List.findSome?_eq_some_iff]
  constructor
  · rintro ⟨later, write, earlier, split, written, others⟩
    have turned := List.reverse_eq_iff.mp split
    rw [List.reverse_append, List.reverse_cons, List.append_assoc, List.singleton_append] at turned
    refine ⟨earlier.reverse, write, later.reverse, turned, written, ?_⟩
    intro other member
    exact others other (List.mem_reverse.mp member)
  · rintro ⟨earlier, write, later, rfl, written, others⟩
    refine ⟨later.reverse, write, earlier.reverse, ?_, written, ?_⟩
    · rw [List.reverse_append, List.reverse_cons, List.append_assoc, List.singleton_append]
    · intro other member
      exact others other (List.mem_reverse.mp member)

theorem ofInstructions_eq_iff {result : Except Failure (List Word)} :
    ofInstructions instructions = result ↔ Outcome (lastWrite instructions) result := by
  constructor
  · rintro rfl
    exact outcome_ofInstructions instructions
  · exact (outcome_ofInstructions instructions).unique

theorem exists_words_iff : (∃ words, ofInstructions instructions = .ok words) ↔
    (∃ count, Contiguous (lastWrite instructions) count) ∧
      ∀ address fault, ¬ RefusedAt (lastWrite instructions) address fault := by
  have outcome := outcome_ofInstructions instructions
  constructor
  · rintro ⟨words, same⟩
    rw [same] at outcome
    cases outcome with
    | words decodes =>
        exact ⟨⟨_, contiguous_of_decodes decodes⟩, fun _ => not_refusedAt_of_decodes decodes⟩
  · rintro ⟨⟨count, contiguous⟩, accepted⟩
    cases ended : ofInstructions instructions with
    | ok words => exact ⟨words, rfl⟩
    | error failure =>
        rw [ended] at outcome
        cases outcome with
        | gap missing _ above there => exact absurd (contiguous.eq_none missing above) there
        | invalid _ refused => exact absurd refused (accepted _ _)

/-- How a memory image follows from the last writes of instructions. -/
structure FollowsLastWrites (instructions : List Instruction) : Prop where
  writes : ∀ instruction address line, lineTo address instruction = some line ↔
    ∃ operand high middle low, instruction = ⟨1, 0, 1, [operand, high, middle, low]⟩ ∧
      operand.toNat = address ∧ address < 2 ^ 16 ∧ lineOfWords high middle low = line
  last : ∀ address line, lastWrite instructions address = some line ↔
    ∃ earlier write later, instructions = earlier ++ write :: later ∧
      lineTo address write = some line ∧ ∀ other ∈ later, lineTo address other = none
  outcome : ∀ result, ofInstructions instructions = result ↔ Outcome (lastWrite instructions) result
  overwritten : ∀ others, lastWrite others = lastWrite instructions →
    ofInstructions others = ofInstructions instructions
  succeeds : (∃ words, ofInstructions instructions = .ok words) ↔
    (∃ count, Contiguous (lastWrite instructions) count) ∧
      ∀ address fault, ¬ RefusedAt (lastWrite instructions) address fault

/-- Nothing but the last write to each address matters to a memory image, and of the addresses that are
missing and the lines that are no words only the smallest. -/
theorem ofInstructions_exact (instructions : List Instruction) : FollowsLastWrites instructions where
  writes := lineTo_eq_some_iff_operands
  last := lastWrite_eq_some_iff
  outcome _ := ofInstructions_eq_iff
  overwritten := by
    intro others same
    rw [ofInstructions_eq_iff, same, ← ofInstructions_eq_iff]
  succeeds := exists_words_iff

end MemoryImage

end CcdController
