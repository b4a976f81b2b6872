import CcdController.Proofs.DumpGrammar
import CcdController.Proofs.EnvelopeReading

/-!
Instructions of hex dumps. A line is read where it is nothing but instructions, one encoded after the
other, and a dump where all its lines are. Otherwise the first instruction that cannot be read decides
about the whole dump, by whether its line ends too early or holds something else there.
-/
namespace CcdController

namespace Instruction

/-- The bytes are the encodings of the instructions, in order. Words are counted in 32 bits. -/
structure Fills (order : ByteOrder) (group : List Instruction) (bytes : List UInt8) : Prop where
  counted : ∀ instruction ∈ group, 1 + instruction.operands.length < 2 ^ 32
  encoded : group.flatMap (encode order) = bytes

def Corrupt (order : ByteOrder) (bytes : List UInt8) : Prop :=
  (∃ first, wordAt order bytes 0 = some first ∧ first ≠ marker) ∨
  wordAt order bytes 0 = some marker ∧ wordAt order bytes 8 = some 0

inductive Refuses (order : ByteOrder) (bytes : List UInt8) : Fault → Prop
  | cutShort (cut : CutShort order bytes) : Refuses order bytes .unexpectedEnd
  | corrupt (corrupt : Corrupt order bytes) : Refuses order bytes (.invalidData .instruction)

end Instruction

def Refusal.fault : Refusal → Fault
  | incomplete _ => .unexpectedEnd
  | _ => .invalidData .instruction

namespace Instruction

variable {order : ByteOrder} {bytes rest : List UInt8} {group : List Instruction}

theorem length_encode (instruction : Instruction) :
    (instruction.encode order).length = 4 * (4 + instruction.operands.length) := by
  have words : (envelopeWords instruction.module instruction.header
      (instruction.operands.map Operand.word)).length = 4 + instruction.operands.length := by
    simp only [envelopeWords, Operand.flatMap_words_word, List.length_cons]
    omega
  rw [encode, envelope, ByteOrder.length_wordsBytes, words]

theorem corrupt_wrongMarker {first : UInt32} (wrong : first ≠ marker) :
    Corrupt order (order.bytes first ++ rest) :=
  .inl ⟨first, wordAt_bytes order first rest, wrong⟩

theorem corrupt_noWords (module : UInt32) :
    Corrupt order (order.wordsBytes [marker, module, 0] ++ rest) := by
  apply Or.inr
  constructor
  · exact @wordAt_wordsBytes order [marker, module, 0] 0 marker rfl rest
  · exact @wordAt_wordsBytes order [marker, module, 0] 2 0 rfl rest

theorem Corrupt.not_cutShort (corrupt : Corrupt order bytes) : ¬ CutShort order bytes := by
  have enough {position : Nat} {word : UInt32} (found : wordAt order bytes position = some word) :
      position + 4 ≤ bytes.length := by
    apply Nat.not_lt.mp
    intro short
    rw [wordAt_eq_none_iff.mpr short] at found
    cases found
  intro cut
  rcases corrupt with ⟨first, found, wrong⟩ | ⟨-, none⟩
  · have four := enough found
    rw [CutShort, found] at cut
    rcases cut with short | ⟨marked, -⟩ | ⟨marked, -⟩
    · omega
    · exact wrong (Option.some.inj marked)
    · exact wrong (Option.some.inj marked)
  · have twelve := enough none
    rw [CutShort, none] at cut
    rcases cut with short | ⟨-, short⟩ | ⟨-, count, same, nonzero, -⟩
    · omega
    · omega
    · exact nonzero (Option.some.inj same).symm

theorem refuses_of_read {refusal : Refusal} (refused : read order bytes = .error refusal) :
    Refuses order bytes refusal.fault := by
  cases reads_iff.mpr refused with
  | noMarker short => exact .cutShort (.inl short)
  | wrongMarker wrong => exact .corrupt (corrupt_wrongMarker wrong)
  | noCount short => exact .cutShort (cutShort_marker short)
  | noWords => exact .corrupt (corrupt_noWords _)
  | noBody short => exact .cutShort ((cutShort_count_iff _ _).mpr short)

theorem not_corrupt_of_read {instruction : Instruction}
    (done : read order bytes = .ok (instruction, rest)) : ¬ Corrupt order bytes := by
  intro corrupt
  cases reads_iff.mpr done with
  | @whole module count header operands rest counted =>
      have first : wordAt order (order.wordsBytes [marker, module, count] ++
          (order.wordsBytes (header :: operands) ++ rest)) 0 = some marker :=
        @wordAt_wordsBytes order [marker, module, count] 0 marker rfl _
      have third : wordAt order (order.wordsBytes [marker, module, count] ++
          (order.wordsBytes (header :: operands) ++ rest)) 8 = some count :=
        @wordAt_wordsBytes order [marker, module, count] 2 count rfl _
      rw [Corrupt, first, third] at corrupt
      rcases corrupt with ⟨other, same, wrong⟩ | ⟨-, none⟩
      · exact wrong (Option.some.inj same).symm
      · exact ne_zero_of_toNat (by omega) (Option.some.inj none)

theorem Refuses.unique {fault other : Fault} (one : Refuses order bytes fault)
    (two : Refuses order bytes other) : fault = other := by
  cases one with
  | cutShort cut =>
      cases two with
      | cutShort => rfl
      | corrupt corrupt => exact absurd cut corrupt.not_cutShort
  | corrupt corrupt =>
      cases two with
      | cutShort cut => exact absurd cut corrupt.not_cutShort
      | corrupt => rfl

/-- Nothing is read exactly from bytes that are cut short or corrupt. -/
theorem refuses_iff {fault : Fault} : Refuses order bytes fault ↔
    ∃ refusal, read order bytes = .error refusal ∧ refusal.fault = fault := by
  constructor
  · intro refuses
    rcases came : read order bytes with refusal | ⟨instruction, rest⟩
    · exact ⟨refusal, rfl, (refuses_of_read came).unique refuses⟩
    · cases refuses with
      | cutShort cut =>
          have refused := read_incomplete_iff.mpr ⟨rfl, cut⟩
          rw [came] at refused
          cases refused
      | corrupt corrupt => exact absurd corrupt (not_corrupt_of_read came)
  · rintro ⟨refusal, refused, rfl⟩
    exact refuses_of_read refused

theorem Fills.nil : Fills order [] [] := ⟨fun _ member => absurd member List.not_mem_nil, rfl⟩

theorem Fills.cons {instruction : Instruction} (done : read order bytes = .ok (instruction, rest))
    (fills : Fills order group rest) : Fills order (instruction :: group) bytes := by
  obtain ⟨fits, split⟩ := read_ok_iff.mp done
  constructor
  · exact List.forall_mem_cons.mpr ⟨fits, fills.counted⟩
  · rw [List.flatMap_cons, fills.encoded, split]

theorem readAll_append (fills : Fills order group bytes) (rest : List UInt8) :
    readAll order (bytes ++ rest) = (readAll order rest).map (group ++ ·) := by
  obtain ⟨counted, rfl⟩ := fills
  induction group with
  | nil =>
      rw [List.flatMap_nil, List.nil_append]
      cases readAll order rest <;> rfl
  | cons instruction group ih =>
      obtain ⟨first, others⟩ := List.forall_mem_cons.mp counted
      rw [List.flatMap_cons, List.append_assoc, readAll_of_read (read_encode_of_fits first _),
        ih others]
      cases readAll order rest <;> rfl

theorem readAll_nil : readAll order [] = .ok [] := by
  rw [readAll, if_pos rfl]

theorem readAll_of_refused {refusal : Refusal} (some : bytes ≠ [])
    (refused : read order bytes = .error refusal) : readAll order bytes = .error refusal := by
  rw [readAll, if_neg some]
  split
  · next other came =>
      rw [refused] at came
      exact congrArg Except.error (Except.error.inj came).symm
  · next came =>
      rw [refused] at came
      cases came

/-- How reading a line ends: it is used up, or something in it is refused. -/
theorem readAll_cases (order : ByteOrder) (bytes : List UInt8) :
    (∃ group, readAll order bytes = .ok group ∧ Fills order group bytes) ∨
    ∃ group front rest refusal, bytes = front ++ rest ∧ Fills order group front ∧ rest ≠ [] ∧
      read order rest = .error refusal ∧ readAll order bytes = .error refusal := by
  fun_induction readAll order bytes with
  | case1 => exact .inl ⟨[], rfl, .nil⟩
  | case2 bytes some refusal refused =>
      exact .inr ⟨[], [], bytes, refusal, rfl, .nil, some, refused, rfl⟩
  | case3 bytes some instruction behind done ih =>
      rcases ih with ⟨group, all, fills⟩ | ⟨group, front, rest, refusal, split, fills, some, stop⟩
      · rw [all]
        exact .inl ⟨instruction :: group, rfl, fills.cons done⟩
      · obtain ⟨fits, whole⟩ := read_ok_iff.mp done
        have first : read order (instruction.encode order ++ front) = .ok (instruction, front) :=
          read_encode_of_fits fits front
        rw [stop.2]
        refine .inr ⟨instruction :: group, instruction.encode order ++ front, rest, refusal, ?_,
          fills.cons first, some, stop.1, rfl⟩
        rw [whole, split, List.append_assoc]

theorem readAll_eq_ok_iff : readAll order bytes = .ok group ↔ Fills order group bytes := by
  constructor
  · intro done
    rcases readAll_cases order bytes with ⟨other, all, fills⟩ | ⟨_, _, _, _, -, -, -, -, failed⟩
    · rw [done] at all
      cases all
      exact fills
    · rw [done] at failed
      cases failed
  · intro fills
    have all := readAll_append fills []
    rw [List.append_nil, readAll_nil] at all
    rw [all]
    exact congrArg Except.ok (List.append_nil group)

theorem readAll_eq_error_iff {refusal : Refusal} : readAll order bytes = .error refusal ↔
    ∃ group front rest, bytes = front ++ rest ∧ Fills order group front ∧ rest ≠ [] ∧
      read order rest = .error refusal := by
  constructor
  · intro failed
    rcases readAll_cases order bytes with ⟨other, all, -⟩ | ⟨group, front, rest, other, parts⟩
    · rw [failed] at all
      cases all
    · obtain ⟨split, fills, some, refused, stop⟩ := parts
      rw [failed] at stop
      cases stop
      exact ⟨group, front, rest, split, fills, some, refused⟩
  · rintro ⟨group, front, rest, rfl, fills, some, refused⟩
    rw [readAll_append fills, readAll_of_refused some refused]
    rfl

end Instruction

namespace Dump

open Instruction

variable {order : ByteOrder} {bytes : List UInt8} {group : List Instruction}

theorem lineInstructions_eq_ok_iff :
    lineInstructions order bytes = .ok group ↔ Fills order group bytes := by
  rw [← readAll_eq_ok_iff, lineInstructions]
  cases readAll order bytes with
  | ok found => simp
  | error refusal => cases refusal <;> simp

theorem lineInstructions_eq_error_iff {fault : Fault} : lineInstructions order bytes = .error fault ↔
    ∃ group front rest, bytes = front ++ rest ∧ Fills order group front ∧ rest ≠ [] ∧
      Refuses order rest fault := by
  have mapped : lineInstructions order bytes = .error fault ↔
      ∃ refusal, readAll order bytes = .error refusal ∧ refusal.fault = fault := by
    rw [lineInstructions]
    cases readAll order bytes with
    | ok found => simp
    | error refusal => cases refusal <;> simp [Refusal.fault]
  rw [mapped]
  constructor
  · rintro ⟨refusal, failed, same⟩
    obtain ⟨group, front, rest, split, fills, some, refused⟩ := readAll_eq_error_iff.mp failed
    exact ⟨group, front, rest, split, fills, some, refuses_iff.mpr ⟨refusal, refused, same⟩⟩
  · rintro ⟨group, front, rest, split, fills, some, refuses⟩
    obtain ⟨refusal, refused, same⟩ := refuses_iff.mp refuses
    exact ⟨refusal, readAll_eq_error_iff.mpr ⟨group, front, rest, split, fills, some, refused⟩, same⟩

structure HoldsGroup (order : ByteOrder) (line : List UInt8) (group : List Instruction) : Prop where
  some : group ≠ []
  fills : Fills order group line

/-- What is left of a line behind the instructions that can be read, and all earlier lines hold nothing
else than instructions. -/
def LeavesUnread (order : ByteOrder) (lines : List (List UInt8)) (rest : List UInt8) : Prop :=
  rest ≠ [] ∧ ∃ earlier front later group, lines = earlier ++ (front ++ rest) :: later ∧
    (∀ line ∈ earlier, ∃ group, HoldsGroup order line group) ∧ Fills order group front

structure ReadsGroups (order : ByteOrder) (lines : List (List UInt8))
    (result : Except Fault (List Instruction)) : Prop where
  ok_iff : ∀ found, result = .ok found ↔
    ∃ groups, found = groups.flatten ∧ List.Forall₂ (HoldsGroup order) lines groups
  ok_iff_of_short : (∀ line ∈ lines, line.length < 2 ^ 34) → ∀ found, result = .ok found ↔
    ∃ groups, found = groups.flatten ∧
      List.Forall₂ (fun line group => group ≠ [] ∧ group.flatMap (encode order) = line) lines groups
  error_iff : ∀ fault, result = .error fault ↔
    ∃ rest, LeavesUnread order lines rest ∧ Refuses order rest fault

theorem HexRuns.nonempty {text : List Char} {runs : List (List Char)} (hexRuns : HexRuns text runs) :
    ∀ run ∈ runs, run ≠ [] := by
  induction hexRuns with
  | none => exact fun run member => absurd member List.not_mem_nil
  | run _ nonempty _ _ _ ih => exact List.forall_mem_cons.mpr ⟨nonempty, ih⟩

theorem ne_nil_of_lineHolds {line : List Char} (holds : LineHolds order line bytes) : bytes ≠ [] := by
  obtain ⟨runs, words, form, spells, rfl⟩ := holds
  obtain ⟨body, -, -, -, hexRuns⟩ := form.body
  obtain ⟨run, others, rfl⟩ := List.exists_cons_of_ne_nil form.pieces_eq.2
  obtain ⟨word, later, written, -, rfl⟩ := List.forall₂_cons_left_iff.mp spells
  have some : word ≠ [] := by
    rintro rfl
    cases written
    exact hexRuns.nonempty [] List.mem_cons_self rfl
  rw [← flatMap_turned, List.flatMap_cons]
  exact List.append_ne_nil_of_left_ne_nil (turned_ne_nil some) _

theorem ne_nil_of_parse {text : String} {lines : List (List UInt8)}
    (parsed : parse order text = .ok lines) : ∀ line ∈ lines, line ≠ [] := by
  intro line member
  have holds := parse_eq_ok_iff.mp parsed
  obtain ⟨content, held⟩ := exists_of_forall₂ holds.flip line member
  exact ne_nil_of_lineHolds held

theorem holdsGroup_iff {line : List UInt8} (some : line ≠ []) :
    HoldsGroup order line group ↔ lineInstructions order line = .ok group := by
  rw [lineInstructions_eq_ok_iff]
  constructor
  · exact HoldsGroup.fills
  · intro fills
    refine ⟨?_, fills⟩
    rintro rfl
    exact some fills.encoded.symm

theorem holdsGroup_iff_of_short {line : List UInt8} (short : line.length < 2 ^ 34) :
    HoldsGroup order line group ↔ group ≠ [] ∧ group.flatMap (encode order) = line := by
  constructor
  · intro holds
    exact ⟨holds.some, holds.fills.encoded⟩
  · rintro ⟨some, encoded⟩
    refine ⟨some, ?_, encoded⟩
    intro instruction member
    have within : (instruction.encode order).length ≤ line.length := by
      rw [← encoded, List.flatMap_def]
      exact (List.sublist_flatten_of_mem (List.mem_map_of_mem member)).length_le
    rw [length_encode] at within
    omega

theorem instructions_of_parse {text : String} {lines : List (List UInt8)}
    (parsed : parse order text = .ok lines) :
    instructions order text = (lines.mapM (lineInstructions order)).map List.flatten := by
  rw [instructions, parsed]
  cases traversed : lines.mapM (lineInstructions order) with
  | error fault => simp only [bind, Except.bind, traversed, Except.map]
  | ok groups => simp only [bind, Except.bind, traversed, Except.map, pure, Except.pure]

theorem readsGroups {lines : List (List UInt8)} (filled : ∀ line ∈ lines, line ≠ []) :
    ReadsGroups order lines ((lines.mapM (lineInstructions order)).map List.flatten) := by
  have ok_iff : ∀ found, (lines.mapM (lineInstructions order)).map List.flatten = .ok found ↔
      ∃ groups, found = groups.flatten ∧ List.Forall₂ (HoldsGroup order) lines groups := by
    intro found
    have each : ∀ groups, lines.mapM (lineInstructions order) = .ok groups ↔
        List.Forall₂ (HoldsGroup order) lines groups := by
      intro groups
      rw [mapM_eq_ok_iff]
      exact forall₂_congr_of_mem fun line member _ => (holdsGroup_iff (filled line member)).symm
    simp only [← each]
    cases lines.mapM (lineInstructions order) with
    | error fault => simp [Except.map]
    | ok groups => simp [Except.map, eq_comm]
  constructor
  · exact ok_iff
  · intro short found
    rw [ok_iff]
    apply exists_congr
    intro groups
    apply and_congr_right
    intro _
    exact forall₂_congr_of_mem fun line member _ => holdsGroup_iff_of_short (short line member)
  · intro fault
    have failed : (lines.mapM (lineInstructions order)).map List.flatten = .error fault ↔
        lines.mapM (lineInstructions order) = .error fault := by
      cases lines.mapM (lineInstructions order) <;> simp [Except.map]
    rw [failed, mapM_eq_error_iff]
    constructor
    · rintro ⟨earlier, line, later, rfl, done, fails⟩
      obtain ⟨group, front, rest, rfl, fills, some, refuses⟩ := lineInstructions_eq_error_iff.mp fails
      refine ⟨rest, ⟨some, earlier, front, later, group, rfl, ?_, fills⟩, refuses⟩
      intro before member
      obtain ⟨read, came⟩ := done before member
      exact ⟨read, (holdsGroup_iff (filled before (List.mem_append_left _ member))).mpr came⟩
    · rintro ⟨rest, ⟨some, earlier, front, later, group, rfl, held, fills⟩, refuses⟩
      refine ⟨earlier, front ++ rest, later, rfl, ?_, ?_⟩
      · intro before member
        obtain ⟨read, holds⟩ := held before member
        exact ⟨read, lineInstructions_eq_ok_iff.mpr holds.fills⟩
      · exact lineInstructions_eq_error_iff.mpr ⟨group, front, rest, rfl, fills, some, refuses⟩

/-- A text that is no dump is refused before any instruction is looked at. Otherwise the instructions are
those that the lines hold, each line its own, and the first that cannot be read tells the fault. Every
instruction that is read takes its words off the line, which are four or more. -/
theorem instructions_byLine (order : ByteOrder) (text : String) :
    (∀ fault, parse order text = .error fault →
      fault = .invalidData .dumpLine ∧ instructions order text = .error fault) ∧
    (∀ lines, parse order text = .ok lines → ReadsGroups order lines (instructions order text)) ∧
    ∀ bytes instruction rest, read order bytes = .ok (instruction, rest) →
      bytes.length = 16 + 4 * instruction.operands.length + rest.length := by
  refine ⟨?_, ?_, ?_⟩
  · intro fault refused
    rcases parse_cases order text with failed | ⟨lines, parsed⟩
    · rw [refused] at failed
      rw [instructions, refused]
      exact ⟨Except.error.inj failed, rfl⟩
    · rw [refused] at parsed
      cases parsed
  · intro lines parsed
    rw [instructions_of_parse parsed]
    exact readsGroups (ne_nil_of_parse parsed)
  · intro bytes instruction rest done
    obtain ⟨-, rfl⟩ := read_ok_iff.mp done
    rw [List.length_append, length_encode]
    omega

end Dump

end CcdController
