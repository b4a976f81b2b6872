import Mathlib.Algebra.GroupWithZero.Nat
import CcdController.Proofs.CommandReading

namespace CcdController

namespace Instruction

variable {order : ByteOrder}

def readMany (order : ByteOrder) :
    Nat → List UInt8 → Except Refusal (List Instruction × List UInt8)
  | 0, bytes => .ok ([], bytes)
  | count + 1, bytes => do
      let (instruction, bytes) ← read order bytes
      let (instructions, bytes) ← readMany order count bytes
      return (instruction :: instructions, bytes)

theorem readMany_succ {count : Nat} {bytes rest last : List UInt8} {instruction : Instruction}
    {instructions : List Instruction} (first : read order bytes = .ok (instruction, rest))
    (others : readMany order count rest = .ok (instructions, last)) :
    readMany order (count + 1) bytes = .ok (instruction :: instructions, last) := by
  rw [readMany, first]
  simp only [bind, Except.bind, others]
  rfl

end Instruction

namespace Command

variable (order : ByteOrder)

theorem foldl_append (commands : List Command) (buffer : List UInt8) :
    commands.foldl (append order) buffer = buffer ++ commands.flatMap (encode order) := by
  induction commands generalizing buffer with
  | nil => exact (List.append_nil buffer).symm
  | cons command commands ih =>
      rw [List.foldl_cons, ih, append, List.append_assoc, List.flatMap_cons]

theorem readMany_encode (commands : List Command) (tail : List UInt8) :
    Instruction.readMany order commands.length (commands.flatMap (encode order) ++ tail) =
      .ok (commands.map instruction, tail) := by
  induction commands with
  | nil => rfl
  | cons command commands ih =>
      rw [List.flatMap_cons, List.append_assoc, List.map_cons]
      exact Instruction.readMany_succ (command.read_encode order _) ih

theorem readAll_append_encode (commands : List Command) (tail : List UInt8) :
    Instruction.readAll order (commands.flatMap (encode order) ++ tail) =
      (Instruction.readAll order tail).map (commands.map instruction ++ ·) := by
  induction commands with
  | nil =>
      rw [List.flatMap_nil, List.nil_append]
      cases Instruction.readAll order tail <;> rfl
  | cons command commands ih =>
      rw [List.flatMap_cons, List.append_assoc,
        Instruction.readAll_of_read (command.read_encode order _), ih]
      cases Instruction.readAll order tail <;> rfl

def wordCount (command : Command) : Nat := 1 + (command.operands.map Operand.wordCount).sum

theorem length_words (command : Command) :
    1 + (command.operands.flatMap Operand.words).length = command.wordCount :=
  congrArg (1 + ·) List.length_flatMap

theorem length_encode (command : Command) :
    (command.encode order).length = 4 * (3 + command.wordCount) := by
  have words : (envelopeWords command.codes.module.index command.header command.operands).length =
      3 + (1 + (command.operands.flatMap Operand.words).length) := by
    simp only [envelopeWords, List.length_cons]
    omega
  calc (command.encode order).length
      = 4 * (envelopeWords command.codes.module.index command.header command.operands).length :=
        order.length_wordsBytes _
    _ = 4 * (3 + (1 + (command.operands.flatMap Operand.words).length)) := by rw [words]
    _ = 4 * (3 + command.wordCount) := by rw [length_words]

theorem count_encode (command : Command) : ∃ count,
    wordAt order (command.encode order) 8 = some count ∧ count.toNat = command.wordCount := by
  have there := @wordAt_wordsBytes order
    (envelopeWords command.codes.module.index command.header command.operands) 2 _ rfl []
  rw [List.append_nil] at there
  refine ⟨_, there, ?_⟩
  have few := command.length_operands
  have fits : 1 + (command.operands.flatMap Operand.words).length < 2 ^ 32 := by omega
  rw [UInt32.toNat_ofNat', Nat.mod_eq_of_lt fits]
  exact command.length_words

theorem ofInstruction_instructions (commands : List Command) :
    (commands.map instruction).map ofInstruction =
      commands.map fun command => .ok command.received := by
  rw [List.map_map]
  exact List.map_congr_left fun command _ => command.ofInstruction_instruction

/-- Commands that are appended to a buffer are read back from it in their order, whatever follows them,
and each is recognised. The length of each is told by its word count. -/
theorem stream_roundTrip (commands : List Command) (buffer tail : List UInt8) :
    ∃ bytes instructions,
      commands.foldl (append order) buffer = buffer ++ bytes ∧
      Instruction.readMany order commands.length (bytes ++ tail) = .ok (instructions, tail) ∧
      Instruction.readAll order (bytes ++ tail) =
        (Instruction.readAll order tail).map (instructions ++ ·) ∧
      instructions.map ofInstruction = commands.map (fun command => .ok command.received) ∧
      ∀ command : Command, ∃ count : UInt32,
        wordAt order (command.encode order) 8 = some count ∧
        count.toNat = 1 + (command.operands.map Operand.wordCount).sum ∧
        (command.encode order).length = 4 * (3 + count.toNat) := by
  refine ⟨commands.flatMap (encode order), commands.map instruction,
    foldl_append order commands buffer, readMany_encode order commands tail,
    readAll_append_encode order commands tail, ofInstruction_instructions commands, ?_⟩
  intro command
  obtain ⟨count, there, counted⟩ := count_encode order command
  refine ⟨count, there, counted, ?_⟩
  rw [counted]
  exact length_encode order command

end Command

end CcdController
