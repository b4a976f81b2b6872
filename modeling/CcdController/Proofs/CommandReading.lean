import CcdController.Proofs.LineCodec
import CcdController.Proofs.WordReading

namespace CcdController

namespace Instruction

def ofEnvelope (module header : UInt32) (operands : List Operand) : Instruction where
  module
  submodule := UInt16.ofNat (header.toNat >>> 16)
  operation := UInt16.ofNat header.toNat
  operands := operands.flatMap Operand.words

theorem read_envelope (order : ByteOrder) (module header : UInt32) {operands : List Operand}
    (fits : 1 + (operands.flatMap Operand.words).length < 2 ^ 32) (tail : List UInt8) :
    read order (envelope order module header operands ++ tail) =
      .ok (ofEnvelope module header operands, tail) := by
  have counted : (UInt32.ofNat (1 + (operands.flatMap Operand.words).length)).toNat =
      1 + (operands.flatMap Operand.words).length := by
    rw [UInt32.toNat_ofNat', Nat.mod_eq_of_lt fits]
  have some : UInt32.ofNat (1 + (operands.flatMap Operand.words).length) ≠ 0 := by
    intro zero
    rw [zero, UInt32.toNat_zero] at counted
    omega
  have behind : (UInt32.ofNat (1 + (operands.flatMap Operand.words).length)).toNat - 1 =
      (operands.flatMap Operand.words).length := by
    rw [counted, Nat.add_sub_cancel_left]
  have operandsRead := order.readWords_wordsBytes (operands.flatMap Operand.words) tail
  rw [ByteOrder.wordsBytes] at operandsRead
  simp only [read, readBody, envelope, envelopeWords, ByteOrder.wordsBytes, List.flatMap_cons,
    List.append_assoc, ByteOrder.readWord_bytes, bind, Except.bind, ne_eq, not_true_eq_false,
    if_false, if_neg some, behind, operandsRead]
  rfl

theorem readAll_of_read {order : ByteOrder} {bytes rest : List UInt8} {instruction : Instruction}
    (first : read order bytes = .ok (instruction, rest)) :
    readAll order bytes = (readAll order rest).map (instruction :: ·) := by
  have some : bytes ≠ [] := by
    intro empty
    subst empty
    cases first
  rw [readAll, if_neg some]
  split
  · next refusal refused =>
      rw [first] at refused
      cases refused
  · next other left step =>
      rw [first] at step
      obtain ⟨rfl, rfl⟩ := Prod.mk.inj (Except.ok.inj step)
      rfl

end Instruction

theorem ofNat_headerWord (submodule operation : UInt16) :
    UInt16.ofNat ((headerWord submodule operation).toNat >>> 16) = submodule ∧
      UInt16.ofNat (headerWord submodule operation).toNat = operation := by
  have high := submodule.toNat_lt
  have low := operation.toNat_lt
  simp only [← UInt16.toNat_inj, headerWord, UInt16.toNat_ofNat', UInt32.toNat_ofNat',
    Nat.reducePow] at *
  omega

namespace Command

def instruction (command : Command) : Instruction where
  module := command.codes.module.index
  submodule := command.codes.submodule
  operation := command.codes.operation
  operands := command.operands.flatMap Operand.words

/-- What is left of a command on its way: a memory line has 96 bits. -/
def received : Command → Command
  | writeSequencerMemory address line => writeSequencerMemory address (line % 2 ^ 96)
  | command => command

theorem length_operands (command : Command) :
    (command.operands.flatMap Operand.words).length ≤ 4 := by
  cases command <;> simp [operands, Operand.words, lineWords]

theorem read_encode (order : ByteOrder) (command : Command) (tail : List UInt8) :
    Instruction.read order (command.encode order ++ tail) = .ok (command.instruction, tail) := by
  have few := command.length_operands
  have fits : 1 + (command.operands.flatMap Operand.words).length < 2 ^ 32 := by omega
  have there := Instruction.read_envelope order command.codes.module.index command.header fits tail
  obtain ⟨high, low⟩ := ofNat_headerWord command.codes.submodule command.codes.operation
  rw [encode, there, Instruction.ofEnvelope, header, high, low]
  rfl

theorem readAll_encode (order : ByteOrder) (command : Command) :
    Instruction.readAll order (command.encode order) = .ok [command.instruction] := by
  have one := command.read_encode order []
  rw [List.append_nil] at one
  rw [Instruction.readAll_of_read one, Instruction.readAll, if_pos rfl]
  rfl

theorem addressOperand_toUInt32 (address : UInt16) :
    addressOperand address.toUInt32 = .ok address := by
  have bound : address.toUInt32.toNat < UInt16.size := by
    rw [UInt16.toNat_toUInt32]
    exact address.toNat_lt
  rw [addressOperand, if_pos bound, UInt16.toUInt16_toUInt32]

theorem flagWord_ne_zero (flag : Bool) : (flagWord flag != 0) = flag := by
  cases flag <;> rfl

theorem ofWords_transfer (transfer : SpiTransfer) :
    SpiTransfer.ofWords transfer.controlWord transfer.data = transfer := by
  have device := transfer.device.toNat_lt
  have polarity := transfer.polarity.toNat_lt
  have nbits := transfer.nbits.toNat_lt
  cases transfer with
  | mk device polarity nbits data =>
      simp only [SpiTransfer.ofWords, SpiTransfer.controlWord, SpiTransfer.mk.injEq, and_true,
        ← UInt8.toNat_inj, UInt8.toNat_ofNat', UInt32.toNat_ofNat', Nat.reducePow] at *
      omega

theorem pinsOfWords_halves (pins : Pins) :
    pinsOfWords (highHalf ⟨pins⟩) (lowHalf ⟨pins⟩) = pins := by
  have bound := pins.isLt
  apply BitVec.eq_of_toNat_eq
  simp only [pinsOfWords, highHalf, lowHalf, BitVec.toNat_ofNat, UInt32.toNat_ofNat',
    UInt64.toNat, Nat.reducePow] at *
  omega

theorem ofInstruction_instruction (command : Command) :
    ofInstruction command.instruction = .ok command.received := by
  cases command with
  | powerOn on =>
      change Except.ok (powerOn (flagWord on != 0)) = _
      rw [flagWord_ne_zero]
      rfl
  | spiVideo transfer =>
      change Except.ok (spiVideo (.ofWords transfer.controlWord transfer.data)) = _
      rw [ofWords_transfer]
      rfl
  | spiBiasClocks transfer =>
      change Except.ok (spiBiasClocks (.ofWords transfer.controlWord transfer.data)) = _
      rw [ofWords_transfer]
      rfl
  | getImage stopCleaning readOut openShutter =>
      change (do
        let stop ← addressOperand stopCleaning.toUInt32
        let readOut ← addressOperand readOut.toUInt32
        return getImage stop readOut (flagWord openShutter != 0)) = _
      rw [addressOperand_toUInt32, addressOperand_toUInt32, flagWord_ne_zero]
      rfl
  | writeSequencerMemory address line =>
      change (do
        let address ← addressOperand address.toUInt32
        return writeSequencerMemory address (lineOfWords (UInt32.ofNat (line >>> 64))
          (UInt32.ofNat (line >>> 32)) (UInt32.ofNat line))) = _
      rw [addressOperand_toUInt32, lineOfWords_lineWords]
      rfl
  | testSequencerOn holdTime pins =>
      change Except.ok (testSequencerOn holdTime (pinsOfWords (highHalf ⟨pins⟩) (lowHalf ⟨pins⟩))) = _
      rw [pinsOfWords_halves]
      rfl
  | getPixels channel => cases channel <;> rfl
  | getData channel samples => cases channel <;> rfl
  | resetDacs => rfl
  | enableSequencer => rfl
  | disableSequencer => rfl
  | writeExposureTime ms => rfl
  | testSequencerOff => rfl

end Command

end CcdController
