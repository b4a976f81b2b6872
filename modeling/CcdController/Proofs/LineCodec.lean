import Mathlib.Algebra.GroupWithZero.Nat
import CcdController.Command
import CcdController.Word

namespace CcdController

theorem lineField_eq {line shift : Nat} {field : UInt16}
    (there : line >>> shift % 2 ^ 16 = field.toNat) : lineField line shift = field := by
  rw [lineField, ← UInt16.toNat_inj, UInt16.toNat_ofNat']
  exact there

namespace ModeHeader

variable (header : ModeHeader)

theorem encode_lt : header.encode < 2 ^ 96 := by
  have states := header.stateCount.toNat_lt
  have loops := header.loopCount.toNat_lt
  have nested := header.nestedLoopCount.toNat_lt
  have flag := header.isNested.toNat_lt
  have next := header.nextAddress.toNat_lt
  have parent := header.parentAddress.toNat_lt
  simp only [encode, headerTag, Nat.reducePow] at *
  omega

theorem lineTag_encode : lineTag header.encode = headerTag := by
  have states := header.stateCount.toNat_lt
  have loops := header.loopCount.toNat_lt
  have nested := header.nestedLoopCount.toNat_lt
  have flag := header.isNested.toNat_lt
  have next := header.nextAddress.toNat_lt
  have parent := header.parentAddress.toNat_lt
  simp only [lineTag, encode, headerTag, Nat.reducePow] at *
  omega

theorem fields_encode :
    lineField header.encode 72 = header.stateCount ∧
    lineField header.encode 56 = header.loopCount ∧
    lineField header.encode 40 = header.nestedLoopCount ∧
    header.encode >>> 32 % 256 = header.isNested.toNat ∧
    lineField header.encode 16 = header.nextAddress ∧
    lineField header.encode 0 = header.parentAddress := by
  have states := header.stateCount.toNat_lt
  have loops := header.loopCount.toNat_lt
  have nested := header.nestedLoopCount.toNat_lt
  have flag := header.isNested.toNat_lt
  have next := header.nextAddress.toNat_lt
  have parent := header.parentAddress.toNat_lt
  refine ⟨lineField_eq ?_, lineField_eq ?_, lineField_eq ?_, ?_, lineField_eq ?_, lineField_eq ?_⟩
  all_goals
    simp only [encode, headerTag, Nat.reducePow] at *
    omega

theorem decode_encode : ModeHeader.decode header.encode = .ok header := by
  have above : header.encode >>> 96 = 0 := Nat.shiftRight_eq_zero _ 96 header.encode_lt
  obtain ⟨states, loops, nested, flag, next, parent⟩ := header.fields_encode
  rw [decode, if_neg fun wrong => wrong.elim (absurd above) (absurd header.lineTag_encode),
    flag, states, loops, nested, next, parent]
  cases header with
  | mk stateCount loopCount nestedLoopCount isNested nextAddress parentAddress =>
      cases isNested <;> rfl

end ModeHeader

namespace TimingState

variable (state : TimingState)

theorem encode_lt : state.encode < 2 ^ 88 := by
  have pins := state.pins.isLt
  have holds := state.holdTime_le
  simp only [encode, stateTag, maxHoldTime, Nat.reducePow] at *
  omega

theorem decode_encode : TimingState.decode state.encode = .ok state := by
  have bound := state.encode_lt
  have holds := state.holdTime_le
  have small : state.encode >>> 96 = 0 ∧ lineTag state.encode = stateTag := by
    simp only [lineTag, stateTag, Nat.reducePow] at *
    omega
  have pins : state.encode >>> 24 = state.pins.toNat := by
    simp only [encode, stateTag, maxHoldTime, Nat.reducePow] at *
    omega
  have time : state.encode % 0x1000000 = state.holdTime := by
    simp only [encode, stateTag, maxHoldTime, Nat.reducePow] at *
    omega
  rw [decode, if_neg fun wrong => wrong.elim (absurd small.1) (absurd small.2)]
  simp only [pins, time, BitVec.ofNat_toNat, BitVec.setWidth_eq]

end TimingState

namespace Word

theorem encode_lt (word : Word) : word.encode < 2 ^ 96 := by
  cases word with
  | header header => exact header.encode_lt
  | state state => exact Nat.lt_of_lt_of_le state.encode_lt (by decide)

theorem decode_encode (word : Word) : Word.decode word.encode = .ok word := by
  have above : word.encode >>> 96 = 0 := Nat.shiftRight_eq_zero _ 96 word.encode_lt
  rw [decode, if_neg (not_not_intro above)]
  cases word with
  | header header =>
      rw [encode, if_pos header.lineTag_encode, header.decode_encode]
      rfl
  | state state =>
      have tag : lineTag state.encode = stateTag := by
        have bound := state.encode_lt
        simp only [lineTag, stateTag, Nat.reducePow] at *
        omega
      rw [encode, tag, if_neg (by decide), if_pos rfl, state.decode_encode]
      rfl

end Word

theorem lineOfWords_lineWords (line : Nat) :
    lineOfWords (UInt32.ofNat (line >>> 64)) (UInt32.ofNat (line >>> 32)) (UInt32.ofNat line) =
      line % 2 ^ 96 := by
  simp only [lineOfWords, UInt32.toNat_ofNat', Nat.reducePow]
  omega

end CcdController
