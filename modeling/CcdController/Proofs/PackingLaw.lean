import Mathlib.Algebra.GroupWithZero.Nat
import CcdController.Proofs.WordReading
import CcdController.Instruction

namespace CcdController

def FitsWord (signed : Bool) (value : Int) : Prop :=
  if signed then -0x80000000 ≤ value ∧ value ≤ 0x7FFFFFFF else 0 ≤ value ∧ value ≤ 0xFFFFFFFF

def beyondWord (signed : Bool) (value : Int) : Fault :=
  if signed then .outOfRange .word value (-0x80000000) 0x7FFFFFFF
  else .outOfRange .word value 0 0xFFFFFFFF

def TooLarge (bits : UInt64) (half : Nat) : Prop :=
  (2 ^ 31 ≤ bits.toNat / 2 ^ 32 ∧ half = bits.toNat / 2 ^ 32) ∨
  (bits.toNat / 2 ^ 32 < 2 ^ 31 ∧ 2 ^ 31 ≤ bits.toNat % 2 ^ 32 ∧ half = bits.toNat % 2 ^ 32)

/-- What comes of packing a number whose value modulo 2 ^ 64 is `bits`. -/
structure PacksByLaw (order : ByteOrder) (value : Int64) (signed : Bool) (bits : UInt64) : Prop where
  unsupported_iff : ∀ width other,
    order.pack value.toInt width signed = .error (.unsupportedWidth other) ↔
      (width ≠ 4 ∧ width ≠ 8) ∧ other = width
  word_ok_iff : (∃ bytes, order.pack value.toInt 4 signed = .ok bytes) ↔ FitsWord signed value.toInt
  word_error_iff : ∀ fault, order.pack value.toInt 4 signed = .error fault ↔
    ¬ FitsWord signed value.toInt ∧ fault = beyondWord signed value.toInt
  word_read : ∀ bytes, order.pack value.toInt 4 signed = .ok bytes →
    ∃ b0 b1 b2 b3, bytes = [b0, b1, b2, b3] ∧
      ((order.word b0 b1 b2 b3).toNat : Int) = value.toInt % 0x100000000
  wide_ok_iff : (∃ bytes, order.pack value.toInt 8 signed = .ok bytes) ↔
    (signed = true → bits.toNat / 2 ^ 32 < 2 ^ 31 ∧ bits.toNat % 2 ^ 32 < 2 ^ 31)
  wide_negative : signed = true → value.toInt < 0 →
    ∃ fault, order.pack value.toInt 8 signed = .error fault
  wide_error_iff : ∀ fault, order.pack value.toInt 8 signed = .error fault ↔
    signed = true ∧ ∃ half, TooLarge bits half ∧
      fault = .outOfRange .word half (-0x80000000) 0x7FFFFFFF
  wide_read : ∀ bytes, order.pack value.toInt 8 signed = .ok bytes →
    ∃ high low : UInt32, bytes = order.bytes high ++ order.bytes low ∧
      order.readWords 2 bytes = .ok ([high, low], []) ∧
      2 ^ 32 * high.toNat + low.toNat = bits.toNat
  wide_unsigned : ∀ bytes, order.pack value.toInt 8 signed = .ok bytes →
    order.pack value.toInt 8 false = .ok bytes
  wide_operand : ∀ bytes, order.pack value.toInt 8 signed = .ok bytes →
    ∀ (module header : UInt32) (before behind : List Operand),
      ((envelope order module header (before ++ .wide bits :: behind)).drop
        (4 * (4 + (before.map Operand.wordCount).sum))).take 8 = bytes

section

variable {signed : Bool} {value : Int}

theorem toNat_wordOfInt (value : Int) : ((wordOfInt value).toNat : Int) = value % 0x100000000 := by
  have small : (value % 0x100000000).toNat < 2 ^ 32 := by omega
  rw [wordOfInt, UInt32.toNat_ofNat', Nat.mod_eq_of_lt small]
  omega

theorem wordOfInt_toNat (word : UInt32) : wordOfInt word.toNat = word := by
  have bound := word.toNat_lt
  have same := toNat_wordOfInt word.toNat
  rw [← UInt32.toNat_inj]
  omega

/-- A half of a wide number is no negative number, so that a sign takes room from it. -/
theorem fitsWord_toNat (word : UInt32) :
    FitsWord signed word.toNat ↔ (signed = true → word.toNat < 2 ^ 31) := by
  have bound := word.toNat_lt
  cases signed with
  | false =>
      simp only [FitsWord, Bool.false_eq_true, if_false, false_implies, iff_true]
      omega
  | true =>
      simp only [FitsWord, if_true, forall_const]
      omega

theorem packWord_of_fits (order : ByteOrder) (fits : FitsWord signed value) :
    order.packWord value signed = .ok (order.bytes (wordOfInt value)) := by
  cases signed with
  | false =>
      have inside : ¬ (value < 0 ∨ 0xFFFFFFFF < value) := by
        simp only [FitsWord, Bool.false_eq_true, if_false] at fits
        omega
      exact if_neg inside
  | true =>
      have inside : ¬ (value < -0x80000000 ∨ 0x7FFFFFFF < value) := by
        simp only [FitsWord, if_true] at fits
        omega
      exact if_neg inside

theorem packWord_of_not_fits (order : ByteOrder) (beyond : ¬ FitsWord signed value) :
    order.packWord value signed = .error (beyondWord signed value) := by
  cases signed with
  | false =>
      have outside : value < 0 ∨ 0xFFFFFFFF < value := by
        simp only [FitsWord, Bool.false_eq_true, if_false] at beyond
        omega
      exact if_pos outside
  | true =>
      have outside : value < -0x80000000 ∨ 0x7FFFFFFF < value := by
        simp only [FitsWord, if_true] at beyond
        omega
      exact if_pos outside

theorem packWord_toNat_of_fits (order : ByteOrder) {word : UInt32}
    (fits : FitsWord signed word.toNat) :
    order.packWord word.toNat signed = .ok (order.bytes word) := by
  rw [packWord_of_fits order fits, wordOfInt_toNat]

end

theorem exists_bytes (order : ByteOrder) (word : UInt32) :
    ∃ b0 b1 b2 b3, order.bytes word = [b0, b1, b2, b3] ∧ order.word b0 b1 b2 b3 = word := by
  cases order with
  | little => exact ⟨_, _, _, _, rfl, ByteOrder.wordOf_byteAt word⟩
  | big => exact ⟨_, _, _, _, rfl, ByteOrder.wordOf_byteAt word⟩

theorem toNat_highHalf (bits : UInt64) : (highHalf bits).toNat = bits.toNat / 2 ^ 32 := by
  have bound := bits.toNat_lt
  simp only [highHalf, UInt32.toNat_ofNat', Nat.shiftRight_eq_div_pow, Nat.reducePow] at *
  omega

theorem toNat_lowHalf (bits : UInt64) : (lowHalf bits).toNat = bits.toNat % 2 ^ 32 := by
  rw [lowHalf, UInt32.toNat_ofNat']

theorem fitsWord_highHalf (bits : UInt64) (signed : Bool) :
    FitsWord signed (highHalf bits).toNat ↔ (signed = true → bits.toNat / 2 ^ 32 < 2 ^ 31) := by
  rw [fitsWord_toNat, toNat_highHalf]

theorem fitsWord_lowHalf (bits : UInt64) (signed : Bool) :
    FitsWord signed (lowHalf bits).toNat ↔ (signed = true → bits.toNat % 2 ^ 32 < 2 ^ 31) := by
  rw [fitsWord_toNat, toNat_lowHalf]

theorem TooLarge.not_small {bits : UInt64} {half : Nat} (large : TooLarge bits half) :
    ¬ (bits.toNat / 2 ^ 32 < 2 ^ 31 ∧ bits.toNat % 2 ^ 32 < 2 ^ 31) := by
  rcases large with ⟨high, -⟩ | ⟨-, low, -⟩
  · exact fun small => absurd small.1 (Nat.not_lt.mpr high)
  · exact fun small => absurd small.2 (Nat.not_lt.mpr low)

theorem TooLarge.unique {bits : UInt64} {half other : Nat} (one : TooLarge bits half)
    (two : TooLarge bits other) : half = other := by
  unfold TooLarge at one two
  omega

theorem packWide_cases (order : ByteOrder) (bits : UInt64) (signed : Bool) :
    ((signed = true → bits.toNat / 2 ^ 32 < 2 ^ 31 ∧ bits.toNat % 2 ^ 32 < 2 ^ 31) ∧
      order.packWide bits signed = .ok (order.bytes (highHalf bits) ++ order.bytes (lowHalf bits))) ∨
    (signed = true ∧ ∃ half, TooLarge bits half ∧
      order.packWide bits signed = .error (.outOfRange .word half (-0x80000000) 0x7FFFFFFF)) := by
  -- The high half is packed first, so that its fault hides one of the low half.
  by_cases high : FitsWord signed (highHalf bits).toNat
  · have first := packWord_toNat_of_fits order high
    by_cases low : FitsWord signed (lowHalf bits).toNat
    · have second := packWord_toNat_of_fits order low
      rw [fitsWord_highHalf] at high
      rw [fitsWord_lowHalf] at low
      refine .inl ⟨fun sign => ⟨high sign, low sign⟩, ?_⟩
      rw [ByteOrder.packWide, first, second]
      rfl
    · have second := packWord_of_not_fits order low
      rw [fitsWord_highHalf] at high
      rw [fitsWord_lowHalf, Classical.not_imp, Nat.not_lt] at low
      obtain ⟨rfl, large⟩ := low
      refine .inr ⟨rfl, _, .inr ⟨high rfl, large, rfl⟩, ?_⟩
      rw [ByteOrder.packWide, first, second, toNat_lowHalf]
      rfl
  · have first := packWord_of_not_fits order high
    rw [fitsWord_highHalf, Classical.not_imp, Nat.not_lt] at high
    obtain ⟨rfl, large⟩ := high
    refine .inr ⟨rfl, _, .inl ⟨large, rfl⟩, ?_⟩
    rw [ByteOrder.packWide, first, toNat_highHalf]
    rfl

theorem packWide_ok_iff {order : ByteOrder} {bits : UInt64} {signed : Bool} {bytes : List UInt8} :
    order.packWide bits signed = .ok bytes ↔
      (signed = true → bits.toNat / 2 ^ 32 < 2 ^ 31 ∧ bits.toNat % 2 ^ 32 < 2 ^ 31) ∧
        bytes = order.bytes (highHalf bits) ++ order.bytes (lowHalf bits) := by
  rcases packWide_cases order bits signed with ⟨small, done⟩ | ⟨sign, half, large, failed⟩
  · rw [done, Except.ok.injEq, eq_comm]
    exact (and_iff_right small).symm
  · rw [failed]
    constructor
    · intro done
      cases done
    · rintro ⟨small, -⟩
      exact absurd (small sign) large.not_small

theorem packWide_error_iff {order : ByteOrder} {bits : UInt64} {signed : Bool} {fault : Fault} :
    order.packWide bits signed = .error fault ↔
      signed = true ∧ ∃ half, TooLarge bits half ∧
        fault = .outOfRange .word half (-0x80000000) 0x7FFFFFFF := by
  rcases packWide_cases order bits signed with ⟨small, done⟩ | ⟨sign, half, large, failed⟩
  · rw [done]
    constructor
    · intro failed
      cases failed
    · rintro ⟨sign, half, large, -⟩
      exact absurd (small sign) large.not_small
  · rw [failed, Except.error.injEq]
    constructor
    · rintro rfl
      exact ⟨sign, half, large, rfl⟩
    · rintro ⟨-, other, larger, rfl⟩
      rw [large.unique larger]

theorem exists_envelopeWords (module header : UInt32) (before behind : List Operand)
    (operand : Operand) : ∃ count, envelopeWords module header (before ++ operand :: behind) =
      ([marker, module, count, header] ++ before.flatMap Operand.words) ++
        (operand.words ++ behind.flatMap Operand.words) := by
  refine ⟨UInt32.ofNat (1 + ((before ++ operand :: behind).flatMap Operand.words).length), ?_⟩
  simp [envelopeWords]

/-- A wide operand stands behind the envelope and the operands before it, its high half first. -/
theorem wideOperand_in_envelope (order : ByteOrder) (module header : UInt32)
    (before behind : List Operand) (bits : UInt64) :
    ((envelope order module header (before ++ .wide bits :: behind)).drop
      (4 * (4 + (before.map Operand.wordCount).sum))).take 8 =
        order.bytes (highHalf bits) ++ order.bytes (lowHalf bits) := by
  obtain ⟨count, words⟩ := exists_envelopeWords module header before behind (.wide bits)
  have front : (order.wordsBytes ([marker, module, count, header] ++
      before.flatMap Operand.words)).length = 4 * (4 + (before.map Operand.wordCount).sum) := by
    rw [order.length_wordsBytes, List.length_append, List.length_flatMap]
    rfl
  have size : (order.wordsBytes (Operand.wide bits).words).length = 8 :=
    order.length_wordsBytes _
  calc
    ((envelope order module header (before ++ .wide bits :: behind)).drop
      (4 * (4 + (before.map Operand.wordCount).sum))).take 8
      = order.wordsBytes (Operand.wide bits).words := by
        rw [envelope, words, order.wordsBytes_append, ← front, List.drop_left,
          order.wordsBytes_append, ← size, List.take_left]
    _ = order.bytes (highHalf bits) ++ order.bytes (lowHalf bits) := by
        simp [ByteOrder.wordsBytes, Operand.words]

section

variable {order : ByteOrder} {value : Int} {signed : Bool}

theorem packWord_ok_iff {bytes : List UInt8} : order.packWord value signed = .ok bytes ↔
    FitsWord signed value ∧ bytes = order.bytes (wordOfInt value) := by
  by_cases fits : FitsWord signed value
  · simp [packWord_of_fits order fits, fits, eq_comm]
  · simp [packWord_of_not_fits order fits, fits]

theorem packWord_error_iff {fault : Fault} : order.packWord value signed = .error fault ↔
    ¬ FitsWord signed value ∧ fault = beyondWord signed value := by
  by_cases fits : FitsWord signed value
  · simp [packWord_of_fits order fits, fits]
  · simp [packWord_of_not_fits order fits, fits, eq_comm]

theorem pack_of_width {width : Nat} (neither : width ≠ 4 ∧ width ≠ 8) :
    order.pack value width signed = .error (.unsupportedWidth width) := by
  unfold ByteOrder.pack
  split
  · exact absurd rfl neither.1
  · exact absurd rfl neither.2
  · rfl

theorem pack_ne_unsupported {width other : Nat} (known : width = 4 ∨ width = 8) :
    order.pack value width signed ≠ .error (.unsupportedWidth other) := by
  intro failed
  rcases known with rfl | rfl
  · have wrong := (packWord_error_iff.mp failed).2
    cases signed with
    | false => cases wrong
    | true => cases wrong
  · obtain ⟨-, half, -, wrong⟩ := packWide_error_iff.mp failed
    cases wrong

theorem pack_unsupported_iff {width other : Nat} :
    order.pack value width signed = .error (.unsupportedWidth other) ↔
      (width ≠ 4 ∧ width ≠ 8) ∧ other = width := by
  by_cases neither : width ≠ 4 ∧ width ≠ 8
  · simp [pack_of_width neither, neither, eq_comm]
  · have known : width = 4 ∨ width = 8 := by omega
    simp [pack_ne_unsupported known, neither]

theorem exists_read_of_packWord {bytes : List UInt8} (packed : order.packWord value signed = .ok bytes) :
    ∃ b0 b1 b2 b3, bytes = [b0, b1, b2, b3] ∧
      ((order.word b0 b1 b2 b3).toNat : Int) = value % 0x100000000 := by
  obtain ⟨-, rfl⟩ := packWord_ok_iff.mp packed
  obtain ⟨b0, b1, b2, b3, shape, read⟩ := exists_bytes order (wordOfInt value)
  refine ⟨b0, b1, b2, b3, shape, ?_⟩
  rw [read, toNat_wordOfInt]

end

theorem exists_bits (value : Int64) : ∃ bits : UInt64,
    (bits.toNat : Int) = value.toInt % 0x10000000000000000 ∧
    ∀ (order : ByteOrder) (signed : Bool),
      order.pack value.toInt 8 signed = order.packWide bits signed := by
  refine ⟨UInt64.ofNat (value.toInt % 0x10000000000000000).toNat, ?_, fun order signed => rfl⟩
  have small : (value.toInt % 0x10000000000000000).toNat < 2 ^ 64 := by omega
  rw [UInt64.toNat_ofNat', Nat.mod_eq_of_lt small]
  omega

theorem high_of_negative {value : Int64} {bits : UInt64}
    (same : (bits.toNat : Int) = value.toInt % 0x10000000000000000) (negative : value.toInt < 0) :
    2 ^ 31 ≤ bits.toNat / 2 ^ 32 := by
  have least := value.le_toInt
  omega

theorem readWords_halves (order : ByteOrder) (bits : UInt64) :
    order.readWords 2 (order.bytes (highHalf bits) ++ order.bytes (lowHalf bits)) =
      .ok ([highHalf bits, lowHalf bits], []) := by
  have read := order.readWords_wordsBytes [highHalf bits, lowHalf bits] []
  simpa [ByteOrder.wordsBytes] using read

theorem halves_toNat (bits : UInt64) :
    2 ^ 32 * (highHalf bits).toNat + (lowHalf bits).toNat = bits.toNat := by
  rw [toNat_highHalf, toNat_lowHalf, Nat.div_add_mod]

/-- A number is packed into four bytes where a word has room for it, and into eight as the two halves of
its bits, of which a sign takes the upper half of the range away. -/
theorem pack_byLaw (order : ByteOrder) (value : Int64) (signed : Bool) : ∃ bits : UInt64,
    (bits.toNat : Int) = value.toInt % 0x10000000000000000 ∧ PacksByLaw order value signed bits := by
  obtain ⟨bits, same, wide⟩ := exists_bits value
  refine ⟨bits, same, ?_⟩
  have packed : ∀ bytes, order.pack value.toInt 8 signed = .ok bytes →
      bytes = order.bytes (highHalf bits) ++ order.bytes (lowHalf bits) := by
    intro bytes done
    rw [wide] at done
    exact (packWide_ok_iff.mp done).2
  constructor
  case unsupported_iff => exact fun width other => pack_unsupported_iff
  case word_ok_iff => simp [ByteOrder.pack, packWord_ok_iff]
  case word_error_iff => exact fun fault => packWord_error_iff
  case word_read => exact fun bytes done => exists_read_of_packWord done
  case wide_ok_iff => simp [wide, packWide_ok_iff]
  case wide_negative =>
    intro sign negative
    have large := high_of_negative same negative
    have high : TooLarge bits (bits.toNat / 2 ^ 32) := .inl ⟨large, rfl⟩
    exact ⟨_, (wide order signed).trans (packWide_error_iff.mpr ⟨sign, _, high, rfl⟩)⟩
  case wide_error_iff =>
    intro fault
    rw [wide, packWide_error_iff]
  case wide_read =>
    intro bytes done
    rw [packed bytes done]
    exact ⟨highHalf bits, lowHalf bits, rfl, readWords_halves order bits, halves_toNat bits⟩
  case wide_unsigned =>
    intro bytes done
    rw [wide, packed bytes done, packWide_ok_iff]
    exact ⟨fun sign => absurd sign Bool.false_ne_true, rfl⟩
  case wide_operand =>
    intro bytes done module header before behind
    rw [packed bytes done, wideOperand_in_envelope]

example : ByteOrder.little.pack (-2) 8 true =
    .error (.outOfRange .word 0xFFFFFFFF (-0x80000000) 0x7FFFFFFF) := rfl

end CcdController
