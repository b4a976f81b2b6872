import CcdController.Proofs.LineCodec

namespace CcdController

/-- Reading accepts what is written, as what it was written from, and nothing else. -/
structure ExactCodec {α : Type} (encode : α → Nat) (decode : Nat → Except Fault α) : Prop where
  ok_iff : ∀ line item, decode line = .ok item ↔ encode item = line
  error_iff : ∀ line fault, decode line = .error fault ↔
    fault = .invalidWord line ∧ ∀ item, encode item ≠ line

section

variable {α : Type} {encode : α → Nat} {decode : Nat → Except Fault α}

/-- Only what it refuses has to be known of a reader that gives back what was written. -/
theorem ExactCodec.of_laws (decode_encode : ∀ item, decode (encode item) = .ok item)
    (encode_of_decode : ∀ {line item}, decode line = .ok item → encode item = line)
    (refused : ∀ {line fault}, decode line = .error fault → fault = .invalidWord line) :
    ExactCodec encode decode where
  ok_iff := by
    intro line item
    constructor
    · exact encode_of_decode
    · intro written
      rw [← written]
      exact decode_encode item
  error_iff := by
    intro line fault
    constructor
    · intro failed
      refine ⟨refused failed, ?_⟩
      intro item written
      rw [← written, decode_encode] at failed
      cases failed
    · rintro ⟨blamed, unwritten⟩
      cases result : decode line with
      | ok item => exact absurd (encode_of_decode result) (unwritten item)
      | error other => rw [blamed, refused result]

end

theorem exists_of_map_eq_ok {α β ε : Type} {f : α → β} {outcome : Except ε α} {result : β}
    (done : outcome.map f = .ok result) : ∃ item, outcome = .ok item ∧ f item = result := by
  cases outcome with
  | error failure => cases done
  | ok item => exact ⟨item, rfl, Except.ok.inj done⟩

theorem eq_error_of_map {α β ε : Type} {f : α → β} {outcome : Except ε α} {failure : ε}
    (failed : outcome.map f = .error failure) : outcome = .error failure := by
  cases outcome with
  | error other => exact congrArg Except.error (Except.error.inj failed)
  | ok item => cases failed

theorem toNat_lineField (line shift : Nat) :
    (lineField line shift).toNat = line >>> shift % 2 ^ 16 := by
  rw [lineField, UInt16.toNat_ofNat']

namespace ModeHeader

variable {line : Nat} {header : ModeHeader} {fault : Fault}

theorem encode_of_decode (read : ModeHeader.decode line = .ok header) : header.encode = line := by
  unfold ModeHeader.decode at read
  simp only at read
  split at read
  · cases read
  · next there =>
      simp only [lineTag, headerTag, not_or, not_not] at there
      split at read
      · next flag =>
          cases read
          simp only [encode, headerTag, toNat_lineField, Bool.toNat_false]
          omega
      · next flag =>
          cases read
          simp only [encode, headerTag, toNat_lineField, Bool.toNat_true]
          omega
      · cases read

theorem refused_of_decode (read : ModeHeader.decode line = .error fault) :
    fault = .invalidWord line := by
  unfold ModeHeader.decode at read
  simp only at read
  split at read
  · exact (Except.error.inj read).symm
  · split at read
    · cases read
    · cases read
    · exact (Except.error.inj read).symm

theorem exactCodec : ExactCodec ModeHeader.encode ModeHeader.decode :=
  .of_laws decode_encode encode_of_decode refused_of_decode

end ModeHeader

namespace TimingState

variable {line : Nat} {state : TimingState} {fault : Fault}

theorem encode_of_decode (read : TimingState.decode line = .ok state) : state.encode = line := by
  unfold TimingState.decode at read
  split at read
  · cases read
  · next there =>
      simp only [lineTag, stateTag, not_or, not_not] at there
      cases read
      simp only [encode, stateTag, BitVec.toNat_ofNat]
      omega

theorem refused_of_decode (read : TimingState.decode line = .error fault) :
    fault = .invalidWord line := by
  unfold TimingState.decode at read
  split at read
  · exact (Except.error.inj read).symm
  · cases read

theorem exactCodec : ExactCodec TimingState.encode TimingState.decode :=
  .of_laws decode_encode encode_of_decode refused_of_decode

end TimingState

namespace Word

variable {line : Nat} {word : Word} {fault : Fault}

theorem encode_of_decode (read : Word.decode line = .ok word) : word.encode = line := by
  unfold Word.decode at read
  split at read
  · cases read
  · split at read
    · obtain ⟨header, there, rfl⟩ := exists_of_map_eq_ok read
      exact ModeHeader.encode_of_decode there
    · split at read
      · obtain ⟨state, there, rfl⟩ := exists_of_map_eq_ok read
        exact TimingState.encode_of_decode there
      · cases read

theorem refused_of_decode (read : Word.decode line = .error fault) : fault = .invalidWord line := by
  unfold Word.decode at read
  split at read
  · exact (Except.error.inj read).symm
  · split at read
    · exact ModeHeader.refused_of_decode (eq_error_of_map read)
    · split at read
      · exact TimingState.refused_of_decode (eq_error_of_map read)
      · exact (Except.error.inj read).symm

theorem exactCodec : ExactCodec Word.encode Word.decode :=
  .of_laws decode_encode encode_of_decode refused_of_decode

end Word

def tagByte (line : Nat) : Nat := line / 2 ^ 88 % 2 ^ 8

def nestingByte (line : Nat) : Nat := line / 2 ^ 32 % 2 ^ 8

section

variable {line : Nat}

theorem exists_high_bit_iff : (∃ bit, 96 ≤ bit ∧ line.testBit bit = true) ↔ 2 ^ 96 ≤ line := by
  constructor
  · rintro ⟨bit, high, set⟩
    calc
      2 ^ 96 ≤ 2 ^ bit := Nat.pow_le_pow_right (by decide) high
      _ ≤ line := Nat.ge_two_pow_of_testBit set
  · exact Nat.exists_ge_and_testBit_of_ge_two_pow

theorem exists_header_iff : (∃ header, ModeHeader.encode header = line) ↔
    line < 2 ^ 96 ∧ tagByte line = 0x80 ∧ (nestingByte line = 0 ∨ nestingByte line = 1) := by
  constructor
  · rintro ⟨header, rfl⟩
    have tag := header.lineTag_encode
    have nesting := header.fields_encode.2.2.2.1
    have flag : header.isNested.toNat = 0 ∨ header.isNested.toNat = 1 := by
      cases header.isNested <;> decide
    rw [← nesting, Nat.shiftRight_eq_div_pow] at flag
    rw [lineTag, Nat.shiftRight_eq_div_pow] at tag
    exact ⟨header.encode_lt, tag, flag⟩
  · rintro ⟨small, tag, nesting⟩
    have read : ∃ header, ModeHeader.decode line = .ok header := by
      unfold ModeHeader.decode
      unfold tagByte at tag
      unfold nestingByte at nesting
      simp only
      split
      · next wrong =>
          simp only [lineTag, headerTag] at wrong
          omega
      · split
        · exact ⟨_, rfl⟩
        · exact ⟨_, rfl⟩
        · next notZero notOne =>
            rw [Nat.shiftRight_eq_div_pow] at notZero notOne
            exact absurd nesting (not_or.mpr ⟨notZero, notOne⟩)
    obtain ⟨header, there⟩ := read
    exact ⟨header, ModeHeader.encode_of_decode there⟩

theorem exists_state_iff : (∃ state, TimingState.encode state = line) ↔
    line < 2 ^ 96 ∧ tagByte line = 0 := by
  constructor
  · rintro ⟨state, rfl⟩
    have small := state.encode_lt
    unfold tagByte
    omega
  · rintro ⟨small, tag⟩
    have read : ∃ state, TimingState.decode line = .ok state := by
      unfold TimingState.decode
      unfold tagByte at tag
      split
      · next wrong =>
          simp only [lineTag, stateTag] at wrong
          omega
      · exact ⟨_, rfl⟩
    obtain ⟨state, there⟩ := read
    exact ⟨state, TimingState.encode_of_decode there⟩

theorem exists_word_iff : (∃ word, Word.encode word = line) ↔
    (∃ header, ModeHeader.encode header = line) ∨ ∃ state, TimingState.encode state = line := by
  constructor
  · rintro ⟨header | state, written⟩
    · exact .inl ⟨header, written⟩
    · exact .inr ⟨state, written⟩
  · rintro (⟨header, written⟩ | ⟨state, written⟩)
    · exact ⟨.header header, written⟩
    · exact ⟨.state state, written⟩

theorem ExactCodec.refuses_iff {α : Type} {encode : α → Nat} {decode : Nat → Except Fault α}
    (codec : ExactCodec encode decode) :
    decode line = .error (.invalidWord line) ↔ ¬ ∃ item, encode item = line := by
  rw [codec.error_iff, not_exists]
  exact and_iff_right rfl

end

/-- Memory lines, headers and states are each read exactly as they are written, no number is read both
as a header and as a state, and a number is refused for its high bits, its tag or its nesting byte. -/
theorem memoryLines_exact :
    ExactCodec Word.encode Word.decode ∧
    ExactCodec ModeHeader.encode ModeHeader.decode ∧
    ExactCodec TimingState.encode TimingState.decode ∧
    (∀ line header state,
      ¬ (ModeHeader.decode line = .ok header ∧ TimingState.decode line = .ok state)) ∧
    (∀ line, Word.decode line = .error (.invalidWord line) ↔
      (∃ bit, 96 ≤ bit ∧ line.testBit bit = true) ∨
      (tagByte line ≠ 0x80 ∧ tagByte line ≠ 0) ∨
      (tagByte line = 0x80 ∧ nestingByte line ≠ 0 ∧ nestingByte line ≠ 1)) ∧
    (∀ line, ModeHeader.decode line = .error (.invalidWord line) ↔
      (∃ bit, 96 ≤ bit ∧ line.testBit bit = true) ∨ tagByte line ≠ 0x80 ∨
        (nestingByte line ≠ 0 ∧ nestingByte line ≠ 1)) ∧
    ∀ line, TimingState.decode line = .error (.invalidWord line) ↔
      (∃ bit, 96 ≤ bit ∧ line.testBit bit = true) ∨ tagByte line ≠ 0 := by
  refine ⟨Word.exactCodec, ModeHeader.exactCodec, TimingState.exactCodec, ?_, ?_, ?_, ?_⟩
  · rintro line header state ⟨asHeader, asState⟩
    have ofHeader := exists_header_iff.mp ⟨header, ModeHeader.encode_of_decode asHeader⟩
    have ofState := exists_state_iff.mp ⟨state, TimingState.encode_of_decode asState⟩
    have apart : tagByte line ≠ 0 := by
      rw [ofHeader.2.1]
      decide
    exact apart ofState.2
  · intro line
    rw [Word.exactCodec.refuses_iff, exists_word_iff, exists_header_iff, exists_state_iff,
      exists_high_bit_iff]
    omega
  · intro line
    rw [ModeHeader.exactCodec.refuses_iff, exists_header_iff, exists_high_bit_iff]
    omega
  · intro line
    rw [TimingState.exactCodec.refuses_iff, exists_state_iff, exists_high_bit_iff]
    omega

end CcdController
