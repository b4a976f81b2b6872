import Mathlib.Algebra.GroupWithZero.Nat
import CcdController.Proofs.CommandReading

/-!
Reading of instructions and the wire format. `Instruction.Reads` is the format, as a relation between
bytes and what is to be read from them: bytes that are cut short, that are wrong, and whole
instructions. Reading gives what the format says, and what has once been read from the front of a
stream stays as it is while more bytes arrive.
-/
namespace CcdController

theorem headerWord_ofNat (header : UInt32) :
    headerWord (UInt16.ofNat (header.toNat >>> 16)) (UInt16.ofNat header.toNat) = header := by
  have bound := header.toNat_lt
  rw [← UInt32.toNat_inj]
  simp only [headerWord, UInt16.toNat_ofNat', UInt32.toNat_ofNat', Nat.reducePow] at *
  omega

def Operand.plainWords : Operand → List UInt32
  | word value => [value]
  | wide value => [(value >>> 32).toUInt32, value.toUInt32]

theorem Operand.words_eq_plainWords (operand : Operand) : operand.words = operand.plainWords := by
  cases operand with
  | word value => rfl
  | wide value =>
      have high : highHalf value = (value >>> 32).toUInt32 := by
        rw [← UInt32.toNat_inj, highHalf, UInt32.toNat_ofNat', UInt64.toNat_toUInt32,
          UInt64.toNat_shiftRight]
        rfl
      have low : lowHalf value = value.toUInt32 := by
        rw [← UInt32.toNat_inj, lowHalf, UInt32.toNat_ofNat', UInt64.toNat_toUInt32]
      rw [words, plainWords, high, low]

theorem Operand.flatMap_words_word (words : List UInt32) :
    (words.map Operand.word).flatMap Operand.words = words := by
  rw [List.flatMap_map]
  exact List.flatMap_singleton' words

namespace Instruction

inductive Reads (order : ByteOrder) :
    List UInt8 → Except Refusal (Instruction × List UInt8) → Prop where
  | noMarker {bytes} (short : bytes.length < 4) :
      Reads order bytes (.error (.incomplete (4 - bytes.length % 4)))
  | wrongMarker {first rest} (wrong : first ≠ marker) :
      Reads order (order.bytes first ++ rest) (.error (.marker rest))
  | noCount {rest} (short : rest.length < 8) :
      Reads order (order.bytes marker ++ rest) (.error (.incomplete (4 - rest.length % 4)))
  | noWords {module rest} :
      Reads order (order.wordsBytes [marker, module, 0] ++ rest) (.error (.wordCount rest))
  | noBody {module count rest} (short : rest.length < 4 * count.toNat) :
      Reads order (order.wordsBytes [marker, module, count] ++ rest)
        (.error (.incomplete (4 - rest.length % 4)))
  | whole {module count header operands rest} (counted : count.toNat = 1 + operands.length) :
      Reads order
        (order.wordsBytes [marker, module, count] ++
          (order.wordsBytes (header :: operands) ++ rest))
        (.ok (⟨module, UInt16.ofNat (header.toNat >>> 16), UInt16.ofNat header.toNat, operands⟩,
          rest))

variable {order : ByteOrder} {bytes rest : List UInt8}

theorem readBody_of_short {module count : UInt32} (short : rest.length < 4 * count.toNat) :
    readBody order module count rest = .error (.incomplete (4 - rest.length % 4)) := by
  rw [readBody]
  rcases Nat.lt_or_ge rest.length 4 with cut | enough
  · rw [order.readWord_of_short cut, Nat.mod_eq_of_lt cut]
    rfl
  · obtain ⟨header, behind, rfl⟩ := order.exists_word enough
    rw [List.length_append, ByteOrder.length_bytes] at short ⊢
    have missing : behind.length < 4 * (count.toNat - 1) := by omega
    rw [ByteOrder.readWord_bytes, Nat.add_mod_left]
    simp only [bind, Except.bind, order.readWords_of_short missing]

theorem readBody_wordsBytes {module count header : UInt32} {operands : List UInt32}
    (counted : count.toNat = 1 + operands.length) :
    readBody order module count (order.wordsBytes (header :: operands) ++ rest) =
      .ok (⟨module, UInt16.ofNat (header.toNat >>> 16), UInt16.ofNat header.toNat, operands⟩,
        rest) := by
  have behind : count.toNat - 1 = operands.length := by omega
  rw [readBody, ByteOrder.wordsBytes_cons, List.append_assoc, ByteOrder.readWord_bytes, behind]
  simp only [bind, Except.bind, ByteOrder.readWords_wordsBytes]
  rfl

theorem read_wrongMarker {first : UInt32} (wrong : first ≠ marker) :
    read order (order.bytes first ++ rest) = .error (.marker rest) := by
  rw [read, ByteOrder.readWord_bytes]
  exact if_pos wrong

theorem read_marker : read order (order.bytes marker ++ rest) = (do
    let (module, bytes) ← order.readWord rest
    let (count, bytes) ← order.readWord bytes
    if count = 0 then .error (.wordCount bytes) else readBody order module count bytes) := by
  rw [read, ByteOrder.readWord_bytes]
  rfl

theorem read_noCount (short : rest.length < 8) :
    read order (order.bytes marker ++ rest) = .error (.incomplete (4 - rest.length % 4)) := by
  rw [read_marker]
  rcases Nat.lt_or_ge rest.length 4 with cut | enough
  · rw [order.readWord_of_short cut, Nat.mod_eq_of_lt cut]
    rfl
  · obtain ⟨module, behind, rfl⟩ := order.exists_word enough
    rw [List.length_append, ByteOrder.length_bytes] at short ⊢
    have cut : behind.length < 4 := by omega
    rw [ByteOrder.readWord_bytes, Nat.add_mod_left, Nat.mod_eq_of_lt cut]
    simp only [bind, Except.bind, order.readWord_of_short cut]

theorem read_count (module count : UInt32) :
    read order (order.wordsBytes [marker, module, count] ++ rest) =
      if count = 0 then .error (.wordCount rest) else readBody order module count rest := by
  simp only [ByteOrder.wordsBytes_cons, List.append_assoc, read_marker, ByteOrder.readWord_bytes,
    bind, Except.bind]
  rfl

theorem ne_zero_of_toNat {count : UInt32} (positive : 0 < count.toNat) : count ≠ 0 := by
  intro zero
  rw [zero] at positive
  exact absurd positive (Nat.lt_irrefl _)

/-- The format leaves no choice: what it says is what is read. -/
theorem read_of_reads {result : Except Refusal (Instruction × List UInt8)}
    (reads : Reads order bytes result) : read order bytes = result := by
  cases reads with
  | noMarker short =>
      rw [read, order.readWord_of_short short, Nat.mod_eq_of_lt short]
      rfl
  | wrongMarker wrong => exact read_wrongMarker wrong
  | noCount short => exact read_noCount short
  | noWords => exact read_count _ 0
  | noBody short =>
      rw [read_count, if_neg (ne_zero_of_toNat (by omega)), readBody_of_short short]
  | whole counted =>
      rw [read_count, if_neg (ne_zero_of_toNat (by omega)), readBody_wordsBytes counted]

/-- The format says something of all bytes. -/
theorem exists_reads (order : ByteOrder) (bytes : List UInt8) : ∃ result, Reads order bytes result := by
  rcases Nat.lt_or_ge bytes.length 4 with short | enough
  · exact ⟨_, .noMarker short⟩
  obtain ⟨first, behind, rfl⟩ := order.exists_word enough
  by_cases wrong : first ≠ marker
  · exact ⟨_, .wrongMarker wrong⟩
  obtain rfl := not_not.mp wrong
  rcases Nat.lt_or_ge behind.length 8 with short | enough
  · exact ⟨_, .noCount short⟩
  have word : 4 ≤ behind.length := by omega
  obtain ⟨module, behind, rfl⟩ := order.exists_word word
  rw [List.length_append, ByteOrder.length_bytes] at enough
  have word : 4 ≤ behind.length := by omega
  obtain ⟨count, behind, rfl⟩ := order.exists_word word
  have front : order.bytes marker ++ (order.bytes module ++ (order.bytes count ++ behind)) =
      order.wordsBytes [marker, module, count] ++ behind := by
    simp only [ByteOrder.wordsBytes_cons, List.append_assoc]
    rfl
  rw [front]
  by_cases none : count = 0
  · subst none
    exact ⟨_, .noWords⟩
  rcases Nat.lt_or_ge behind.length (4 * count.toNat) with short | enough
  · exact ⟨_, .noBody short⟩
  obtain ⟨words, rest, counted, rfl⟩ := order.exists_words enough
  cases words with
  | nil => exact absurd (UInt32.toNat_inj.mp counted.symm) none
  | cons header operands =>
      refine ⟨_, .whole ?_⟩
      rw [← counted, List.length_cons, Nat.add_comm]

theorem reads_read (order : ByteOrder) (bytes : List UInt8) :
    Reads order bytes (read order bytes) := by
  obtain ⟨result, reads⟩ := exists_reads order bytes
  rw [read_of_reads reads]
  exact reads

theorem reads_iff {result : Except Refusal (Instruction × List UInt8)} :
    Reads order bytes result ↔ read order bytes = result :=
  ⟨read_of_reads, fun same => same ▸ reads_read order bytes⟩

theorem encode_eq_wordsBytes {module count header : UInt32} {operands : List UInt32}
    (counted : count.toNat = 1 + operands.length) :
    encode order ⟨module, UInt16.ofNat (header.toNat >>> 16), UInt16.ofNat header.toNat, operands⟩ =
      order.wordsBytes [marker, module, count] ++ order.wordsBytes (header :: operands) := by
  have count_eq : UInt32.ofNat (1 + operands.length) = count := by
    rw [← counted, UInt32.ofNat_toNat]
  simp only [encode, Instruction.header, envelope, envelopeWords, headerWord_ofNat,
    Operand.flatMap_words_word, count_eq, ← ByteOrder.wordsBytes_append]
  rfl

theorem read_encode_of_fits {instruction : Instruction}
    (fits : 1 + instruction.operands.length < 2 ^ 32) (rest : List UInt8) :
    read order (instruction.encode order ++ rest) = .ok (instruction, rest) := by
  have words := Operand.flatMap_words_word instruction.operands
  have there := read_envelope order instruction.module instruction.header (by rwa [words]) rest
  obtain ⟨high, low⟩ := ofNat_headerWord instruction.submodule instruction.operation
  rw [encode, there, ofEnvelope, header, high, low, words]

theorem read_envelope_of_fits (module header : UInt32) {operands : List Operand}
    (fits : 1 + (operands.map Operand.wordCount).sum < 2 ^ 32) (rest : List UInt8) :
    ∃ instruction, read order (envelope order module header operands ++ rest) =
        .ok (instruction, rest) ∧
      instruction.module = module ∧ instruction.header = header ∧
      instruction.operands = operands.flatMap Operand.plainWords := by
  have counted : (operands.flatMap Operand.words).length =
      (operands.map Operand.wordCount).sum := List.length_flatMap
  refine ⟨_, read_envelope order module header (by rwa [counted]) rest, rfl, ?_, ?_⟩
  · exact headerWord_ofNat header
  · rw [ofEnvelope, funext Operand.words_eq_plainWords]

theorem read_ok_iff {instruction : Instruction} : read order bytes = .ok (instruction, rest) ↔
    1 + instruction.operands.length < 2 ^ 32 ∧ bytes = instruction.encode order ++ rest := by
  constructor
  · intro done
    cases reads_iff.mpr done with
    | @whole module count header operands rest counted =>
        rw [encode_eq_wordsBytes counted, ← counted, List.append_assoc]
        exact ⟨count.toNat_lt, rfl⟩
  · rintro ⟨fits, rfl⟩
    exact read_encode_of_fits fits rest

/-- The bytes end too early: inside the marker, before the count is there, or before the last of the
words that it counts. -/
def CutShort (order : ByteOrder) (bytes : List UInt8) : Prop :=
  bytes.length < 4 ∨
  wordAt order bytes 0 = some marker ∧ bytes.length < 12 ∨
  wordAt order bytes 0 = some marker ∧ ∃ count, wordAt order bytes 8 = some count ∧
    count ≠ 0 ∧ bytes.length < 4 * (3 + count.toNat)

theorem cutShort_marker (short : rest.length < 8) :
    CutShort order (order.bytes marker ++ rest) := by
  refine .inr (.inl ⟨wordAt_bytes order marker rest, ?_⟩)
  rw [List.length_append, ByteOrder.length_bytes]
  omega

theorem not_cutShort_wrongMarker {first : UInt32} (wrong : first ≠ marker) :
    ¬ CutShort order (order.bytes first ++ rest) := by
  rw [CutShort, wordAt_bytes, List.length_append, ByteOrder.length_bytes]
  intro cut
  rcases cut with short | ⟨marked, -⟩ | ⟨marked, -⟩
  · omega
  · exact wrong (Option.some.inj marked)
  · exact wrong (Option.some.inj marked)

theorem cutShort_count_iff (module count : UInt32) :
    CutShort order (order.wordsBytes [marker, module, count] ++ rest) ↔
      rest.length < 4 * count.toNat := by
  have first : wordAt order (order.wordsBytes [marker, module, count] ++ rest) 0 = some marker :=
    @wordAt_wordsBytes order [marker, module, count] 0 marker rfl rest
  have third : wordAt order (order.wordsBytes [marker, module, count] ++ rest) 8 = some count :=
    @wordAt_wordsBytes order [marker, module, count] 2 count rfl rest
  have front : (order.wordsBytes [marker, module, count]).length = 12 :=
    order.length_wordsBytes [marker, module, count]
  rw [CutShort, first, third, List.length_append, front]
  constructor
  · intro cut
    rcases cut with short | ⟨-, short⟩ | ⟨-, _, same, -, short⟩
    · omega
    · omega
    · rw [Option.some.inj same]
      omega
  · intro short
    exact .inr (.inr ⟨rfl, count, rfl, ne_zero_of_toNat (by omega), by omega⟩)

theorem mod_four_bytes (word : UInt32) (rest : List UInt8) :
    (order.bytes word ++ rest).length % 4 = rest.length % 4 := by
  rw [List.length_append, ByteOrder.length_bytes, Nat.add_mod_left]

theorem mod_four_wordsBytes (words : List UInt32) (rest : List UInt8) :
    (order.wordsBytes words ++ rest).length % 4 = rest.length % 4 := by
  rw [List.length_append, ByteOrder.length_wordsBytes, Nat.mul_add_mod]

theorem read_incomplete_iff {missing : Nat} : read order bytes = .error (.incomplete missing) ↔
    missing = 4 - bytes.length % 4 ∧ CutShort order bytes := by
  constructor
  · intro refused
    cases reads_iff.mpr refused with
    | noMarker short => exact ⟨rfl, .inl short⟩
    | noCount short => exact ⟨by rw [mod_four_bytes], cutShort_marker short⟩
    | noBody short => exact ⟨by rw [mod_four_wordsBytes], (cutShort_count_iff _ _).mpr short⟩
  · rintro ⟨rfl, cut⟩
    have reads := reads_read order bytes
    generalize read order bytes = result at reads ⊢
    cases reads with
    | noMarker => rfl
    | wrongMarker wrong => exact absurd cut (not_cutShort_wrongMarker wrong)
    | noCount => rw [mod_four_bytes]
    | noWords => exact absurd ((cutShort_count_iff _ _).mp cut) (Nat.not_lt_zero _)
    | noBody => rw [mod_four_wordsBytes]
    | @whole module count header operands rest counted =>
        have short := (cutShort_count_iff _ _).mp cut
        rw [List.length_append, ByteOrder.length_wordsBytes, List.length_cons] at short
        omega

/-- An instruction that has been read is read again when more bytes have arrived. -/
theorem read_append_of_ok {instruction : Instruction}
    (done : read order bytes = .ok (instruction, rest)) (later : List UInt8) :
    read order (bytes ++ later) = .ok (instruction, rest ++ later) := by
  obtain ⟨fits, rfl⟩ := read_ok_iff.mp done
  rw [List.append_assoc]
  exact read_encode_of_fits fits (rest ++ later)

theorem read_append_of_marker (refused : read order bytes = .error (.marker rest))
    (later : List UInt8) : read order (bytes ++ later) = .error (.marker (rest ++ later)) := by
  cases reads_iff.mpr refused with
  | wrongMarker wrong =>
      rw [List.append_assoc]
      exact read_wrongMarker wrong

theorem read_append_of_wordCount (refused : read order bytes = .error (.wordCount rest))
    (later : List UInt8) : read order (bytes ++ later) = .error (.wordCount (rest ++ later)) := by
  cases reads_iff.mpr refused with
  | noWords =>
      rw [List.append_assoc]
      exact read_count _ 0

/-- Reading goes by the wire format and looks no further into a stream than the format makes it. -/
structure ReadsFormat (order : ByteOrder) : Prop where
  ok_iff : ∀ bytes instruction rest, read order bytes = .ok (instruction, rest) ↔
    1 + instruction.operands.length < 2 ^ 32 ∧ bytes = instruction.encode order ++ rest
  ok_of_envelope : ∀ module header operands rest, 1 + (operands.map Operand.wordCount).sum < 2 ^ 32 →
    ∃ instruction, read order (envelope order module header operands ++ rest) =
        .ok (instruction, rest) ∧
      instruction.module = module ∧ instruction.header = header ∧
      instruction.operands = operands.flatMap Operand.plainWords
  incomplete_iff : ∀ bytes missing, read order bytes = .error (.incomplete missing) ↔
    missing = 4 - bytes.length % 4 ∧ CutShort order bytes
  ok_append : ∀ bytes instruction rest later, read order bytes = .ok (instruction, rest) →
    read order (bytes ++ later) = .ok (instruction, rest ++ later)
  marker_append : ∀ bytes rest later, read order bytes = .error (.marker rest) →
    read order (bytes ++ later) = .error (.marker (rest ++ later))
  wordCount_append : ∀ bytes rest later, read order bytes = .error (.wordCount rest) →
    read order (bytes ++ later) = .error (.wordCount (rest ++ later))

theorem readsFormat (order : ByteOrder) : ReadsFormat order where
  ok_iff _ _ _ := read_ok_iff
  ok_of_envelope module header _ rest fits := read_envelope_of_fits module header fits rest
  incomplete_iff _ _ := read_incomplete_iff
  ok_append _ _ _ later done := read_append_of_ok done later
  marker_append _ _ later refused := read_append_of_marker refused later
  wordCount_append _ _ later refused := read_append_of_wordCount refused later

theorem readsFormat_stream :
    1 + ([Operand.word 500, .wide 0x100000002].map Operand.wordCount).sum < 2 ^ 32 ∧
    (∃ instruction, read .big (envelope .big 1 4 [.word 500, .wide 0x100000002] ++ [0xAA]) =
        .ok (instruction, [0xAA]) ∧
      instruction.module = 1 ∧ instruction.header = 4 ∧ instruction.operands = [500, 1, 2]) ∧
    read .little [0x9A, 2, 0, 0, 1, 0, 0, 0, 0, 0, 0, 0, 7] = .error (.wordCount [7]) ∧
    read .little ([0x9A, 2, 0, 0, 1, 0, 0, 0, 0, 0, 0, 0, 7] ++ [8]) = .error (.wordCount [7, 8]) :=
  ⟨by decide, (readsFormat .big).ok_of_envelope 1 4 _ [0xAA] (by decide), by rfl,
    (readsFormat .little).wordCount_append _ [7] [8] (by rfl)⟩

end Instruction

end CcdController
