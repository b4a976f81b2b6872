import CcdController.WordReader

namespace CcdController

namespace ByteOrder

variable (order : ByteOrder)

theorem wordsBytes_cons (word : UInt32) (words : List UInt32) :
    order.wordsBytes (word :: words) = order.bytes word ++ order.wordsBytes words :=
  List.flatMap_cons

theorem wordsBytes_append (front back : List UInt32) :
    order.wordsBytes (front ++ back) = order.wordsBytes front ++ order.wordsBytes back :=
  List.flatMap_append

theorem length_wordsBytes (words : List UInt32) :
    (order.wordsBytes words).length = 4 * words.length := by
  induction words with
  | nil => rfl
  | cons word words ih =>
      rw [wordsBytes_cons, List.length_append, length_bytes, ih, List.length_cons]
      omega

theorem readWord_bytes (word : UInt32) (tail : List UInt8) :
    order.readWord (order.bytes word ++ tail) = .ok (word, tail) := by
  cases order with
  | little => exact congrArg (fun there => Except.ok (there, tail)) (wordOf_byteAt word)
  | big => exact congrArg (fun there => Except.ok (there, tail)) (wordOf_byteAt word)

theorem readWords_wordsBytes (words : List UInt32) (tail : List UInt8) :
    order.readWords words.length (order.wordsBytes words ++ tail) = .ok (words, tail) := by
  induction words with
  | nil => rfl
  | cons word words ih =>
      rw [List.length_cons, readWords, wordsBytes_cons, List.append_assoc, readWord_bytes]
      simp only [bind, Except.bind, ih]
      rfl

theorem exists_word {bytes : List UInt8} (enough : 4 ≤ bytes.length) :
    ∃ word rest, bytes = order.bytes word ++ rest := by
  match bytes with
  | b0 :: b1 :: b2 :: b3 :: rest =>
      refine ⟨order.word b0 b1 b2 b3, rest, ?_⟩
      rw [bytes_word]
      rfl
  | [] | [_] | [_, _] | [_, _, _] =>
      simp only [List.length_cons, List.length_nil] at enough
      omega

theorem exists_words {count : Nat} {bytes : List UInt8} (enough : 4 * count ≤ bytes.length) :
    ∃ words rest, words.length = count ∧ bytes = order.wordsBytes words ++ rest := by
  induction count generalizing bytes with
  | zero => exact ⟨[], bytes, rfl, rfl⟩
  | succ count ih =>
      have first : 4 ≤ bytes.length := by omega
      obtain ⟨word, behind, rfl⟩ := order.exists_word first
      rw [List.length_append, length_bytes] at enough
      have others : 4 * count ≤ behind.length := by omega
      obtain ⟨words, rest, counted, rfl⟩ := ih others
      refine ⟨word :: words, rest, congrArg (· + 1) counted, ?_⟩
      rw [wordsBytes_cons, List.append_assoc]

theorem readWord_of_short {bytes : List UInt8} (short : bytes.length < 4) :
    order.readWord bytes = .error (.incomplete (4 - bytes.length)) := by
  match bytes with
  | [] | [_] | [_, _] | [_, _, _] => rfl
  | _ :: _ :: _ :: _ :: rest =>
      simp only [List.length_cons] at short
      omega

theorem readWords_of_short {count : Nat} {bytes : List UInt8} (short : bytes.length < 4 * count) :
    order.readWords count bytes = .error (.incomplete (4 - bytes.length % 4)) := by
  induction count generalizing bytes with
  | zero => exact absurd short (Nat.not_lt_zero _)
  | succ count ih =>
      rw [readWords]
      rcases Nat.lt_or_ge bytes.length 4 with cut | enough
      · rw [order.readWord_of_short cut, Nat.mod_eq_of_lt cut]
        rfl
      · obtain ⟨word, behind, rfl⟩ := order.exists_word enough
        rw [List.length_append, length_bytes] at short ⊢
        have others : behind.length < 4 * count := by omega
        rw [readWord_bytes, Nat.add_mod_left]
        simp only [bind, Except.bind, ih others]

end ByteOrder

def wordAt (order : ByteOrder) (bytes : List UInt8) (position : Nat) : Option UInt32 :=
  match bytes.drop position with
  | b0 :: b1 :: b2 :: b3 :: _ => some (order.word b0 b1 b2 b3)
  | _ => none

theorem readWord_drop (order : ByteOrder) (bytes : List UInt8) (position : Nat) :
    match wordAt order bytes position with
    | some word => order.readWord (bytes.drop position) = .ok (word, bytes.drop (position + 4)) ∧
        position + 4 ≤ bytes.length
    | none => (∃ missing, order.readWord (bytes.drop position) = .error (.incomplete missing)) ∧
        bytes.length < position + 4 := by
  have size : (bytes.drop position).length = bytes.length - position := List.length_drop
  rw [← List.drop_drop]
  unfold wordAt
  match split : bytes.drop position with
  | b0 :: b1 :: b2 :: b3 :: rest =>
      rw [split] at size
      simp only [List.length_cons] at size
      exact ⟨rfl, by omega⟩
  | [] | [_] | [_, _] | [_, _, _] =>
      rw [split] at size
      simp only [List.length_cons, List.length_nil] at size
      exact ⟨⟨_, rfl⟩, by omega⟩

theorem wordAt_eq_none_iff {order : ByteOrder} {bytes : List UInt8} {position : Nat} :
    wordAt order bytes position = none ↔ bytes.length < position + 4 := by
  have read := readWord_drop order bytes position
  cases found : wordAt order bytes position with
  | none =>
      rw [found] at read
      simp only [read.2]
  | some word =>
      rw [found] at read
      simp only [reduceCtorEq, false_iff]
      exact Nat.not_lt.mpr read.2

theorem wordAt_append {order : ByteOrder} {bytes : List UInt8} {position : Nat} {word : UInt32}
    (found : wordAt order bytes position = some word) (later : List UInt8) :
    wordAt order (bytes ++ later) position = some word := by
  unfold wordAt at found ⊢
  rw [List.drop_append]
  split at found
  · next b0 b1 b2 b3 rest split =>
      rw [split]
      exact found
  · cases found

theorem wordAt_bytes (order : ByteOrder) (word : UInt32) (rest : List UInt8) :
    wordAt order (order.bytes word ++ rest) 0 = some word := by
  cases order with
  | little => exact congrArg some (ByteOrder.wordOf_byteAt word)
  | big => exact congrArg some (ByteOrder.wordOf_byteAt word)

theorem wordAt_wordsBytes (order : ByteOrder) {words : List UInt32} {index : Nat} {word : UInt32}
    (there : words[index]? = some word) (rest : List UInt8) :
    wordAt order (order.wordsBytes words ++ rest) (4 * index) = some word := by
  induction words generalizing index with
  | nil => cases there
  | cons first words ih =>
      rw [ByteOrder.wordsBytes_cons, List.append_assoc]
      cases index with
      | zero =>
          rw [← Option.some.inj there]
          exact wordAt_bytes order first _
      | succ index =>
          have front : 4 * (index + 1) = (order.bytes first).length + 4 * index := by
            rw [ByteOrder.length_bytes]
            omega
          rw [wordAt, front, List.drop_length_add_append]
          exact ih there

end CcdController
