import CcdController.Proofs.WordReading
import CcdController.Status.Stream

/-!
Streams of status packets seen from the first byte on. After any bytes and any number of statuses a
stream is `StatusStream.reached`, which depends on nothing else: not on the pieces in which the
bytes came, and not on when they were decoded. `next_of_reached` says what is decoded there, and
`next_cases` splits it by what lies at the next packet.
-/
namespace CcdController

namespace Status

variable {order : ByteOrder} {bytes : List UInt8} {position : Nat}

theorem read_of_wordAt_none (short : wordAt order bytes position = none) :
    ∃ missing, read order (bytes.drop position) = .error (.incomplete missing) := by
  have word := readWord_drop order bytes position
  rw [short] at word
  obtain ⟨⟨missing, cut⟩, -⟩ := word
  refine ⟨missing, ?_⟩
  rw [read, cut]
  rfl

theorem read_of_wordAt {word : UInt32} (found : wordAt order bytes position = some word) :
    read order (bytes.drop position) =
      match ofCode? word with
      | none => .error (.status (bytes.drop position))
      | some status => .ok (status, bytes.drop (position + 4)) := by
  have there := readWord_drop order bytes position
  rw [found] at there
  rw [read, there.1]
  rfl

end Status

/-- Bytes from one packet to the next. A packet holds its status word, however short it should be. -/
def stride (packetLength : Nat) : Nat := max packetLength 4

namespace StatusStream

variable {order : ByteOrder} {packetLength count : Nat} {received : List UInt8}

/-- A stream to which `received` was fed and from which `count` statuses were taken. -/
def reached (order : ByteOrder) (packetLength : Nat) (received : List UInt8) (count : Nat) :
    StatusStream where
  order
  packetLength
  skip := count * stride packetLength - received.length
  pending := received.drop (count * stride packetLength)

theorem reached_start (order : ByteOrder) (packetLength : Nat) :
    reached order packetLength [] 0 = start order packetLength := by
  simp [reached, start]

/-- Padding and packets that have arrived since are taken up when padding is dropped. -/
theorem dropPadding_feed (bytes : List UInt8) :
    ((reached order packetLength received count).feed bytes).dropPadding =
      reached order packetLength (received ++ bytes) count := by
  simp only [reached, feed, dropPadding, StatusStream.mk.injEq, true_and]
  constructor
  · simp only [List.length_append, List.length_drop]
    omega
  · have split : (received ++ bytes).drop (count * stride packetLength) =
        received.drop (count * stride packetLength) ++
          bytes.drop (count * stride packetLength - received.length) := List.drop_append
    rw [split]
    rcases Nat.le_total received.length (count * stride packetLength) with short | long
    · rw [List.drop_eq_nil_of_le short, List.nil_append, List.nil_append]
    · rw [Nat.sub_eq_zero_of_le long, List.drop_zero, List.drop_zero]

theorem dropPadding_reached (order : ByteOrder) (packetLength : Nat) (received : List UInt8)
    (count : Nat) : (reached order packetLength received count).dropPadding =
      reached order packetLength received count := by
  have fed : ((reached order packetLength received count).feed []).dropPadding = _ :=
    dropPadding_feed []
  simpa [feed] using fed

theorem dropPadding_behind (long : count * stride packetLength + 4 ≤ received.length) :
    dropPadding ⟨order, packetLength, packetLength - 4,
        received.drop (count * stride packetLength + 4)⟩ =
      reached order packetLength received (count + 1) := by
  have padded : stride packetLength = 4 + (packetLength - 4) := by
    unfold stride
    omega
  simp only [reached, dropPadding, StatusStream.mk.injEq, true_and]
  rw [Nat.succ_mul]
  constructor
  · rw [List.length_drop]
    omega
  · rw [List.drop_drop]
    congr 1
    omega

theorem next_of_reached {stream : StatusStream}
    (at_point : stream.dropPadding = reached order packetLength received count) :
    stream.next =
      match wordAt order received (count * stride packetLength) with
      | none => (.ok none, reached order packetLength received count)
      | some word =>
          match Status.ofCode? word with
          | none => (.error (.invalidData .statusWord), reached order packetLength received count)
          | some status => (.ok (some status), reached order packetLength received (count + 1)) := by
  have source : (reached order packetLength received count).order = order := rfl
  have waiting : (reached order packetLength received count).pending =
      received.drop (count * stride packetLength) := rfl
  simp only [next, at_point, source, waiting]
  cases found : wordAt order received (count * stride packetLength) with
  | none =>
      obtain ⟨missing, cut⟩ := Status.read_of_wordAt_none found
      simp only [cut, ite_self]
  | some word =>
      have long : count * stride packetLength + 4 ≤ received.length :=
        Nat.not_lt.mp fun short =>
          absurd (wordAt_eq_none_iff.mpr short) (by rw [found]; exact Option.some_ne_none word)
      have arrived : ¬ 0 < (reached order packetLength received count).skip := by
        simp only [reached]
        omega
      rw [if_neg arrived, Status.read_of_wordAt found]
      cases known : Status.ofCode? word with
      | none => simp only [known]
      | some status =>
          simp only [known]
          exact Prod.ext rfl (dropPadding_behind long)

section

variable {stream left : StatusStream}
  (at_point : stream.dropPadding = reached order packetLength received count)

include at_point

/-- What is decoded next, and what is left then, by the word at the next packet. -/
theorem next_cases :
    (wordAt order received (count * stride packetLength) = none ∧
      stream.next = (.ok none, reached order packetLength received count)) ∨
    (∃ word, wordAt order received (count * stride packetLength) = some word ∧
      (∀ status : Status, word ≠ status.code) ∧
      stream.next =
        (.error (.invalidData .statusWord), reached order packetLength received count)) ∨
    ∃ status : Status, wordAt order received (count * stride packetLength) = some status.code ∧
      stream.next = (.ok (some status), reached order packetLength received (count + 1)) := by
  rw [next_of_reached at_point]
  cases wordAt order received (count * stride packetLength) with
  | none => exact .inl ⟨rfl, rfl⟩
  | some word =>
      cases known : Status.ofCode? word with
      | none => exact .inr (.inl ⟨word, rfl, Status.ofCode?_eq_none_iff.mp known, by simp only [known]⟩)
      | some status =>
          have code : word = status.code := (Status.ofCode?_eq_some_iff.mp known).symm
          exact .inr (.inr ⟨status, congrArg some code, by simp only [known]⟩)

theorem short_of_next (next_eq : stream.next = (.ok none, left)) :
    wordAt order received (count * stride packetLength) = none ∧
      left = reached order packetLength received count := by
  rcases next_cases at_point with ⟨found, next⟩ | ⟨_, _, _, next⟩ | ⟨_, _, next⟩
  · exact ⟨found, (Prod.mk.inj (next_eq.symm.trans next)).2⟩
  · cases next_eq.symm.trans next
  · cases next_eq.symm.trans next

theorem word_of_next {status : Status} (next_eq : stream.next = (.ok (some status), left)) :
    wordAt order received (count * stride packetLength) = some status.code ∧
      left = reached order packetLength received (count + 1) := by
  rcases next_cases at_point with ⟨_, next⟩ | ⟨_, _, _, next⟩ | ⟨_, found, next⟩
  · cases next_eq.symm.trans next
  · cases next_eq.symm.trans next
  · cases next_eq.symm.trans next
    exact ⟨found, rfl⟩

end

theorem last_of_next_none {stream left : StatusStream} (next_eq : stream.next = (.ok none, left)) :
    stream.last = (if left.pending = [] then .ok none else .error .cutShort, left) := by
  simp only [last, next_eq]
  by_cases empty : left.pending = []
  · rw [if_pos empty, if_pos empty]
  · rw [if_neg empty, if_neg empty]

end StatusStream

end CcdController
