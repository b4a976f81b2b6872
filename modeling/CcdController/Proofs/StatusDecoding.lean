import CcdController.Proofs.StatusPackets

/-!
Status streams in use: bytes are fed and statuses are asked for in any order. What a stream gives
depends on the bytes fed and on the number of statuses it has returned, and on nothing else. Each
call keeps `StreamRun.Aligned`, from which `Decodes` follows.
-/
namespace CcdController

inductive StreamCall where
  | feed (bytes : List UInt8)
  | next
  | last
  deriving DecidableEq, Repr

structure StreamRun where
  stream : StatusStream
  fed : List UInt8
  returned : List Status

def answered {ε : Type} : Except ε (Option Status) → List Status
  | .ok (some status) => [status]
  | _ => []

namespace StreamRun

def start (order : ByteOrder) (packetLength : Nat) : StreamRun :=
  ⟨.start order packetLength, [], []⟩

def call (run : StreamRun) : StreamCall → StreamRun
  | .feed bytes => { run with stream := run.stream.feed bytes, fed := run.fed ++ bytes }
  | .next =>
      { run with
        stream := run.stream.next.2
        returned := run.returned ++ answered run.stream.next.1 }
  | .last =>
      { run with
        stream := run.stream.last.2
        returned := run.returned ++ answered run.stream.last.1 }

def calls (run : StreamRun) (made : List StreamCall) : StreamRun := made.foldl call run

end StreamRun

/-- What a stream gives that was fed with `fed` and has returned `count` statuses, the packets being
`packet` bytes apart. -/
structure Decodes (order : ByteOrder) (packet : Nat) (fed : List UInt8) (count : Nat)
    (stream : StatusStream) : Prop where
  status_iff : ∀ status, stream.next.1 = .ok (some status) ↔
    count * packet + 4 ≤ fed.length ∧ wordAt order fed (count * packet) = some status.code
  unknown_iff : ∀ fault, stream.next.1 = .error fault ↔
    fault = .invalidData .statusWord ∧ ∃ word, wordAt order fed (count * packet) = some word ∧
      ∀ status : Status, word ≠ status.code
  short_iff : stream.next.1 = .ok none ↔ fed.length < count * packet + 4
  pending_eq : stream.next.2.pending =
    fed.drop ((count + (answered stream.next.1).length) * packet)
  last_stream : stream.last.2 = stream.next.2
  last_status_iff : ∀ status, stream.last.1 = .ok (some status) ↔ stream.next.1 = .ok (some status)
  last_unknown_iff : ∀ fault, stream.last.1 = .error (.fault fault) ↔ stream.next.1 = .error fault
  last_cutShort_iff : stream.last.1 = .error .cutShort ↔
    stream.next.1 = .ok none ∧ 1 ≤ stream.last.2.pending.length ∧ stream.last.2.pending.length ≤ 3
  last_none_iff : stream.last.1 = .ok none ↔
    stream.next.1 = .ok none ∧ stream.last.2.pending = []

namespace StatusStream

variable {order : ByteOrder} {packetLength count : Nat} {fed : List UInt8} {stream : StatusStream}

/-- Padding can be dropped before bytes are fed or with them. -/
theorem dropPadding_feed_dropPadding (stream : StatusStream) (bytes : List UInt8) :
    (stream.dropPadding.feed bytes).dropPadding = (stream.feed bytes).dropPadding := by
  simp only [feed, dropPadding, StatusStream.mk.injEq, true_and]
  constructor
  · simp only [List.length_append, List.length_drop]
    omega
  · rw [List.drop_append, List.drop_append]
    rcases Nat.le_total stream.skip stream.pending.length with arrived | missing
    · rw [Nat.sub_eq_zero_of_le arrived, Nat.zero_sub, List.drop_zero]
    · rw [List.drop_eq_nil_of_le missing, List.drop_nil, List.length_nil, Nat.sub_zero]

theorem next_eq_status_iff (at_point : stream.dropPadding = reached order packetLength fed count)
    (status : Status) : stream.next.1 = .ok (some status) ↔
      wordAt order fed (count * stride packetLength) = some status.code := by
  rcases next_cases at_point with ⟨found, next⟩ | ⟨word, found, unknown, next⟩ | ⟨other, found, next⟩
  · simp [found, next]
  · simp [found, next, unknown]
  · have same : other = status ↔ other.code = status.code :=
      ⟨congrArg Status.code, Status.code_injective⟩
    simp [found, next, same]

theorem next_eq_error_iff (at_point : stream.dropPadding = reached order packetLength fed count)
    (fault : Fault) : stream.next.1 = .error fault ↔
      fault = .invalidData .statusWord ∧
        ∃ word, wordAt order fed (count * stride packetLength) = some word ∧
          ∀ status : Status, word ≠ status.code := by
  rcases next_cases at_point with ⟨found, next⟩ | ⟨word, found, unknown, next⟩ | ⟨other, found, next⟩
  · simp [found, next]
  · simp [found, next, unknown, eq_comm]
  · rw [next, found]
    constructor
    · intro refused
      cases refused
    · intro absent
      obtain ⟨-, word, same, unknown⟩ := absent
      exact absurd (Option.some.inj same).symm (unknown other)

theorem next_eq_none_iff (at_point : stream.dropPadding = reached order packetLength fed count) :
    stream.next.1 = .ok none ↔ wordAt order fed (count * stride packetLength) = none := by
  rcases next_cases at_point with ⟨found, next⟩ | ⟨word, found, unknown, next⟩ | ⟨other, found, next⟩
  · simp [found, next]
  · simp [found, next]
  · simp [found, next]

theorem next_stream (at_point : stream.dropPadding = reached order packetLength fed count) :
    stream.next.2 =
      reached order packetLength fed (count + (answered stream.next.1).length) := by
  rcases next_cases at_point with ⟨found, next⟩ | ⟨word, found, unknown, next⟩ | ⟨other, found, next⟩
  all_goals
    rw [next]
    rfl

theorem last_stream_eq (stream : StatusStream) : stream.last.2 = stream.next.2 := by
  rcases next_eq : stream.next with ⟨fault | _ | status, left⟩
  · simp only [last, next_eq]
  · rw [last_of_next_none next_eq]
  · simp only [last, next_eq]

/-- The end of the bytes makes a difference only where a status has not arrived. -/
theorem last_result_eq (stream : StatusStream) : stream.last.1 =
    match stream.next.1 with
    | .error fault => .error (.fault fault)
    | .ok (some status) => .ok (some status)
    | .ok none => if stream.last.2.pending = [] then .ok none else .error .cutShort := by
  rw [last_stream_eq]
  rcases next_eq : stream.next with ⟨fault | _ | status, left⟩
  · simp only [last, next_eq]
  · rw [last_of_next_none next_eq]
  · simp only [last, next_eq]

section

variable (stream : StatusStream)

theorem last_eq_status_iff (status : Status) :
    stream.last.1 = .ok (some status) ↔ stream.next.1 = .ok (some status) := by
  rw [last_result_eq]
  rcases stream.next.1 with fault | _ | other
  · simp
  · by_cases empty : stream.last.2.pending = [] <;> simp [empty]
  · simp

theorem last_eq_fault_iff (fault : Fault) :
    stream.last.1 = .error (.fault fault) ↔ stream.next.1 = .error fault := by
  rw [last_result_eq]
  rcases stream.next.1 with other | _ | status
  · simp
  · by_cases empty : stream.last.2.pending = [] <;> simp [empty]
  · simp

theorem last_eq_cutShort_iff :
    stream.last.1 = .error .cutShort ↔ stream.next.1 = .ok none ∧ stream.last.2.pending ≠ [] := by
  rw [last_result_eq]
  rcases stream.next.1 with fault | _ | status
  · simp
  · simp
  · simp

theorem last_eq_none_iff :
    stream.last.1 = .ok none ↔ stream.next.1 = .ok none ∧ stream.last.2.pending = [] := by
  rw [last_result_eq]
  rcases stream.next.1 with fault | _ | status
  · simp
  · simp
  · simp

theorem answered_last : answered stream.last.1 = answered stream.next.1 := by
  rw [last_result_eq]
  rcases stream.next.1 with fault | _ | status
  · rfl
  · by_cases empty : stream.last.2.pending = [] <;> simp [empty, answered]
  · rfl

end

theorem length_pending_lt (at_point : stream.dropPadding = reached order packetLength fed count)
    (short : stream.next.1 = .ok none) : stream.next.2.pending.length < 4 := by
  have missing := wordAt_eq_none_iff.mp ((next_eq_none_iff at_point).mp short)
  rw [next_stream at_point, short]
  change (fed.drop (count * stride packetLength)).length < 4
  rw [List.length_drop]
  omega

theorem decodes_of_reached (at_point : stream.dropPadding = reached order packetLength fed count) :
    Decodes order (stride packetLength) fed count stream where
  status_iff := by
    intro status
    rw [next_eq_status_iff at_point]
    constructor
    · intro found
      have arrived : ¬ fed.length < count * stride packetLength + 4 := by
        intro short
        have missing : wordAt order fed (count * stride packetLength) = none :=
          wordAt_eq_none_iff.mpr short
        rw [missing] at found
        cases found
      exact ⟨Nat.not_lt.mp arrived, found⟩
    · exact And.right
  unknown_iff := next_eq_error_iff at_point
  short_iff := (next_eq_none_iff at_point).trans wordAt_eq_none_iff
  pending_eq := congrArg pending (next_stream at_point)
  last_stream := last_stream_eq stream
  last_status_iff := last_eq_status_iff stream
  last_unknown_iff := last_eq_fault_iff stream
  last_cutShort_iff := by
    rw [last_eq_cutShort_iff]
    apply and_congr_right
    intro short
    have few := length_pending_lt at_point short
    rw [last_stream_eq, ← List.length_pos_iff]
    omega
  last_none_iff := last_eq_none_iff stream

end StatusStream

namespace StreamRun

variable {order : ByteOrder} {packetLength : Nat} {run : StreamRun}

/-- The stream is at the packet that follows those returned, but for padding to be dropped. -/
def Aligned (order : ByteOrder) (packetLength : Nat) (run : StreamRun) : Prop :=
  run.stream.dropPadding = .reached order packetLength run.fed run.returned.length

theorem aligned_start : (start order packetLength).Aligned order packetLength := by
  unfold Aligned start
  rw [← StatusStream.reached_start]
  exact StatusStream.dropPadding_reached order packetLength [] 0

theorem Aligned.call (aligned : run.Aligned order packetLength) (made : StreamCall) :
    (run.call made).Aligned order packetLength := by
  unfold Aligned at aligned ⊢
  cases made with
  | feed bytes =>
      change (run.stream.feed bytes).dropPadding = _
      rw [← StatusStream.dropPadding_feed_dropPadding, aligned]
      exact StatusStream.dropPadding_feed bytes
  | next =>
      change run.stream.next.2.dropPadding = _
      rw [StatusStream.next_stream aligned, StatusStream.dropPadding_reached]
      simp only [StreamRun.call, List.length_append]
  | last =>
      change run.stream.last.2.dropPadding = _
      rw [StatusStream.last_stream_eq, StatusStream.next_stream aligned,
        StatusStream.dropPadding_reached]
      simp only [StreamRun.call, List.length_append, StatusStream.answered_last]

theorem Aligned.calls (aligned : run.Aligned order packetLength) (made : List StreamCall) :
    (run.calls made).Aligned order packetLength := by
  induction made generalizing run with
  | nil => exact aligned
  | cons first rest ih => exact ih (aligned.call first)

/-- After any calls a stream gives what lies at the packet that follows those returned. -/
theorem decodes_after_calls (order : ByteOrder) (packetLength : Nat) (made : List StreamCall) :
    Decodes order (stride packetLength) ((start order packetLength).calls made).fed
      ((start order packetLength).calls made).returned.length
      ((start order packetLength).calls made).stream :=
  StatusStream.decodes_of_reached (aligned_start.calls made)

end StreamRun

end CcdController
