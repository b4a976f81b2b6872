import CcdController.Proofs.StatusDecoding
import CcdController.Session

/-!
Exchanges seen from the link: which calls writing in full, waiting for a status and a whole exchange can
make, with what they come to and the status stream they leave. The relations follow the operations
call by call and hold of every session and of everything a link may have in store.
-/
namespace CcdController

namespace Call

def IsWrite : Call → Prop
  | write _ _ => True
  | _ => False

def IsRead : Call → Prop
  | read _ _ => True
  | _ => False

/-- The failure that ends the way out: of a write that is not tried again, of a write that accepts nothing,
or of the flush. -/
def breach : Call → Option LinkFailure
  | write _ (.error failure) => if failure.interrupted then none else some failure
  | write _ (.ok []) => some Link.fullFailure
  | flush (.error failure) => some failure
  | _ => none

def stops : Call → Option Fault
  | read _ (.error failure) => some (.link failure.text)
  | read _ (.ok []) => some .unexpectedEnd
  | call => call.breach.map fun failure => .link failure.text

def accepted : Call → List UInt8
  | write _ (.ok bytes) => bytes
  | _ => []

def delivered : Call → List UInt8
  | read _ (.ok bytes) => bytes
  | _ => []

theorem stops_of_breach {call : Call} {failure : LinkFailure} (met : call.breach = some failure) :
    call.stops = some (.link failure.text) := by
  cases call with
  | read room outcome => cases met
  | write offered outcome => simp [stops, met]
  | flush outcome => simp [stops, met]

theorem accepted_of_isRead {call : Call} (read : call.IsRead) : call.accepted = [] := by
  cases call with
  | read room outcome => rfl
  | write offered outcome => exact read.elim
  | flush outcome => exact read.elim

theorem flatMap_accepted_of_isRead {reads : List Call} (reading : ∀ call ∈ reads, call.IsRead) :
    reads.flatMap accepted = [] :=
  List.flatMap_eq_nil_iff.mpr fun call member => accepted_of_isRead (reading call member)

theorem not_isRead_of_isWrite {call : Call} (write : call.IsWrite) : ¬ call.IsRead := by
  cases call with
  | read room outcome => exact write.elim
  | write offered outcome => exact not_false
  | flush outcome => exact not_false

theorem delivered_of_not_isRead {call : Call} (other : ¬ call.IsRead) : call.delivered = [] := by
  cases call with
  | read room outcome => exact absurd trivial other
  | write offered outcome => rfl
  | flush outcome => rfl

end Call

inductive Writes : List UInt8 → List Call → Except LinkFailure Unit → Prop
  | done : Writes [] [] (.ok ())
  | interrupted {offered : List UInt8} {failure : LinkFailure} {calls : List Call}
      {outcome : Except LinkFailure Unit} (some : offered ≠ []) (again : failure.interrupted = true)
      (later : Writes offered calls outcome) :
      Writes offered (.write offered (.error failure) :: calls) outcome
  | failed {offered : List UInt8} {failure : LinkFailure} (some : offered ≠ [])
      (final : failure.interrupted = false) :
      Writes offered [.write offered (.error failure)] (.error failure)
  | full {offered : List UInt8} (some : offered ≠ []) :
      Writes offered [.write offered (.ok [])] (.error Link.fullFailure)
  | accepted {bytes rest : List UInt8} {calls : List Call} {outcome : Except LinkFailure Unit}
      (some : bytes ≠ []) (later : Writes rest calls outcome) :
      Writes (bytes ++ rest) (.write (bytes ++ rest) (.ok bytes) :: calls) outcome

/-- The reads that wait for a status, what they come to and the stream that is left. There is no read
while the stream holds a status. -/
inductive Awaits : StatusStream → List Call → Except Fault Status → StatusStream → Prop
  | status {stream after : StatusStream} {status : Status}
      (next : stream.next = (.ok (some status), after)) : Awaits stream [] (.ok status) after
  | unknown {stream after : StatusStream} {fault : Fault} (next : stream.next = (.error fault, after)) :
      Awaits stream [] (.error fault) after
  | failed {stream after : StatusStream} {room : Nat} {failure : LinkFailure}
      (next : stream.next = (.ok none, after)) :
      Awaits stream [.read room (.error failure)] (.error (.link failure.text)) after
  | ended {stream after : StatusStream} {room : Nat} (next : stream.next = (.ok none, after)) :
      Awaits stream [.read room (.ok [])] (.error .unexpectedEnd) after
  | more {stream between after : StatusStream} {room : Nat} {bytes : List UInt8} {reads : List Call}
      {outcome : Except Fault Status} (next : stream.next = (.ok none, between)) (some : bytes ≠ [])
      (later : Awaits (between.feed bytes) reads outcome after) :
      Awaits stream (.read room (.ok bytes) :: reads) outcome after

inductive Transmits (order : ByteOrder) (command : Command) : List Call → Except Fault Unit → Prop
  | unwritten {calls : List Call} {failure : LinkFailure}
      (writes : Writes (command.encode order) calls (.error failure)) :
      Transmits order command calls (.error (.link failure.text))
  | unflushed {calls : List Call} {failure : LinkFailure}
      (writes : Writes (command.encode order) calls (.ok ())) :
      Transmits order command (calls ++ [.flush (.error failure)]) (.error (.link failure.text))
  | done {calls : List Call} (writes : Writes (command.encode order) calls (.ok ())) :
      Transmits order command (calls ++ [.flush (.ok ())]) (.ok ())

inductive Exchanges (order : ByteOrder) (command : Command) (stream : StatusStream) :
    List Call → Except Fault Status → StatusStream → Prop
  | unsent {calls : List Call} {fault : Fault}
      (transmits : Transmits order command calls (.error fault)) :
      Exchanges order command stream calls (.error fault) stream
  | sent {calls reads : List Call} {outcome : Except Fault Status} {after : StatusStream}
      (transmits : Transmits order command calls (.ok ()))
      (awaits : Awaits stream reads outcome after) :
      Exchanges order command stream (calls ++ reads) outcome after

namespace Writes

variable {offered : List UInt8} {calls : List Call} {outcome : Except LinkFailure Unit}

theorem isWrite (writes : Writes offered calls outcome) : ∀ call ∈ calls, call.IsWrite := by
  induction writes with
  | done => exact fun call member => absurd member List.not_mem_nil
  | interrupted _ _ _ ih => exact List.forall_mem_cons.mpr ⟨trivial, ih⟩
  | failed _ _ => exact List.forall_mem_singleton.mpr trivial
  | full _ => exact List.forall_mem_singleton.mpr trivial
  | accepted _ _ ih => exact List.forall_mem_cons.mpr ⟨trivial, ih⟩

theorem accepted_append (writes : Writes offered calls outcome) :
    ∃ rest, calls.flatMap Call.accepted ++ rest = offered ∧ (outcome = .ok () ↔ rest = []) := by
  induction writes with
  | done => exact ⟨[], rfl, Iff.rfl.trans (by simp)⟩
  | interrupted _ _ _ ih => exact ih
  | @failed offered _ some _ => exact ⟨offered, rfl, by simp [some]⟩
  | @full offered some => exact ⟨offered, rfl, by simp [some]⟩
  | accepted _ _ ih =>
      obtain ⟨rest, split, done_iff⟩ := ih
      refine ⟨rest, ?_, done_iff⟩
      rw [List.flatMap_cons, List.append_assoc, split]
      rfl

theorem accepted_prefix (writes : Writes offered calls outcome) :
    calls.flatMap Call.accepted <+: offered := by
  obtain ⟨rest, split, -⟩ := writes.accepted_append
  exact ⟨rest, split⟩

theorem accepted_eq (written : Writes offered calls (.ok ())) :
    calls.flatMap Call.accepted = offered := by
  obtain ⟨rest, split, done_iff⟩ := written.accepted_append
  rw [done_iff.mp rfl, List.append_nil] at split
  exact split

theorem fault_last {failure : LinkFailure} (writes : Writes offered calls (.error failure)) :
    ∃ front call, calls = front ++ [call] ∧ call.breach = some failure := by
  generalize failed : Except.error failure = outcome at writes
  induction writes with
  | done => cases failed
  | interrupted _ _ _ ih =>
      obtain ⟨front, call, split, breach⟩ := ih failed
      exact ⟨_ :: front, call, congrArg (_ :: ·) split, breach⟩
  | failed _ final =>
      cases failed
      exact ⟨[], _, rfl, by simp [Call.breach, final]⟩
  | full _ =>
      cases failed
      exact ⟨[], _, rfl, rfl⟩
  | accepted _ _ ih =>
      obtain ⟨front, call, split, breach⟩ := ih failed
      exact ⟨_ :: front, call, congrArg (_ :: ·) split, breach⟩

end Writes

theorem accepted_of_accept {offered bytes : List UInt8} {writes : List Acceptance}
    (met : (accept offered writes).1 = .ok bytes) : bytes ++ offered.drop bytes.length = offered := by
  apply List.prefix_iff_eq_append.mp
  match writes with
  | [] =>
      cases met
      exact List.prefix_refl offered
  | .failure failure :: later => cases met
  | .upTo count :: later =>
      cases met
      exact List.take_prefix count offered

namespace Link

theorem calls_write {link : Link} {offered : List UInt8} {outcome : Except LinkFailure (List UInt8)}
    (met : (link.write offered).1 = outcome) :
    (link.write offered).2.calls = link.calls ++ [.write offered outcome] := by
  rw [← met]
  rfl

theorem calls_read {link : Link} {room : Nat} {outcome : Except LinkFailure (List UInt8)}
    (met : (link.read room).1 = outcome) :
    (link.read room).2.calls = link.calls ++ [.read room outcome] := by
  rw [← met]
  rfl

theorem calls_flush {link : Link} {outcome : Except LinkFailure Unit}
    (met : link.flush.1 = outcome) : link.flush.2.calls = link.calls ++ [.flush outcome] := by
  rw [← met]
  rfl

theorem writes_writeAll (link : Link) (offered : List UInt8) : ∃ calls,
    (link.writeAll offered).2.calls = link.calls ++ calls ∧
    Writes offered calls (link.writeAll offered).1 := by
  fun_induction Link.writeAll link offered with
  | case1 link => exact ⟨[], (List.append_nil _).symm, .done⟩
  | case2 link offered some failure met interrupted ih =>
      obtain ⟨calls, made, writes⟩ := ih
      refine ⟨.write offered (.error failure) :: calls, ?_, .interrupted some interrupted writes⟩
      rw [made, calls_write met, List.append_assoc, List.singleton_append]
  | case3 link offered some failure met final =>
      refine ⟨[.write offered (.error failure)], calls_write met, .failed some ?_⟩
      exact Bool.eq_false_iff.mpr final
  | case4 link offered some met =>
      exact ⟨[.write offered (.ok [])], calls_write met, .full some⟩
  | case5 link offered some accepted met full ih =>
      obtain ⟨calls, made, writes⟩ := ih
      refine ⟨.write offered (.ok accepted) :: calls, ?_, ?_⟩
      · rw [made, calls_write met, List.append_assoc, List.singleton_append]
      · have split : accepted ++ offered.drop accepted.length = offered := accepted_of_accept met
        have grown := Writes.accepted full writes
        rw [split] at grown
        exact grown

end Link

namespace StatusStream

variable {stream left : StatusStream}

@[simp]
theorem dropPadding_dropPadding (stream : StatusStream) :
    stream.dropPadding.dropPadding = stream.dropPadding := by
  have fed := dropPadding_feed_dropPadding stream []
  simpa [feed] using fed

theorem next_congr {other : StatusStream} (same : stream.dropPadding = other.dropPadding) :
    stream.next = other.next := by
  unfold next
  rw [same]

theorem left_of_next_none (next_eq : stream.next = (.ok none, left)) : left = stream.dropPadding := by
  unfold next at next_eq
  simp only at next_eq
  split at next_eq
  · exact (Prod.mk.inj next_eq).2.symm
  · split at next_eq
    · exact (Prod.mk.inj next_eq).2.symm
    · cases next_eq
    · cases next_eq

/-- Asking for a status that is not there yet makes no difference to what is decoded later. -/
theorem next_feed_of_next_none (next_eq : stream.next = (.ok none, left)) (bytes : List UInt8) :
    (left.feed bytes).next = (stream.feed bytes).next := by
  rw [left_of_next_none next_eq]
  exact next_congr (dropPadding_feed_dropPadding stream bytes)

theorem next_of_next_none (next_eq : stream.next = (.ok none, left)) :
    left.next = (.ok none, left) := by
  rw [← next_eq, left_of_next_none next_eq]
  exact next_congr (dropPadding_dropPadding stream)

@[simp]
theorem feed_nil (stream : StatusStream) : stream.feed [] = stream := by
  simp [feed]

@[simp]
theorem feed_feed (stream : StatusStream) (front back : List UInt8) :
    (stream.feed front).feed back = stream.feed (front ++ back) := by
  simp [feed]

theorem fault_of_next {fault : Fault} (next_eq : stream.next = (.error fault, left)) :
    fault = .invalidData .statusWord := by
  unfold next at next_eq
  simp only at next_eq
  split at next_eq
  · cases next_eq
  · split at next_eq
    · cases next_eq
    · exact (Except.error.inj (Prod.mk.inj next_eq).1).symm
    · cases next_eq

end StatusStream

namespace Awaits

variable {stream after : StatusStream} {reads : List Call} {outcome : Except Fault Status}

theorem isRead (awaits : Awaits stream reads outcome after) : ∀ call ∈ reads, call.IsRead := by
  induction awaits with
  | status _ => exact fun call member => absurd member List.not_mem_nil
  | unknown _ => exact fun call member => absurd member List.not_mem_nil
  | failed _ => exact List.forall_mem_singleton.mpr trivial
  | ended _ => exact List.forall_mem_singleton.mpr trivial
  | more _ _ _ ih => exact List.forall_mem_cons.mpr ⟨trivial, ih⟩

/-- The outcome and the stream that is left depend on all the bytes that were read, not on the pieces in
which they came. -/
theorem next_eq (awaits : Awaits stream reads outcome after) :
    (stream.feed (reads.flatMap Call.delivered)).next.2 = after ∧
    ∀ status, outcome = .ok status ↔
      (stream.feed (reads.flatMap Call.delivered)).next.1 = .ok (some status) := by
  induction awaits with
  | status next =>
      rw [List.flatMap_nil, StatusStream.feed_nil, next]
      exact ⟨rfl, by simp⟩
  | unknown next =>
      rw [List.flatMap_nil, StatusStream.feed_nil, next]
      exact ⟨rfl, by simp⟩
  | @failed stream after room failure next =>
      have nothing : [Call.read room (.error failure)].flatMap Call.delivered = [] := rfl
      rw [nothing, StatusStream.feed_nil, next]
      exact ⟨rfl, by simp⟩
  | @ended stream after room next =>
      have nothing : [Call.read room (.ok [])].flatMap Call.delivered = [] := rfl
      rw [nothing, StatusStream.feed_nil, next]
      exact ⟨rfl, by simp⟩
  | more next _ _ ih =>
      rw [StatusStream.feed_feed, StatusStream.next_feed_of_next_none next] at ih
      exact ih

theorem fault_cases {fault : Fault} (awaits : Awaits stream reads (.error fault) after) :
    (∃ text, fault = .link text) ∨ fault = .unexpectedEnd ∨ fault = .invalidData .statusWord := by
  generalize ended : Except.error fault = outcome at awaits
  induction awaits with
  | status next => cases ended
  | unknown next =>
      cases ended
      exact .inr (.inr (StatusStream.fault_of_next next))
  | failed next =>
      cases ended
      exact .inl ⟨_, rfl⟩
  | ended next =>
      cases ended
      exact .inr (.inl rfl)
  | more _ _ _ ih => exact ih ended

end Awaits

namespace Transmits

variable {order : ByteOrder} {command : Command} {calls : List Call} {outcome : Except Fault Unit}

theorem accepted_prefix (transmits : Transmits order command calls outcome) :
    calls.flatMap Call.accepted <+: command.encode order := by
  have flushed (writes : List Call) (outcome : Except LinkFailure Unit) :
      (writes ++ [Call.flush outcome]).flatMap Call.accepted = writes.flatMap Call.accepted := by
    rw [List.flatMap_append]
    exact List.append_nil _
  cases transmits with
  | unwritten writes => exact writes.accepted_prefix
  | unflushed writes =>
      rw [flushed]
      exact writes.accepted_prefix
  | done writes =>
      rw [flushed]
      exact writes.accepted_prefix

theorem flush_notMem {fault : Fault} (transmits : Transmits order command calls (.error fault)) :
    Call.flush (.ok ()) ∉ calls := by
  intro member
  cases transmits with
  | unwritten writes => exact writes.isWrite _ member
  | unflushed writes =>
      rcases List.mem_append.mp member with early | last
      · exact writes.isWrite _ early
      · cases List.mem_singleton.mp last

theorem not_isRead (transmits : Transmits order command calls outcome) :
    ∀ call ∈ calls, ¬ call.IsRead := by
  have writing {writes : List Call} (all : ∀ call ∈ writes, call.IsWrite) :
      ∀ call ∈ writes, ¬ call.IsRead :=
    fun call member => Call.not_isRead_of_isWrite (all call member)
  cases transmits with
  | unwritten writes => exact writing writes.isWrite
  | unflushed writes =>
      exact List.forall_mem_append.mpr
        ⟨writing writes.isWrite, List.forall_mem_singleton.mpr not_false⟩
  | done writes =>
      exact List.forall_mem_append.mpr
        ⟨writing writes.isWrite, List.forall_mem_singleton.mpr not_false⟩

theorem fault_last {fault : Fault} (transmits : Transmits order command calls (.error fault)) :
    ∃ front call, calls = front ++ [call] ∧ call.stops = some fault := by
  cases transmits with
  | @unwritten _ failure writes =>
      obtain ⟨front, call, split, breach⟩ := writes.fault_last
      exact ⟨front, call, split, Call.stops_of_breach breach⟩
  | unflushed writes => exact ⟨_, _, rfl, rfl⟩

theorem delivered_eq_nil (transmits : Transmits order command calls outcome) :
    calls.flatMap Call.delivered = [] :=
  List.flatMap_eq_nil_iff.mpr fun call member =>
    Call.delivered_of_not_isRead (transmits.not_isRead call member)

end Transmits

namespace Exchanges

variable {order : ByteOrder} {command : Command} {stream after : StatusStream} {calls : List Call}
  {outcome : Except Fault Status}

theorem accepted_prefix (exchanges : Exchanges order command stream calls outcome after) :
    calls.flatMap Call.accepted <+: command.encode order := by
  cases exchanges with
  | unsent transmits => exact transmits.accepted_prefix
  | sent transmits awaits =>
      rw [List.flatMap_append, Call.flatMap_accepted_of_isRead awaits.isRead, List.append_nil]
      exact transmits.accepted_prefix

/-- Before an answer the command is written in full and flushed. -/
theorem transmitted_of_ok {status : Status}
    (exchanges : Exchanges order command stream calls (.ok status) after) :
    ∃ writes reads, calls = writes ++ .flush (.ok ()) :: reads ∧ (∀ call ∈ writes, call.IsWrite) ∧
      writes.flatMap Call.accepted = command.encode order ∧ ∀ call ∈ reads, call.IsRead := by
  cases exchanges with
  | sent transmits awaits =>
      cases transmits with
      | done writes =>
          refine ⟨_, _, ?_, writes.isWrite, writes.accepted_eq, awaits.isRead⟩
          rw [List.append_assoc, List.singleton_append]

theorem next_eq (exchanges : Exchanges order command stream calls outcome after)
    (flushed : Call.flush (.ok ()) ∈ calls) :
    (stream.feed (calls.flatMap Call.delivered)).next.2 = after ∧
    ∀ status, outcome = .ok status ↔
      (stream.feed (calls.flatMap Call.delivered)).next.1 = .ok (some status) := by
  cases exchanges with
  | unsent transmits => exact absurd flushed transmits.flush_notMem
  | sent transmits awaits =>
      rw [List.flatMap_append, transmits.delivered_eq_nil, List.nil_append]
      exact awaits.next_eq

theorem fault_cases {fault : Fault}
    (exchanges : Exchanges order command stream calls (.error fault) after) :
    (∃ text, fault = .link text) ∨ fault = .unexpectedEnd ∨ fault = .invalidData .statusWord := by
  cases exchanges with
  | unsent transmits => cases transmits <;> exact .inl ⟨_, rfl⟩
  | sent transmits awaits => exact awaits.fault_cases

end Exchanges

namespace Session

theorem lastStatus_of_short {session : Session} {stream : StatusStream}
    (short : stream.next = (.ok none, stream)) :
    session.lastStatus stream = (.error .unexpectedEnd, { session with stream }) := by
  rw [lastStatus, StatusStream.last_of_next_none short]
  by_cases empty : stream.pending = []
  · simp only [if_pos empty]
  · simp only [if_neg empty]

theorem awaits_receive (session : Session) : ∃ reads,
    session.receive.2.link.calls = session.link.calls ++ reads ∧
    Awaits session.stream reads session.receive.1 session.receive.2.stream ∧
    session.receive.2.order = session.order := by
  fun_induction receive session with
  | case1 session fault stream next_eq => exact ⟨[], (List.append_nil _).symm, .unknown next_eq, rfl⟩
  | case2 session status stream next_eq => exact ⟨[], (List.append_nil _).symm, .status next_eq, rfl⟩
  | case3 session stream next_eq failure met =>
      exact ⟨[.read session.responseLength (.error failure)], Link.calls_read met, .failed next_eq, rfl⟩
  | case4 session stream next_eq met =>
      rw [lastStatus_of_short (StatusStream.next_of_next_none next_eq)]
      exact ⟨[.read session.responseLength (.ok [])], Link.calls_read met, .ended next_eq, rfl⟩
  | case5 session stream next_eq bytes met some ih =>
      obtain ⟨reads, made, awaits, order_eq⟩ := ih
      refine ⟨.read session.responseLength (.ok bytes) :: reads, ?_, .more next_eq some awaits, order_eq⟩
      rw [made, Link.calls_read met, List.append_assoc, List.singleton_append]

theorem transmits_transmit (command : Command) (session : Session) : ∃ calls,
    (session.transmit command).2.link.calls = session.link.calls ++ calls ∧
    Transmits session.order command calls (session.transmit command).1 ∧
    (session.transmit command).2.stream = session.stream ∧
    (session.transmit command).2.order = session.order := by
  obtain ⟨calls, made, writes⟩ :=
    (session.announce command).link.writes_writeAll (command.encode (session.announce command).order)
  simp only [transmit]
  rcases ended : (session.announce command).link.writeAll
    (command.encode (session.announce command).order) with ⟨failure | ⟨⟩, link⟩
  · rw [ended] at made writes
    exact ⟨calls, made, .unwritten writes, rfl, rfl⟩
  · rw [ended] at made writes
    rcases flushed : link.flush with ⟨failure | ⟨⟩, after⟩
    · have flush_eq := Link.calls_flush (congrArg Prod.fst flushed)
      rw [flushed, made, List.append_assoc] at flush_eq
      simp only [flushed]
      exact ⟨_, flush_eq, .unflushed writes, rfl, rfl⟩
    · have flush_eq := Link.calls_flush (congrArg Prod.fst flushed)
      rw [flushed, made, List.append_assoc] at flush_eq
      simp only [flushed]
      exact ⟨_, flush_eq, .done writes, rfl, rfl⟩

/-- An exchange makes the calls of an exchange, whatever the session and the link are at. -/
theorem exchanges_exchange (command : Command) (session : Session) : ∃ calls,
    (session.exchange command).2.link.calls = session.link.calls ++ calls ∧
    Exchanges session.order command session.stream calls (session.exchange command).1
      (session.exchange command).2.stream ∧
    (session.exchange command).2.order = session.order := by
  obtain ⟨calls, made, transmits, stream_eq, order_eq⟩ := transmits_transmit command session
  rw [exchange]
  rcases transmitted : session.transmit command with ⟨fault | ⟨⟩, sent⟩
  · rw [transmitted] at made transmits stream_eq order_eq
    refine ⟨calls, made, ?_, order_eq⟩
    rw [stream_eq]
    exact .unsent transmits
  · rw [transmitted] at made transmits stream_eq order_eq
    obtain ⟨reads, read, awaits, kept⟩ := awaits_receive sent
    refine ⟨calls ++ reads, ?_, ?_, kept.trans order_eq⟩
    · rw [← List.append_assoc, ← made]
      exact read
    · rw [stream_eq] at awaits
      exact .sent transmits awaits

end Session

end CcdController
