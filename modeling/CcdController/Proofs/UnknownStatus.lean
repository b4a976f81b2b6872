import CcdController.Proofs.Attempts
import CcdController.Proofs.WriteSide

/-!
Unknown status words. A word that is no status stays at the front of the stream, and the stream stays
as it is whatever is done with the session from then on: commands still go out, but nothing is read
for them and each comes to the fault that the word comes to.

`Routine.attempts` tells what a run does with its session, one attempt after the other, and `Follow`
says that each starts where the one before it ended. What one attempt keeps, all of them keep.
-/
namespace CcdController

structure StatusStream.Stuck (stream : StatusStream) : Prop where
  skip_eq : stream.skip = 0
  unknown : ∃ word, wordAt stream.order stream.pending 0 = some word ∧
    ∀ status : Status, word ≠ status.code

example (later : List UInt8) : StatusStream.Stuck ⟨.big, 512, 0, 0 :: 0 :: 0 :: 7 :: later⟩ :=
  ⟨rfl, 7, rfl, fun status => by cases status <;> decide⟩

namespace StatusStream

variable {stream left : StatusStream}

theorem reached_of_skip {stream : StatusStream} (none : stream.skip = 0) :
    stream = reached stream.order stream.packetLength stream.pending 0 := by
  cases stream
  simpa [reached] using none

theorem skip_of_next_error {fault : Fault} (next_eq : stream.next = (.error fault, left)) :
    left = stream.dropPadding ∧ left.skip = 0 := by
  unfold next at next_eq
  simp only at next_eq
  split at next_eq
  · cases next_eq
  · next arrived =>
      split at next_eq
      · cases next_eq
      · cases next_eq
        exact ⟨rfl, Nat.eq_zero_of_not_pos arrived⟩
      · cases next_eq

theorem stuck_of_next {fault : Fault} (next_eq : stream.next = (.error fault, left)) :
    left.Stuck := by
  obtain ⟨rfl, none⟩ := skip_of_next_error next_eq
  rcases next_cases (reached_of_skip none) with ⟨-, next⟩ | ⟨word, found, unknown, -⟩ | ⟨_, -, next⟩
  · cases next_eq.symm.trans next
  · rw [Nat.zero_mul] at found
    exact ⟨none, word, found, unknown⟩
  · cases next_eq.symm.trans next

theorem Stuck.next_eq (stuck : stream.Stuck) :
    stream.next = (.error (.invalidData .statusWord), stream) := by
  obtain ⟨none, word, found, unknown⟩ := stuck
  have still : stream.dropPadding = stream := by
    cases stream
    simp only at none
    simp [dropPadding, none]
  have at_point := still.trans (reached_of_skip none)
  have there : wordAt stream.order stream.pending (0 * stride stream.packetLength) = some word := by
    rw [Nat.zero_mul]
    exact found
  rcases next_cases at_point with ⟨missing, -⟩ | ⟨_, -, -, next⟩ | ⟨status, known, -⟩
  · cases there.symm.trans missing
  · rw [next, ← reached_of_skip none]
  · exact absurd (Option.some.inj (there.symm.trans known)) (unknown status)

end StatusStream

namespace Awaits

variable {stream after : StatusStream} {reads : List Call} {outcome : Except Fault Status}

theorem stuck_of_unknown (awaits : Awaits stream reads outcome after)
    (unknown : outcome = .error (.invalidData .statusWord)) : after.Stuck := by
  induction awaits with
  | status _ => cases unknown
  | unknown next => exact StatusStream.stuck_of_next next
  | failed _ => cases unknown
  | ended _ => cases unknown
  | more _ _ _ ih => exact ih unknown

theorem of_stuck (awaits : Awaits stream reads outcome after) (stuck : stream.Stuck) :
    reads = [] ∧ outcome = .error (.invalidData .statusWord) ∧ after = stream := by
  have here := stuck.next_eq
  cases awaits with
  | unknown next =>
      cases here.symm.trans next
      exact ⟨rfl, rfl, rfl⟩
  | status next | failed next | ended next | more next => cases here.symm.trans next

end Awaits

namespace Exchanges

variable {order : ByteOrder} {command : Command} {stream after : StatusStream} {calls : List Call}
  {outcome : Except Fault Status}

theorem stuck_of_unknown
    (exchanges : Exchanges order command stream calls (.error (.invalidData .statusWord)) after) :
    after.Stuck := by
  cases exchanges with
  | unsent transmits => cases transmits
  | sent transmits awaits => exact awaits.stuck_of_unknown rfl

/-- At an unknown word an exchange only writes. It comes to the fault of the word, or fails before. -/
theorem of_stuck (exchanges : Exchanges order command stream calls outcome after)
    (stuck : stream.Stuck) : (∀ call ∈ calls, ¬ call.IsRead) ∧ after = stream ∧
      (Unbroken calls → outcome = .error (.invalidData .statusWord)) ∧
      ∃ fault, outcome = .error fault := by
  cases exchanges with
  | @unsent _ fault transmits =>
      refine ⟨transmits.not_isRead, rfl, ?_, fault, rfl⟩
      intro unbroken
      cases transmits.ok_iff.mpr unbroken
  | sent transmits awaits =>
      obtain ⟨rfl, rfl, rfl⟩ := awaits.of_stuck stuck
      rw [List.append_nil]
      exact ⟨transmits.not_isRead, rfl, fun _ => rfl, _, rfl⟩

end Exchanges

namespace Session

theorem send_of_error {command : Command} {session : Session} {fault : Fault}
    (failed : (session.exchange command).1 = .error fault) :
    session.send command = (.error fault, (session.exchange command).2) := by
  rw [send]
  rcases answered : session.exchange command with ⟨other | status, after⟩
  · rw [answered] at failed
    cases failed
    rfl
  · rw [answered] at failed
    cases failed

theorem exchange_of_send {command : Command} {session : Session} {fault : Fault}
    (failed : (session.send command).1 = .error fault)
    (other : ∀ status, fault ≠ .rejected status) :
    (session.exchange command).1 = .error fault := by
  rw [send] at failed
  rcases answered : session.exchange command with ⟨met | status, after⟩
  · rw [answered] at failed
    cases failed
    rfl
  · rw [answered] at failed
    cases status with
    | ok => cases failed
    | _ => exact absurd (Except.error.inj failed).symm (other _)

structure Denies (session : Session) (command : Command) (calls : List Call) : Prop where
  goesOut : GoesOut command session calls (session.exchange command)
  unread : ∀ call ∈ calls, ¬ call.IsRead
  unknown : Unbroken calls → (session.exchange command).1 = .error (.invalidData .statusWord)
  failed : ∃ fault, (session.exchange command).1 = .error fault ∧
    session.send command = (.error fault, (session.exchange command).2)

theorem denies_of_stuck {session : Session} (stuck : session.stream.Stuck) (command : Command) :
    ∃ calls, session.Denies command calls := by
  obtain ⟨calls, made, exchanges, -⟩ := session.exchanges_exchange command
  obtain ⟨unread, -, unknown, fault, failed⟩ := exchanges.of_stuck stuck
  exact ⟨calls, goesOut_exchange made exchanges, unread, unknown, fault, failed,
    send_of_error failed⟩

theorem stuck_of_unknown {session : Session} {command : Command}
    (unknown : (session.exchange command).1 = .error (.invalidData .statusWord)) :
    (session.exchange command).2.stream.Stuck := by
  obtain ⟨calls, -, exchanges, -⟩ := session.exchanges_exchange command
  rw [unknown] at exchanges
  exact exchanges.stuck_of_unknown

theorem readRaw_ne_unknown (room : Nat) (session : Session) :
    (session.readRaw room).1 ≠ .error (.invalidData .statusWord) := by
  intro unknown
  rw [readRaw] at unknown
  rcases met : session.link.read room with ⟨failure | bytes, link⟩
  · rw [met] at unknown
    cases unknown
  · rw [met] at unknown
    cases unknown

theorem startExposure_ne_unknown (program : Program) (stopCleaning readOut : String)
    (openShutter : Bool) (session : Session) :
    (session.startExposure program stopCleaning readOut openShutter).1 ≠
      .error (.invalidData .statusWord) := by
  intro unknown
  have starts := session.startsExposure program stopCleaning readOut openShutter
  by_cases firstIn : stopCleaning ∈ program.modeNames
  · by_cases secondIn : readOut ∈ program.modeNames
    · obtain ⟨first, second, calls, firstKnown, secondKnown, -⟩ := starts.sent firstIn secondIn
      rw [startExposure_of_known firstKnown secondKnown] at unknown
      obtain ⟨calls, -, transmits, -⟩ :=
        session.transmits_transmit (.getImage first second openShutter)
      rw [unknown] at transmits
      cases transmits
    · rw [starts.unknown_second firstIn secondIn] at unknown
      cases unknown
  · rw [starts.unknown_first firstIn] at unknown
    cases unknown

theorem stream_readRaw (room : Nat) (session : Session) :
    (session.readRaw room).2.stream = session.stream := by
  rw [readRaw]
  rcases session.link.read room with ⟨failure | bytes, link⟩
  · rfl
  · rfl

end Session

theorem Attempt.stream_left {attempt : Attempt} (stuck : attempt.found.stream.Stuck) :
    attempt.left.stream = attempt.found.stream := by
  cases attempt with
  | exchange command found =>
      obtain ⟨calls, -, exchanges, -⟩ := found.exchanges_exchange command
      exact (exchanges.of_stuck stuck).2.1
  | transmit command found =>
      obtain ⟨calls, -, -, stream_eq, -⟩ := found.transmits_transmit command
      exact stream_eq
  | readRaw room found => exact found.stream_readRaw room

theorem Follow.stream_eq {before after : Session} {attempts : List Attempt}
    (follows : Follow before attempts after) (stuck : before.stream.Stuck) :
    after.stream = before.stream ∧ ∀ attempt ∈ attempts, attempt.found.stream = before.stream := by
  induction attempts generalizing before with
  | nil =>
      exact ⟨Session.UpToLog.stream_eq follows, fun _ member => absurd member List.not_mem_nil⟩
  | cons attempt later ih =>
      -- The attempt finds the word and leaves it, so that the next one finds it again.
      have found : attempt.found.stream = before.stream := Session.UpToLog.stream_eq follows.1
      rw [← found] at stuck
      have left : attempt.left.stream = before.stream := (Attempt.stream_left stuck).trans found
      rw [← Attempt.stream_left stuck] at stuck
      have rest := ih follows.2 stuck
      rw [left] at rest
      exact ⟨rest.1, List.forall_mem_cons.mpr ⟨found, rest.2⟩⟩

theorem Follow.split {before after : Session} {earlier later : List Attempt} {attempt : Attempt}
    (follows : Follow before (earlier ++ attempt :: later) after) :
    Follow attempt.left later after := by
  induction earlier generalizing before with
  | nil => exact follows.2
  | cons first earlier ih => exact ih follows.2

structure StaysUnanswered (stream : StatusStream) (later : List Attempt) (ended : Session) : Prop where
  stuck : stream.Stuck
  stream_eq : ended.stream = stream
  found_eq : ∀ attempt ∈ later, attempt.found.stream = stream
  denied : ∀ command found, Attempt.exchange command found ∈ later →
    ∃ calls, found.Denies command calls

theorem Session.sendAttempts_of_error {commands : List Command} {session : Session} {fault : Fault}
    (failed : (session.sendAll commands).1 = .error fault) : ∃ earlier command found,
      sendAttempts commands session = earlier ++ [.exchange command found] ∧
      (found.send command).1 = .error fault := by
  induction commands generalizing session with
  | nil => cases failed
  | cons command later ih =>
      rw [sendAll] at failed
      rw [sendAttempts]
      rcases sent : session.send command with ⟨other | ⟨⟩, after⟩
      · rw [sent] at failed
        refine ⟨[], command, session, rfl, ?_⟩
        rw [sent]
        exact failed
      · rw [sent] at failed
        obtain ⟨earlier, last, found, split, refused⟩ := ih failed
        exact ⟨.exchange command session :: earlier, last, found,
          congrArg (.exchange command session :: ·) split, refused⟩

/-- An operation that fails at an unknown word ends with the exchange that does. -/
theorem Operation.exchange_of_unknown {α : Type} {operation : Operation α} {session : Session}
    (unknown : (operation.run session).1 = .error (.invalidData .statusWord)) :
    ∃ earlier command found, operation.attempts session = earlier ++ [.exchange command found] ∧
      (found.exchange command).1 = .error (.invalidData .statusWord) := by
  have other : ∀ status, Fault.invalidData .statusWord ≠ .rejected status := fun status => nofun
  cases operation with
  | settings => cases unknown
  | exchange command => exact ⟨[], command, session, rfl, unknown⟩
  | send command => exact ⟨[], command, session, rfl, Session.exchange_of_send unknown other⟩
  | upload program =>
      obtain ⟨earlier, command, found, split, failed⟩ := Session.sendAttempts_of_error unknown
      exact ⟨earlier, command, found, split, Session.exchange_of_send failed other⟩
  | startExposure program stopCleaning readOut openShutter =>
      exact absurd unknown
        (Session.startExposure_ne_unknown program stopCleaning readOut openShutter session)
  | readRaw room => exact absurd unknown (session.readRaw_ne_unknown room)

theorem Session.switchOn_of_unknown {α : Type} {holdTime : Nat} {pins : Pins}
    {body : Session → α × Session} {session : Session}
    (unknown : (session.underPattern holdTime pins body).1 = .error (.invalidData .statusWord)) :
    (session.exchange (.testSequencerOn (UInt32.ofNat holdTime) pins)).1 =
      .error (.invalidData .statusWord) := by
  have drives := session.drives_underPattern holdTime pins body
  generalize session.underPattern holdTime pins body = ended at drives unknown
  cases drives with
  | overlong => cases unknown
  | refused fits sent =>
      cases unknown
      exact exchange_of_send (congrArg Prod.fst sent) fun status => nofun
  | held => cases unknown

/-- What an unknown status word does to a session, from the operation that meets it on. -/
structure Session.NeverSkips (session : Session) : Prop where
  operation : ∀ {α : Type} (operation : Operation α),
    (operation.run session).1 = .error (.invalidData .statusWord) →
    ∃ earlier command found, operation.attempts session = earlier ++ [.exchange command found] ∧
      (found.exchange command).1 = .error (.invalidData .statusWord)
  pattern : ∀ {α : Type} (holdTime : Nat) (pins : Pins) (body : Session → α × Session),
    (session.underPattern holdTime pins body).1 = .error (.invalidData .statusWord) →
    (session.exchange (.testSequencerOn (UInt32.ofNat holdTime) pins)).1 =
      .error (.invalidData .statusWord)
  follows : ∀ {ρ : Type} (routine : Routine ρ),
    Follow session (routine.attempts session) (routine.run session).2
  unanswered : ∀ {ρ : Type} (routine : Routine ρ) earlier command found later,
    routine.attempts session = earlier ++ .exchange command found :: later →
    (found.exchange command).1 = .error (.invalidData .statusWord) →
    StaysUnanswered (found.exchange command).2.stream later (routine.run session).2

/-- Once an exchange has failed for a word that is no status, each later one, also that which switches a
pattern off, writes its command, reads nothing and fails, whatever a caller does and whatever the
link has in store. -/
theorem Session.unknown_neverSkipped (session : Session) : session.NeverSkips where
  operation _ unknown := Operation.exchange_of_unknown unknown
  pattern _ _ _ unknown := Session.switchOn_of_unknown unknown
  follows routine := routine.follow_run session
  unanswered := by
    intro ρ routine earlier command found later split unknown
    have follows := routine.follow_run session
    rw [split] at follows
    have behind := follows.split
    have stuck := Session.stuck_of_unknown unknown
    obtain ⟨ended, kept⟩ := behind.stream_eq stuck
    refine ⟨stuck, ended, kept, ?_⟩
    intro next before member
    have here : before.stream = (found.exchange command).2.stream := kept _ member
    rw [← here] at stuck
    exact Session.denies_of_stuck stuck next

end CcdController
