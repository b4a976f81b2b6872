import CcdController.Proofs.Exchange

/-!
The way out of a session. Whatever the link does with a command, its bytes are accepted once and in their
order, nothing is read before all of them are flushed, and a failure on the way out leaves what had
come in as it was.
-/
namespace CcdController

namespace Call

/-- What a call needs of those before it: a write offers what is left of `whole`, a flush comes when nothing
is left, and a read only behind a flush that succeeded. -/
def MayFollow (whole : List UInt8) (earlier : List Call) : Call → Prop
  | write offered _ => offered ≠ [] ∧ earlier.flatMap accepted ++ offered = whole
  | flush _ => earlier.flatMap accepted = whole
  | read _ _ => earlier.flatMap accepted = whole ∧ flush (.ok ()) ∈ earlier

theorem breach_of_isRead {call : Call} (reading : call.IsRead) : call.breach = none := by
  cases call with
  | read room outcome => rfl
  | write offered outcome => exact reading.elim
  | flush outcome => exact reading.elim

theorem breach_of_interrupted {offered : List UInt8} {failure : LinkFailure}
    (again : failure.interrupted = true) : (write offered (.error failure)).breach = none :=
  if_pos again

theorem breach_of_accepted {offered bytes : List UInt8} (some : bytes ≠ []) :
    (write offered (.ok bytes)).breach = none := by
  cases bytes with
  | nil => exact absurd rfl some
  | cons first others => rfl

end Call

def Unbroken (calls : List Call) : Prop := ∀ call ∈ calls, call.breach = none

def Orderly (whole : List UInt8) : List Call → List Call → Prop
  | _, [] => True
  | earlier, call :: later =>
      (Unbroken earlier ∧ call.MayFollow whole earlier) ∧ Orderly whole (earlier ++ [call]) later

/-- How a command goes out, made with these calls on the way from one session to the end of an operation. -/
structure GoesOut {α : Type} (command : Command) (before : Session) (calls : List Call)
    (ended : Except Fault α × Session) : Prop where
  made : ended.2.link.calls = before.link.calls ++ calls
  orderly : Orderly (command.encode before.order) [] calls
  accepted_prefix : calls.flatMap Call.accepted <+: command.encode before.order
  broken : ∀ call ∈ calls, ∀ failure, call.breach = some failure →
    ended.1 = .error (.link failure.text) ∧ ended.2.stream = before.stream
  unbroken : Unbroken calls →
    calls.flatMap Call.accepted = command.encode before.order ∧ Call.flush (.ok ()) ∈ calls

section

variable {whole : List UInt8} {earlier : List Call}

theorem unbroken_nil : Unbroken [] := fun _ member => absurd member List.not_mem_nil

theorem unbroken_append {front back : List Call} :
    Unbroken (front ++ back) ↔ Unbroken front ∧ Unbroken back := List.forall_mem_append

theorem Unbroken.snoc {call : Call} (unbroken : Unbroken earlier) (next : call.breach = none) :
    Unbroken (earlier ++ [call]) :=
  unbroken_append.mpr ⟨unbroken, List.forall_mem_singleton.mpr next⟩

theorem orderly_append {front back : List Call} : Orderly whole earlier (front ++ back) ↔
    Orderly whole earlier front ∧ Orderly whole (earlier ++ front) back := by
  induction front generalizing earlier with
  | nil => rw [List.nil_append, List.append_nil, Orderly, true_and]
  | cons call front ih =>
      simp only [List.cons_append, Orderly, ih, List.append_assoc, List.nil_append, and_assoc]

theorem orderly_of_isRead {reads : List Call} (reading : ∀ call ∈ reads, call.IsRead)
    (unbroken : Unbroken earlier) (written : earlier.flatMap Call.accepted = whole)
    (flushed : Call.flush (.ok ()) ∈ earlier) : Orderly whole earlier reads := by
  induction reads generalizing earlier with
  | nil => trivial
  | cons call reads ih =>
      have first : call.IsRead := reading call List.mem_cons_self
      have others : ∀ later ∈ reads, later.IsRead :=
        fun later member => reading later (List.mem_cons_of_mem call member)
      constructor
      · refine ⟨unbroken, ?_⟩
        cases call with
        | read room outcome => exact ⟨written, flushed⟩
        | write offered outcome => exact first.elim
        | flush outcome => exact first.elim
      · apply ih others (unbroken.snoc (Call.breach_of_isRead first))
        · rw [List.flatMap_append, List.flatMap_singleton, Call.accepted_of_isRead first,
            List.append_nil]
          exact written
        · exact List.mem_append_left [call] flushed

end

namespace Writes

variable {whole offered : List UInt8} {calls : List Call} {outcome : Except LinkFailure Unit}

theorem orderly (writes : Writes offered calls outcome) {earlier : List Call}
    (unbroken : Unbroken earlier) (left : earlier.flatMap Call.accepted ++ offered = whole) :
    Orderly whole earlier calls := by
  induction writes generalizing earlier with
  | done => trivial
  | interrupted some again _ ih =>
      refine ⟨⟨unbroken, some, left⟩, ih (unbroken.snoc (Call.breach_of_interrupted again)) ?_⟩
      rw [List.flatMap_append, List.append_assoc]
      exact left
  | failed some _ => exact ⟨⟨unbroken, some, left⟩, trivial⟩
  | full some => exact ⟨⟨unbroken, some, left⟩, trivial⟩
  | @accepted bytes rest _ _ some _ ih =>
      -- What was accepted moves to the calls made so far, and the rest is offered by the next write.
      have more : bytes ++ rest ≠ [] := List.append_ne_nil_of_left_ne_nil some rest
      refine ⟨⟨unbroken, more, left⟩, ih (unbroken.snoc (Call.breach_of_accepted some)) ?_⟩
      rw [List.flatMap_append, List.flatMap_singleton, List.append_assoc]
      exact left

theorem breach_iff (writes : Writes offered calls outcome) (failure : LinkFailure) :
    (∃ call ∈ calls, call.breach = some failure) ↔ outcome = .error failure := by
  induction writes with
  | done => simp
  | interrupted _ again _ ih =>
      simp only [List.mem_cons, exists_eq_or_imp, ih, Call.breach_of_interrupted again]
      simp
  | failed _ final => simp [Call.breach, final]
  | full _ => simp [Call.breach]
  | accepted some _ ih =>
      simp only [List.mem_cons, exists_eq_or_imp, ih, Call.breach_of_accepted some]
      simp

theorem unbroken (written : Writes offered calls (.ok ())) : Unbroken calls := by
  intro call member
  cases met : call.breach with
  | none => rfl
  | some failure => cases (written.breach_iff failure).mp ⟨call, member, met⟩

end Writes

namespace Transmits

variable {order : ByteOrder} {command : Command} {calls : List Call} {outcome : Except Fault Unit}

theorem orderly (transmits : Transmits order command calls outcome) :
    Orderly (command.encode order) [] calls := by
  cases transmits with
  | unwritten writes => exact writes.orderly unbroken_nil rfl
  | unflushed writes | done writes =>
      apply orderly_append.mpr
      exact ⟨writes.orderly unbroken_nil rfl, ⟨writes.unbroken, writes.accepted_eq⟩, trivial⟩

theorem broken (transmits : Transmits order command calls outcome) {call : Call}
    {failure : LinkFailure} (member : call ∈ calls) (met : call.breach = some failure) :
    outcome = .error (.link failure.text) := by
  cases transmits with
  | unwritten writes => cases (writes.breach_iff failure).mp ⟨call, member, met⟩; rfl
  | unflushed writes =>
      cases List.mem_append.mp member with
      | inl early => cases (writes.breach_iff failure).mp ⟨call, early, met⟩
      | inr last =>
          cases List.mem_singleton.mp last
          cases met
          rfl
  | done writes =>
      cases List.mem_append.mp member with
      | inl early => cases (writes.breach_iff failure).mp ⟨call, early, met⟩
      | inr last =>
          cases List.mem_singleton.mp last
          cases met

theorem ok_iff (transmits : Transmits order command calls outcome) :
    outcome = .ok () ↔ Unbroken calls := by
  constructor
  · intro done
    subst done
    intro call member
    cases met : call.breach with
    | none => rfl
    | some failure => cases transmits.broken member met
  · intro unbroken
    cases transmits with
    | @unwritten _ failure writes =>
        obtain ⟨call, member, met⟩ := (writes.breach_iff failure).mpr rfl
        cases met.symm.trans (unbroken call member)
    | unflushed writes => cases unbroken _ List.mem_concat_self
    | done writes => rfl

theorem through (transmits : Transmits order command calls outcome) (unbroken : Unbroken calls) :
    calls.flatMap Call.accepted = command.encode order ∧ Call.flush (.ok ()) ∈ calls := by
  cases transmits.ok_iff.mpr unbroken
  cases transmits with
  | done writes =>
      refine ⟨?_, List.mem_concat_self⟩
      rw [List.flatMap_append, writes.accepted_eq]
      exact List.append_nil _

end Transmits

theorem Awaits.unbroken {stream after : StatusStream} {reads : List Call}
    {outcome : Except Fault Status} (awaits : Awaits stream reads outcome after) : Unbroken reads :=
  fun call member => Call.breach_of_isRead (awaits.isRead call member)

namespace Exchanges

variable {order : ByteOrder} {command : Command} {stream after : StatusStream} {calls : List Call}
  {outcome : Except Fault Status}

theorem orderly (exchanges : Exchanges order command stream calls outcome after) :
    Orderly (command.encode order) [] calls := by
  cases exchanges with
  | unsent transmits => exact transmits.orderly
  | sent transmits awaits =>
      have unbroken := transmits.ok_iff.mp rfl
      obtain ⟨written, flushed⟩ := transmits.through unbroken
      apply orderly_append.mpr
      exact ⟨transmits.orderly, orderly_of_isRead awaits.isRead unbroken written flushed⟩

/-- A breach is what an exchange comes to, and leaves the stream of statuses as it was. -/
theorem broken (exchanges : Exchanges order command stream calls outcome after) {call : Call}
    {failure : LinkFailure} (member : call ∈ calls) (met : call.breach = some failure) :
    outcome = .error (.link failure.text) ∧ after = stream := by
  cases exchanges with
  | unsent transmits =>
      cases transmits.broken member met
      exact ⟨rfl, rfl⟩
  | sent transmits awaits =>
      have unbroken := unbroken_append.mpr ⟨transmits.ok_iff.mp rfl, awaits.unbroken⟩
      cases met.symm.trans (unbroken call member)

theorem through (exchanges : Exchanges order command stream calls outcome after)
    (unbroken : Unbroken calls) :
    calls.flatMap Call.accepted = command.encode order ∧ Call.flush (.ok ()) ∈ calls := by
  cases exchanges with
  | unsent transmits => exact transmits.through unbroken
  | sent transmits awaits =>
      obtain ⟨written, flushed⟩ := transmits.through (transmits.ok_iff.mp rfl)
      refine ⟨?_, List.mem_append_left _ flushed⟩
      rw [List.flatMap_append, Call.flatMap_accepted_of_isRead awaits.isRead, List.append_nil]
      exact written

end Exchanges

namespace Session

theorem goesOut_exchange {command : Command} {session : Session} {calls : List Call}
    (made : (session.exchange command).2.link.calls = session.link.calls ++ calls)
    (exchanges : Exchanges session.order command session.stream calls (session.exchange command).1
      (session.exchange command).2.stream) :
    GoesOut command session calls (session.exchange command) where
  made
  orderly := exchanges.orderly
  accepted_prefix := exchanges.accepted_prefix
  broken _ member _ met := exchanges.broken member met
  unbroken := exchanges.through

theorem goesOut_transmit (command : Command) (session : Session) : ∃ calls,
    GoesOut command session calls (session.transmit command) ∧
    ((session.transmit command).1 = .ok () ↔ Unbroken calls) ∧ ∀ call ∈ calls, ¬ call.IsRead := by
  obtain ⟨calls, made, transmits, stream_eq, -⟩ := session.transmits_transmit command
  refine ⟨calls, ⟨made, transmits.orderly, transmits.accepted_prefix, ?_, transmits.through⟩,
    transmits.ok_iff, transmits.not_isRead⟩
  exact fun _ member _ met => ⟨transmits.broken member met, stream_eq⟩

structure StartsExposure (session : Session) (program : Program) (stopCleaning readOut : String)
    (openShutter : Bool) : Prop where
  sent : stopCleaning ∈ program.modeNames → readOut ∈ program.modeNames →
    ∃ first second calls,
      program.addressOf stopCleaning = .ok first ∧ program.addressOf readOut = .ok second ∧
      GoesOut (.getImage first second openShutter) session calls
        (session.startExposure program stopCleaning readOut openShutter) ∧
      ((session.startExposure program stopCleaning readOut openShutter).1 = .ok () ↔
        Unbroken calls) ∧
      ∀ call ∈ calls, ¬ call.IsRead
  stream_eq :
    (session.startExposure program stopCleaning readOut openShutter).2.stream = session.stream
  unknown_first : stopCleaning ∉ program.modeNames →
    session.startExposure program stopCleaning readOut openShutter =
      (.error (.unknownMode stopCleaning), session)
  unknown_second : stopCleaning ∈ program.modeNames → readOut ∉ program.modeNames →
    session.startExposure program stopCleaning readOut openShutter =
      (.error (.unknownMode readOut), session)

theorem startExposure_of_known {program : Program} {stopCleaning readOut : String}
    {first second : UInt16} (firstKnown : program.addressOf stopCleaning = .ok first)
    (secondKnown : program.addressOf readOut = .ok second) (openShutter : Bool) (session : Session) :
    session.startExposure program stopCleaning readOut openShutter =
      session.transmit (.getImage first second openShutter) := by
  have exposed : program.exposure stopCleaning readOut openShutter =
      .ok (.getImage first second openShutter) := by
    rw [Program.exposure, firstKnown, secondKnown]
    rfl
  rw [startExposure, exposed]

theorem stream_startExposure (session : Session) (program : Program) (stopCleaning readOut : String)
    (openShutter : Bool) :
    (session.startExposure program stopCleaning readOut openShutter).2.stream = session.stream := by
  rw [startExposure]
  cases program.exposure stopCleaning readOut openShutter with
  | error fault => rfl
  | ok command =>
      obtain ⟨calls, -, -, stream_eq, -⟩ := session.transmits_transmit command
      exact stream_eq

theorem startsExposure (session : Session) (program : Program) (stopCleaning readOut : String)
    (openShutter : Bool) : StartsExposure session program stopCleaning readOut openShutter where
  sent := by
    intro firstIn secondIn
    obtain ⟨first, firstKnown⟩ := Program.exists_addressOf firstIn
    obtain ⟨second, secondKnown⟩ := Program.exists_addressOf secondIn
    obtain ⟨calls, out, ok_iff, unread⟩ :=
      session.goesOut_transmit (.getImage first second openShutter)
    rw [startExposure_of_known firstKnown secondKnown]
    exact ⟨first, second, calls, firstKnown, secondKnown, out, ok_iff, unread⟩
  stream_eq := session.stream_startExposure program stopCleaning readOut openShutter
  unknown_first := by
    intro unknown
    have refused := Program.addressOf_eq_error_iff.mpr ⟨unknown, rfl⟩
    rw [startExposure, Program.exposure, refused]
    rfl
  unknown_second := by
    intro firstIn unknown
    obtain ⟨first, firstKnown⟩ := Program.exists_addressOf firstIn
    have refused := Program.addressOf_eq_error_iff.mpr ⟨unknown, rfl⟩
    rw [startExposure, Program.exposure, firstKnown, refused]
    rfl

/-- Whatever a session is at and whatever its link does, a command that is exchanged and the command that
starts an exposure go out once and in order, and what had come in before is kept when they do not. -/
theorem writeSide (session : Session) :
    (∀ command : Command, ∃ calls, GoesOut command session calls (session.exchange command)) ∧
    ∀ program stopCleaning readOut openShutter,
      StartsExposure session program stopCleaning readOut openShutter := by
  constructor
  · intro command
    obtain ⟨calls, made, exchanges, -⟩ := session.exchanges_exchange command
    exact ⟨calls, goesOut_exchange made exchanges⟩
  · exact session.startsExposure

end Session

end CcdController
