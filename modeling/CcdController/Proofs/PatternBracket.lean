import CcdController.Proofs.Attempts
import CcdController.Proofs.UploadOrder

/-!
Test patterns as brackets. A routine is whatever a caller does with a session, patterns inside of
patterns included, and `Transcribes` says stretch by stretch what a run of one leaves on the link: a
pattern that is driven is switched on, then its routine runs, then there is one attempt to switch it
off. Every run has one transcript, in which the switches are nested.
-/
namespace CcdController

/-- A stretch of the calls of a run. Commands of a pattern are told apart from the same commands sent
by an operation. -/
inductive Stretch where
  | performed (calls : List Call)
  | refused (delivery : Delivery)
  | switchedOn (delivery : Delivery)
  | switchedOff (delivery : Delivery)

namespace Stretch

def calls : Stretch → List Call
  | performed calls => calls
  | refused delivery => delivery.calls
  | switchedOn delivery => delivery.calls
  | switchedOff delivery => delivery.calls

def isSwitchedOn : Stretch → Bool
  | switchedOn _ => true
  | _ => false

def isSwitchedOff : Stretch → Bool
  | switchedOff _ => true
  | _ => false

end Stretch

/-- Every switching on has its switching off behind it, with whole brackets in between. -/
inductive Nested : List Stretch → Prop
  | nil : Nested []
  | other {stretch : Stretch} {later : List Stretch} (notOn : stretch.isSwitchedOn = false)
      (notOff : stretch.isSwitchedOff = false) (rest : Nested later) : Nested (stretch :: later)
  | bracket {on off : Delivery} {within later : List Stretch} (inside : Nested within)
      (rest : Nested later) : Nested (.switchedOn on :: within ++ .switchedOff off :: later)

structure Session.Sends (command : Command) (before : Session) (delivery : Delivery)
    (result : Except Fault Unit) (after : Session) : Prop where
  sent_eq : before.send command = (result, after)
  command_eq : delivery.command = command
  stream_eq : delivery.stream = before.stream
  calls_eq : after.link.calls = before.link.calls ++ delivery.calls
  came : result = .ok () ∧ delivery.Acknowledged before.order ∨
    ∃ fault, result = .error fault ∧ delivery.Fails before.order fault

/-- `Transcribes routine session stretches ended`: from `session` on the routine goes through the
stretches, and ends with a result and a session. -/
inductive Transcribes : {ρ : Type} → Routine ρ → Session → List Stretch → ρ × Session → Prop
  | finish {ρ : Type} {result : ρ} {session : Session} :
      Transcribes (.finish result) session [] (result, session)
  | perform {α ρ : Type} {operation : Operation α} {next : Except Fault α → Routine ρ}
      {session after : Session} {met : Except Fault α} {calls : List Call}
      {stretches : List Stretch} {ended : ρ × Session}
      (performs : operation.run session = (met, after))
      (made : after.link.calls = session.link.calls ++ calls)
      (rest : Transcribes (next met) after stretches ended) :
      Transcribes (.perform operation next) session (.performed calls :: stretches) ended
  | overlong {α ρ : Type} {holdTime : Nat} {pins : Pins} {inner : Routine α}
      {next : Except Fault α → Routine ρ} {session : Session} {stretches : List Stretch}
      {ended : ρ × Session} (long : maxHoldTime < holdTime)
      (rest : Transcribes (next (.error (.holdTime holdTime))) session stretches ended) :
      Transcribes (.underPattern holdTime pins inner next) session stretches ended
  | refused {α ρ : Type} {holdTime : Nat} {pins : Pins} {inner : Routine α}
      {next : Except Fault α → Routine ρ} {session after : Session} {on : Delivery} {fault : Fault}
      {stretches : List Stretch} {ended : ρ × Session} (fits : holdTime ≤ maxHoldTime)
      (switchOn : Session.Sends (.testSequencerOn (UInt32.ofNat holdTime) pins) session on
        (.error fault) after)
      (rest : Transcribes (next (.error fault)) after stretches ended) :
      Transcribes (.underPattern holdTime pins inner next) session (.refused on :: stretches) ended
  | held {α ρ : Type} {holdTime : Nat} {pins : Pins} {inner : Routine α}
      {next : Except Fault α → Routine ρ} {session driven left after : Session} {on off : Delivery}
      {result : α} {switchedOff : Except Fault Unit} {within stretches : List Stretch}
      {ended : ρ × Session} (fits : holdTime ≤ maxHoldTime)
      (switchOn : Session.Sends (.testSequencerOn (UInt32.ofNat holdTime) pins) session on
        (.ok ()) driven)
      (inside : Transcribes inner driven within (result, left))
      (switchOff : Session.Sends .testSequencerOff left off switchedOff after)
      (rest : Transcribes (next (.ok result)) (after.released switchedOff) stretches ended) :
      Transcribes (.underPattern holdTime pins inner next) session
        (.switchedOn on :: within ++ .switchedOff off :: stretches) ended

namespace Session

theorem exists_sends (command : Command) (session : Session) : ∃ delivery,
    Sends command session delivery (session.send command).1 (session.send command).2 := by
  obtain ⟨delivery, named, found, made, -, came⟩ := delivery_send command session
  refine ⟨delivery, rfl, named, found, made, ?_⟩
  cases came with
  | inl done => exact .inl ⟨done.1, done.2.1⟩
  | inr failed => exact .inr failed

theorem Sends.unique {command : Command} {before after other : Session}
    {first second : Delivery} {result answer : Except Fault Unit}
    (one : Sends command before first result after)
    (two : Sends command before second answer other) :
    first = second ∧ result = answer ∧ after = other := by
  have same : (result, after) = (answer, other) := one.sent_eq.symm.trans two.sent_eq
  cases same
  refine ⟨?_, rfl, rfl⟩
  have calls : first.calls = second.calls :=
    List.append_cancel_left (one.calls_eq.symm.trans two.calls_eq)
  have command : first.command = second.command := one.command_eq.trans two.command_eq.symm
  have stream : first.stream = second.stream := one.stream_eq.trans two.stream_eq.symm
  cases first
  cases second
  simp only at calls command stream
  rw [calls, command, stream]

end Session

theorem Operation.calls_run {α : Type} (operation : Operation α) (session : Session) :
    ∃ calls, (operation.run session).2.link.calls = session.link.calls ++ calls :=
  ⟨_, (operation.follow_run session).calls_eq⟩

namespace Transcribes

variable {ρ : Type} {routine : Routine ρ} {session : Session} {stretches : List Stretch}
  {ended : ρ × Session}

theorem run_eq (transcribes : Transcribes routine session stretches ended) :
    routine.run session = ended := by
  induction transcribes with
  | finish => rfl
  | perform performs _ _ ih =>
      rw [Routine.run, performs]
      exact ih
  | overlong long _ ih =>
      rw [Routine.run, Session.underPattern_of_long _ long]
      exact ih
  | refused fits switchOn _ ih =>
      rw [Routine.run, Session.underPattern_of_refused _ fits switchOn.sent_eq]
      exact ih
  | held fits switchOn _ switchOff _ ran ih =>
      rw [Routine.run, Session.underPattern_of_held fits switchOn.sent_eq ran switchOff.sent_eq]
      exact ih

theorem calls_eq (transcribes : Transcribes routine session stretches ended) :
    ended.2.link.calls = session.link.calls ++ stretches.flatMap Stretch.calls := by
  induction transcribes with
  | finish => exact (List.append_nil _).symm
  | perform _ made _ ih =>
      rw [ih, made, List.append_assoc]
      rfl
  | overlong _ _ ih => exact ih
  | refused _ switchOn _ ih =>
      rw [ih, switchOn.calls_eq, List.append_assoc]
      rfl
  | held _ switchOn _ switchOff _ inside ih =>
      rw [ih, Session.calls_released, switchOff.calls_eq, inside, switchOn.calls_eq]
      simp [Stretch.calls]

theorem nested (transcribes : Transcribes routine session stretches ended) : Nested stretches := by
  induction transcribes with
  | finish => exact .nil
  | perform _ _ _ ih => exact .other rfl rfl ih
  | overlong _ _ ih => exact ih
  | refused _ _ _ ih => exact .other rfl rfl ih
  | held _ _ _ _ _ inside ih => exact .bracket inside ih

/-- A session leaves no choice between transcripts: what is sent says which case there is. -/
theorem unique {others : List Stretch} {other : ρ × Session}
    (first : Transcribes routine session stretches ended)
    (second : Transcribes routine session others other) : stretches = others := by
  induction first generalizing others with
  | finish =>
      cases second with
      | finish => rfl
  | perform performs made _ ih =>
      cases second with
      | perform performs' made' rest' =>
          cases performs.symm.trans performs'
          cases List.append_cancel_left (made.symm.trans made')
          rw [ih rest']
  | overlong long _ ih =>
      cases second with
      | overlong _ rest' => exact ih rest'
      | refused fits | held fits => exact absurd long (Nat.not_lt.mpr fits)
  | refused fits switchOn _ ih =>
      cases second with
      | overlong long => exact absurd long (Nat.not_lt.mpr fits)
      | refused _ switchOn' rest' =>
          obtain ⟨rfl, failed, rfl⟩ := switchOn.unique switchOn'
          cases failed
          rw [ih rest']
      | held _ switchOn' => cases (switchOn.unique switchOn').2.1
  | held fits switchOn inside switchOff _ ih_inside ih =>
      cases second with
      | overlong long => exact absurd long (Nat.not_lt.mpr fits)
      | refused _ switchOn' => cases (switchOn.unique switchOn').2.1
      | held _ switchOn' inside' switchOff' rest' =>
          obtain ⟨rfl, -, rfl⟩ := switchOn.unique switchOn'
          -- Both inner runs start from one session, so they end alike.
          cases inside.run_eq.symm.trans inside'.run_eq
          obtain ⟨rfl, rfl, rfl⟩ := switchOff.unique switchOff'
          rw [ih_inside inside', ih rest']

end Transcribes

theorem Nested.count_eq {stretches : List Stretch} (nested : Nested stretches) :
    stretches.countP Stretch.isSwitchedOff = stretches.countP Stretch.isSwitchedOn := by
  induction nested with
  | nil => rfl
  | other notOn notOff _ ih => rw [List.countP_cons, List.countP_cons, ih, notOn, notOff]
  | @bracket on off _ _ _ _ inside later =>
      have onIsOn : (Stretch.switchedOn on).isSwitchedOn = true := rfl
      have onIsNotOff : (Stretch.switchedOn on).isSwitchedOff = false := rfl
      have offIsOff : (Stretch.switchedOff off).isSwitchedOff = true := rfl
      have offIsNotOn : (Stretch.switchedOff off).isSwitchedOn = false := rfl
      simp only [List.cons_append, List.countP_cons, List.countP_append, inside, later, onIsOn,
        onIsNotOff, offIsOff, offIsNotOn]
      simp only [if_true, Bool.false_eq_true, if_false]
      omega

theorem Routine.transcribes_run {ρ : Type} (routine : Routine ρ) (session : Session) :
    ∃ stretches, Transcribes routine session stretches (routine.run session) := by
  induction routine generalizing session with
  | finish result => exact ⟨[], .finish⟩
  | perform operation next ih =>
      obtain ⟨calls, made⟩ := operation.calls_run session
      obtain ⟨stretches, rest⟩ := ih (operation.run session).1 (operation.run session).2
      exact ⟨.performed calls :: stretches, .perform rfl made rest⟩
  | underPattern holdTime pins inner next ih_inner ih =>
      have drives := session.drives_underPattern holdTime pins inner.run
      rw [run]
      generalize session.underPattern holdTime pins inner.run = met at drives ⊢
      cases drives with
      | overlong long =>
          obtain ⟨stretches, rest⟩ := ih (.error (.holdTime holdTime)) session
          exact ⟨stretches, .overlong long rest⟩
      | @refused fault after fits sent =>
          obtain ⟨on, switchOn⟩ :=
            Session.exists_sends (.testSequencerOn (UInt32.ofNat holdTime) pins) session
          rw [sent] at switchOn
          obtain ⟨stretches, rest⟩ := ih (.error fault) after
          exact ⟨.refused on :: stretches, .refused fits switchOn rest⟩
      | @held driven left after result switchedOff fits sent ran sent' =>
          obtain ⟨on, switchOn⟩ :=
            Session.exists_sends (.testSequencerOn (UInt32.ofNat holdTime) pins) session
          obtain ⟨within, inside⟩ := ih_inner driven
          obtain ⟨off, switchOff⟩ := Session.exists_sends .testSequencerOff left
          rw [sent] at switchOn
          rw [ran] at inside
          rw [sent'] at switchOff
          obtain ⟨stretches, rest⟩ := ih (.ok result) (after.released switchedOff)
          exact ⟨.switchedOn on :: within ++ .switchedOff off :: stretches,
            .held fits switchOn inside switchOff rest⟩

/-- However deep patterns are driven inside of patterns and wherever the link fails, a run has one
transcript. It accounts for all calls, and in it every pattern switched on has its own attempt to
switch it off. -/
theorem Routine.transcript_nested {ρ : Type} (routine : Routine ρ) (session : Session) :
    ∃ stretches,
      (∀ others ended, Transcribes routine session others ended ↔
        others = stretches ∧ ended = routine.run session) ∧
      (routine.run session).2.link.calls =
        session.link.calls ++ stretches.flatMap Stretch.calls ∧
      Nested stretches ∧
      stretches.countP Stretch.isSwitchedOff = stretches.countP Stretch.isSwitchedOn := by
  obtain ⟨stretches, transcribes⟩ := routine.transcribes_run session
  refine ⟨stretches, ?_, transcribes.calls_eq, transcribes.nested, transcribes.nested.count_eq⟩
  intro others ended
  constructor
  · intro other
    exact ⟨other.unique transcribes, other.run_eq.symm⟩
  · intro same
    rw [same.1, same.2]
    exact transcribes

end CcdController
