import CcdController.Proofs.Exchange
import CcdController.Session.Routine

namespace CcdController

namespace Session

def released (session : Session) : Except Fault Unit → Session
  | .ok () => session
  | .error fault =>
      session.note ⟨.error, "Could not switch off sequencer test output: " ++ fault.message⟩

@[simp]
theorem calls_released (session : Session) (result : Except Fault Unit) :
    (session.released result).link.calls = session.link.calls := by
  cases result <;> rfl

variable {α : Type} {holdTime : Nat} {pins : Pins} {session : Session}

theorem underPattern_of_long (body : Session → α × Session) (long : maxHoldTime < holdTime) :
    session.underPattern holdTime pins body = (.error (.holdTime holdTime), session) := by
  rw [underPattern, TimingState.ofPins_of_long long]

theorem underPattern_of_refused {fault : Fault} {after : Session} (body : Session → α × Session)
    (fits : holdTime ≤ maxHoldTime)
    (sent : session.send (.testSequencerOn (UInt32.ofNat holdTime) pins) = (.error fault, after)) :
    session.underPattern holdTime pins body = (.error fault, after) := by
  rw [underPattern, TimingState.ofPins_of_le fits]
  simp only [sent]

theorem underPattern_of_held {driven left after : Session} {result : α}
    {switchedOff : Except Fault Unit} {body : Session → α × Session} (fits : holdTime ≤ maxHoldTime)
    (switchOn : session.send (.testSequencerOn (UInt32.ofNat holdTime) pins) = (.ok (), driven))
    (ran : body driven = (result, left))
    (switchOff : left.send .testSequencerOff = (switchedOff, after)) :
    session.underPattern holdTime pins body = (.ok result, after.released switchedOff) := by
  rw [underPattern, TimingState.ofPins_of_le fits]
  simp only [switchOn, ran, switchOff]
  cases switchedOff <;> rfl

inductive Drives {α : Type} (holdTime : Nat) (pins : Pins) (body : Session → α × Session)
    (session : Session) : Except Fault α × Session → Prop
  | overlong (long : maxHoldTime < holdTime) :
      Drives holdTime pins body session (.error (.holdTime holdTime), session)
  | refused {fault : Fault} {after : Session} (fits : holdTime ≤ maxHoldTime)
      (sent : session.send (.testSequencerOn (UInt32.ofNat holdTime) pins) = (.error fault, after)) :
      Drives holdTime pins body session (.error fault, after)
  | held {driven left after : Session} {result : α} {switchedOff : Except Fault Unit}
      (fits : holdTime ≤ maxHoldTime)
      (switchOn : session.send (.testSequencerOn (UInt32.ofNat holdTime) pins) = (.ok (), driven))
      (ran : body driven = (result, left))
      (switchOff : left.send .testSequencerOff = (switchedOff, after)) :
      Drives holdTime pins body session (.ok result, after.released switchedOff)

theorem drives_underPattern (holdTime : Nat) (pins : Pins) (body : Session → α × Session)
    (session : Session) :
    Drives holdTime pins body session (session.underPattern holdTime pins body) := by
  rcases Nat.lt_or_ge maxHoldTime holdTime with long | fits
  · rw [underPattern_of_long body long]
    exact .overlong long
  · rcases switchOn : session.send (.testSequencerOn (UInt32.ofNat holdTime) pins) with
      ⟨fault | ⟨⟩, driven⟩
    · rw [underPattern_of_refused body fits switchOn]
      exact .refused fits switchOn
    · rcases ran : body driven with ⟨result, left⟩
      rcases switchOff : left.send .testSequencerOff with ⟨switchedOff, after⟩
      rw [underPattern_of_held fits switchOn ran switchOff]
      exact .held fits switchOn ran switchOff

end Session

/-- Something that is done with a session, and the session that it finds. -/
inductive Attempt where
  | exchange (command : Command) (found : Session)
  | transmit (command : Command) (found : Session)
  | readRaw (room : Nat) (found : Session)

namespace Attempt

def found : Attempt → Session
  | exchange _ found => found
  | transmit _ found => found
  | readRaw _ found => found

def left : Attempt → Session
  | exchange command found => (found.exchange command).2
  | transmit command found => (found.transmit command).2
  | readRaw room found => (found.readRaw room).2

def calls (attempt : Attempt) : List Call :=
  attempt.left.link.calls.drop attempt.found.link.calls.length

end Attempt

def Session.sendAttempts : List Command → Session → List Attempt
  | [], _ => []
  | command :: later, session =>
      .exchange command session ::
        match session.send command with
        | (.error _, _) => []
        | (.ok (), session) => sendAttempts later session

def Operation.attempts {α : Type} : Operation α → Session → List Attempt
  | settings, _ => []
  | exchange command, session => [.exchange command session]
  | send command, session => [.exchange command session]
  | upload program, session =>
      Session.sendAttempts (.disableSequencer :: program.writes ++ [.enableSequencer])
        (session.note ⟨.debug, s!"Uploading {program.size} sequencer memory lines"⟩)
  | startExposure program stopCleaning readOut openShutter, session =>
      match program.exposure stopCleaning readOut openShutter with
      | .error _ => []
      | .ok command => [.transmit command session]
  | readRaw room, session => [.readRaw room session]

def Session.patternAttempts {α : Type} (holdTime : Nat) (pins : Pins) (body : Session → α × Session)
    (within : Session → List Attempt) (session : Session) : List Attempt :=
  match TimingState.ofPins pins holdTime with
  | .error _ => []
  | .ok state =>
      .exchange (.testSequencerOn (UInt32.ofNat state.holdTime) state.pins) session ::
        match session.send (.testSequencerOn (UInt32.ofNat state.holdTime) state.pins) with
        | (.error _, _) => []
        | (.ok (), session) => within session ++ [.exchange .testSequencerOff (body session).2]

def Routine.attempts {ρ : Type} : Routine ρ → Session → List Attempt
  | finish _, _ => []
  | perform operation next, session =>
      let met := operation.run session
      operation.attempts session ++ (next met.1).attempts met.2
  | underPattern holdTime pins inner next, session =>
      let met := session.underPattern holdTime pins inner.run
      session.patternAttempts holdTime pins inner.run inner.attempts ++ (next met.1).attempts met.2

/-- Two sessions that differ in their logs at most. -/
def Session.UpToLog (one other : Session) : Prop := { one with log := other.log } = other

def Follow : Session → List Attempt → Session → Prop
  | before, [], after => before.UpToLog after
  | before, attempt :: later, after => before.UpToLog attempt.found ∧ Follow attempt.left later after

namespace Session.UpToLog

variable {one other third : Session}

theorem refl (session : Session) : session.UpToLog session := rfl

theorem trans (first : one.UpToLog other) (second : other.UpToLog third) : one.UpToLog third := by
  unfold UpToLog at *
  rw [← first] at second
  exact second

theorem note (session : Session) (line : LogLine) : session.UpToLog (session.note line) := rfl

theorem released (session : Session) (result : Except Fault Unit) :
    session.UpToLog (session.released result) := by
  cases result with
  | ok done => exact .refl session
  | error fault => exact .note session _

theorem stream_eq (same : one.UpToLog other) : other.stream = one.stream := by
  rw [← same]

theorem link_eq (same : one.UpToLog other) : other.link = one.link := by
  rw [← same]

end Session.UpToLog

theorem Follow.of_upToLog {before found after : Session} {attempts : List Attempt}
    (same : before.UpToLog found) (follows : Follow found attempts after) :
    Follow before attempts after := by
  cases attempts with
  | nil => exact same.trans follows
  | cons attempt later => exact ⟨same.trans follows.1, follows.2⟩

theorem Follow.append {before between after : Session} {front back : List Attempt}
    (first : Follow before front between) (second : Follow between back after) :
    Follow before (front ++ back) after := by
  induction front generalizing before with
  | nil => exact second.of_upToLog first
  | cons attempt front ih => exact ⟨first.1, ih first.2⟩

theorem Follow.upToLog {before left after : Session} {attempts : List Attempt}
    (follows : Follow before attempts left) (same : left.UpToLog after) :
    Follow before attempts after := by
  have more : Follow before (attempts ++ []) after := follows.append same
  rw [List.append_nil] at more
  exact more

namespace Session

theorem follow_send (command : Command) (session : Session) :
    Follow session [.exchange command session] (session.send command).2 := by
  refine ⟨.refl session, ?_⟩
  change (session.exchange command).2.UpToLog _
  rw [send]
  rcases session.exchange command with ⟨fault | status, after⟩
  · exact .refl after
  · cases status with
    | ok => exact .refl after
    | _ => exact .note after _

theorem follow_sendAll (commands : List Command) (session : Session) :
    Follow session (sendAttempts commands session) (session.sendAll commands).2 := by
  induction commands generalizing session with
  | nil => exact .refl session
  | cons command later ih =>
      have first := session.follow_send command
      rw [sendAttempts, sendAll]
      rcases sent : session.send command with ⟨fault | ⟨⟩, after⟩
      · rw [sent] at first
        exact first
      · rw [sent] at first
        exact first.append (ih after)

theorem follow_underPattern {α : Type} {body : Session → α × Session}
    {within : Session → List Attempt}
    (inside : ∀ session, Follow session (within session) (body session).2) (holdTime : Nat)
    (pins : Pins) (session : Session) :
    Follow session (session.patternAttempts holdTime pins body within)
      (session.underPattern holdTime pins body).2 := by
  have drives := session.drives_underPattern holdTime pins body
  have switchOn := session.follow_send (.testSequencerOn (UInt32.ofNat holdTime) pins)
  generalize session.underPattern holdTime pins body = ended at drives ⊢
  rw [patternAttempts]
  cases drives with
  | overlong long =>
      rw [TimingState.ofPins_of_long long]
      exact .refl session
  | refused fits sent =>
      rw [sent] at switchOn
      simp only [TimingState.ofPins_of_le fits, sent]
      exact switchOn
  | @held driven left after result switchedOff fits sent ran sent' =>
      have within := inside driven
      have switchOff := left.follow_send .testSequencerOff
      rw [sent] at switchOn
      rw [ran] at within
      rw [sent'] at switchOff
      simp only [TimingState.ofPins_of_le fits, sent, ran]
      exact switchOn.append (within.append (switchOff.upToLog (.released after switchedOff)))

end Session

theorem Operation.follow_run {α : Type} (operation : Operation α) (session : Session) :
    Follow session (operation.attempts session) (operation.run session).2 := by
  cases operation with
  | settings => exact .refl session
  | exchange command => exact ⟨.refl session, .refl _⟩
  | send command => exact session.follow_send command
  | upload program =>
      exact (Session.follow_sendAll _ _).of_upToLog (.note session _)
  | startExposure program stopCleaning readOut openShutter =>
      simp only [attempts, run, Session.startExposure]
      cases program.exposure stopCleaning readOut openShutter with
      | error fault => exact .refl session
      | ok command => exact ⟨.refl session, .refl _⟩
  | readRaw room => exact ⟨.refl session, .refl _⟩

theorem Routine.follow_run {ρ : Type} (routine : Routine ρ) (session : Session) :
    Follow session (routine.attempts session) (routine.run session).2 := by
  induction routine generalizing session with
  | finish result => exact .refl session
  | perform operation next ih =>
      exact (operation.follow_run session).append (ih _ _)
  | underPattern holdTime pins inner next ih_inner ih =>
      exact (session.follow_underPattern ih_inner holdTime pins).append (ih _ _)

theorem Attempt.calls_eq (attempt : Attempt) :
    attempt.left.link.calls = attempt.found.link.calls ++ attempt.calls := by
  have made : ∃ calls, attempt.left.link.calls = attempt.found.link.calls ++ calls := by
    cases attempt with
    | exchange command found =>
        rcases found.exchanges_exchange command with ⟨calls, made, -⟩
        exact ⟨calls, made⟩
    | transmit command found =>
        rcases found.transmits_transmit command with ⟨calls, made, -⟩
        exact ⟨calls, made⟩
    | readRaw room found =>
        simp only [left, Session.readRaw]
        rcases met : found.link.read room with ⟨failure | bytes, link⟩
        · exact ⟨_, congrArg Link.calls (congrArg Prod.snd met).symm⟩
        · exact ⟨_, congrArg Link.calls (congrArg Prod.snd met).symm⟩
  rcases made with ⟨calls, made⟩
  rw [Attempt.calls, made, List.drop_left]

theorem Follow.calls_eq {before after : Session} {attempts : List Attempt}
    (follows : Follow before attempts after) :
    after.link.calls = before.link.calls ++ attempts.flatMap Attempt.calls := by
  induction attempts generalizing before with
  | nil =>
      rw [Session.UpToLog.link_eq follows]
      exact (List.append_nil _).symm
  | cons attempt later ih =>
      calc
        after.link.calls = attempt.left.link.calls ++ later.flatMap Attempt.calls := ih follows.2
        _ = before.link.calls ++ (attempt :: later).flatMap Attempt.calls := by
          rw [attempt.calls_eq, follows.1.link_eq, List.flatMap_cons, List.append_assoc]

end CcdController
