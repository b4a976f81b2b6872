import CcdController.Session.Routine

namespace CcdController

inductive Step where
  | settings
  | exchange (command : Command)
  | send (command : Command)
  | upload (program : Program)
  | startExposure (program : Program) (stopCleaning readOut : String) (openShutter : Bool)
  | readRaw (room : Nat)
  /-- With `fails` the inner steps are followed by a failure. -/
  | pattern (holdTime : Nat) (pins : Pins) (inner : List Step) (fails : Bool)

inductive Reply where
  | settings (order : ByteOrder) (responseLength : Nat)
  | acknowledged
  | status (status : Status)
  | bytes (bytes : List UInt8)
  | patternDone
  deriving DecidableEq, Repr

/-- What came of a step, and of the inner steps that were started. -/
structure Outcome where
  result : Except Fault Reply
  inner : List Outcome

namespace Step

def plain {α : Type} (operation : Operation α) (reply : α → Reply) : Routine Outcome :=
  .perform operation fun met => .finish ⟨met.map reply, []⟩

def patternOutcome (fails : Bool) : Except Fault (List Outcome × Option Fault) → Outcome
  | .error fault => ⟨.error fault, []⟩
  | .ok (outcomes, some fault) => ⟨.error fault, outcomes⟩
  | .ok (outcomes, none) => ⟨if fails then .error .unexpectedEnd else .ok .patternDone, outcomes⟩

mutual

def routine : Step → Routine Outcome
  | settings => plain .settings fun met => .settings met.1 met.2
  | exchange command => plain (.exchange command) .status
  | send command => plain (.send command) fun _ => .acknowledged
  | upload program => plain (.upload program) fun _ => .acknowledged
  | startExposure program stopCleaning readOut openShutter =>
      plain (.startExposure program stopCleaning readOut openShutter) fun _ => .acknowledged
  | readRaw room => plain (.readRaw room) .bytes
  | pattern holdTime pins inner fails =>
      .underPattern holdTime pins (routines inner) fun met => .finish (patternOutcome fails met)

def routines : List Step → Routine (List Outcome × Option Fault)
  | [] => .finish ([], none)
  | step :: rest =>
      step.routine.bind fun outcome =>
        match outcome.result with
        | .error fault => .finish ([outcome], some fault)
        | .ok _ => (routines rest).bind fun met => .finish (outcome :: met.1, met.2)

end

def run (step : Step) : Session → Outcome × Session := step.routine.run

end Step

end CcdController
