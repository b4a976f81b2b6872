import CcdController.Session

namespace CcdController

inductive Operation : Type → Type where
  | settings : Operation (ByteOrder × Nat)
  | exchange (command : Command) : Operation Status
  | send (command : Command) : Operation Unit
  | upload (program : Program) : Operation Unit
  | startExposure (program : Program) (stopCleaning readOut : String) (openShutter : Bool) :
      Operation Unit
  | readRaw (room : Nat) : Operation (List UInt8)

def Operation.run {α : Type} : Operation α → Session.Action α
  | settings => fun session => (.ok (session.order, session.responseLength), session)
  | exchange command => Session.exchange command
  | send command => Session.send command
  | upload program => Session.upload program
  | startExposure program stopCleaning readOut openShutter =>
      Session.startExposure program stopCleaning readOut openShutter
  | readRaw room => Session.readRaw room

inductive Routine : Type → Type 1 where
  | finish {ρ : Type} (result : ρ) : Routine ρ
  | perform {α ρ : Type} (operation : Operation α) (next : Except Fault α → Routine ρ) : Routine ρ
  | underPattern {α ρ : Type} (holdTime : Nat) (pins : Pins) (inner : Routine α)
      (next : Except Fault α → Routine ρ) : Routine ρ

namespace Routine

def run {ρ : Type} : Routine ρ → Session → ρ × Session
  | finish result, session => (result, session)
  | perform operation next, session =>
      let met := operation.run session
      (next met.1).run met.2
  | underPattern holdTime pins inner next, session =>
      let met := session.underPattern holdTime pins inner.run
      (next met.1).run met.2

def bind {ρ σ : Type} : Routine ρ → (ρ → Routine σ) → Routine σ
  | finish result, after => after result
  | perform operation next, after => .perform operation fun met => (next met).bind after
  | underPattern holdTime pins inner next, after =>
      .underPattern holdTime pins inner fun met => (next met).bind after

end Routine

end CcdController
