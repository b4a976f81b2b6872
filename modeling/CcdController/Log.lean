import CcdController.Fault

namespace CcdController

inductive Event where
  /-- A state was built from fewer bits than there are pins; the other pins are low. -/
  | shortBits (given expected : Nat)
  | inconsistency (issue : Issue)
  | compiled (modes lines : Nat)
  | encoded (module header : UInt32) (bytes : Nat)
  deriving DecidableEq, Repr

structure Observed (α : Type) where
  outcome : Except Fault α
  events : List Event

inductive Level where
  | error
  | warn
  | debug
  | trace
  deriving DecidableEq, Repr

def Level.name : Level → String
  | error => "ERROR"
  | warn => "WARN"
  | debug => "DEBUG"
  | trace => "TRACE"

structure LogLine where
  level : Level
  text : String
  deriving DecidableEq, Repr

def LogLine.render (line : LogLine) : String := s!"{line.level.name} {line.text}"

def Event.logLine : Event → LogLine
  | shortBits given expected =>
      ⟨.warn, s!"There are less bits than expected in a state ({given}/{expected}), " ++
        "will fill MSBs with 0s"⟩
  | inconsistency issue => ⟨.error, issue.message⟩
  | compiled modes lines => ⟨.debug, s!"Compiled {modes} modes into {lines} memory lines"⟩
  | encoded module header bytes =>
      ⟨.trace, s!"Encoded instruction {Text.hex 8 header.toNat} for module {module} " ++
        s!"({bytes} bytes)"⟩

end CcdController
