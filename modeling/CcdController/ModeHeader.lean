namespace CcdController

/-- The address that stands for no mode. The sequencer halts there. -/
def noMode : UInt16 := 0x3FF

structure ModeHeader where
  stateCount : UInt16
  loopCount : UInt16
  nestedLoopCount : UInt16
  isNested : Bool
  nextAddress : UInt16
  parentAddress : UInt16
  deriving DecidableEq, Repr

def ModeHeader.isTerminal (header : ModeHeader) : Bool := header.loopCount = 0

end CcdController
