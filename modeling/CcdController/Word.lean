import CcdController.ModeHeader
import CcdController.TimingState

/-!
Lines of the sequencer memory. A line is a number of 96 bits whose top byte tells a mode header from
a timing state:

    header | 95..88 | 87..72      | 71..56     | 55..40       | 39..32    | 31..16    | 15..0       |
           | 0x80   | state count | loop count | nested loops | is nested | next addr | parent addr |

    state  | 95..88 | 87..24                 | 23..0                                                |
           | 0x00   | pins                   | hold time                                            |
-/
namespace CcdController

def headerTag : Nat := 0x80

def stateTag : Nat := 0

def lineTag (line : Nat) : Nat := line >>> 88 % 256

def lineField (line shift : Nat) : UInt16 := UInt16.ofNat (line >>> shift)

def ModeHeader.encode (header : ModeHeader) : Nat :=
  headerTag <<< 88 + header.stateCount.toNat <<< 72 + header.loopCount.toNat <<< 56
    + header.nestedLoopCount.toNat <<< 40 + header.isNested.toNat <<< 32
    + header.nextAddress.toNat <<< 16 + header.parentAddress.toNat

/-- The header on a line. The nesting byte has to be 0 or 1. -/
def ModeHeader.decode (line : Nat) : Except Fault ModeHeader :=
  let header (isNested : Bool) : ModeHeader := {
    stateCount := lineField line 72
    loopCount := lineField line 56
    nestedLoopCount := lineField line 40
    isNested
    nextAddress := lineField line 16
    parentAddress := lineField line 0 }
  if line >>> 96 ≠ 0 ∨ lineTag line ≠ headerTag then .error (.invalidWord line)
  else
    match line >>> 32 % 256 with
    | 0 => .ok (header false)
    | 1 => .ok (header true)
    | _ => .error (.invalidWord line)

def TimingState.encode (state : TimingState) : Nat :=
  stateTag <<< 88 + state.pins.toNat <<< 24 + state.holdTime

def TimingState.decode (line : Nat) : Except Fault TimingState :=
  if line >>> 96 ≠ 0 ∨ lineTag line ≠ stateTag then .error (.invalidWord line)
  else
    .ok {
      pins := BitVec.ofNat 64 (line >>> 24)
      holdTime := line % 0x1000000
      holdTime_le := Nat.le_pred_of_lt (Nat.mod_lt _ (by decide)) }

inductive Word where
  | header (header : ModeHeader)
  | state (state : TimingState)
  deriving DecidableEq

namespace Word

def encode : Word → Nat
  | header h => h.encode
  | state s => s.encode

def decode (line : Nat) : Except Fault Word :=
  if line >>> 96 ≠ 0 then .error (.invalidWord line)
  else if lineTag line = headerTag then (ModeHeader.decode line).map header
  else if lineTag line = stateTag then (TimingState.decode line).map state
  else .error (.invalidWord line)

def isHeader : Word → Bool
  | header _ => true
  | state _ => false

def ticks : Word → Nat
  | header _ => 0
  | state s => s.holdTime

def totalTicks (words : List Word) : Nat := words.foldr (fun word later => word.ticks + later) 0

end Word

end CcdController
