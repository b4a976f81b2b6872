import CcdController.Issue
import CcdController.Status
import CcdController.Text.Numeral

namespace CcdController

open Text (quoted)

inductive Quantity where
  | pinAddress
  | loopCount
  | nestedLoopCount
  | word
  deriving DecidableEq, Repr

def Quantity.name : Quantity → String
  | pinAddress => "pin address"
  | loopCount => "loop_count"
  | nestedLoopCount => "nested_loop_count"
  | word => "word"

inductive Defect where
  | dumpLine
  | instruction
  | moduleIndex
  | unknownInstruction
  | addressOperand
  | statusWord
  | modeStates
  deriving DecidableEq, Repr

def Defect.text : Defect → String
  | dumpLine => "Could not parse hex dump line"
  | instruction => "Could not parse instruction correctly"
  | moduleIndex => "Unknown module index"
  | unknownInstruction => "Unknown instruction"
  | addressOperand => "Address operand does not fit 16 bits"
  | statusWord => "Unknown status word"
  | modeStates => "Mode states run past the end of the program"

inductive Fault where
  | sharedAddresses (groups : List (Nat × List String))
  | unknownLabel (name : String)
  | unlabeledAddress (address : Nat)
  | outOfRange (quantity : Quantity) (value least greatest : Int)
  | holdTime (value : Nat)
  | tooManyBits (count : Nat)
  | rowLength (name : String) (length expected : Nat)
  | tooManyStates (mode : String)
  | duplicateMode (name : String)
  | unknownMode (name : String)
  | inconsistent (issues : List Issue)
  | memoryOverflow (lines capacity : Nat)
  | unsupportedWidth (width : Nat)
  | invalidWord (word : Nat)
  | invalidData (defect : Defect)
  | unexpectedEnd
  | rejected (status : Status)
  | link (text : String)
  deriving DecidableEq, Repr

private def groupText (group : Nat × List String) : String :=
  toString group.1 ++ " -> " ++ ", ".intercalate group.2

def Fault.message : Fault → String
  | sharedAddresses groups =>
      "Pin addresses are shared between labels: " ++ "; ".intercalate (groups.map groupText)
  | unknownLabel name => s!"There is no pin labeled {quoted name}"
  | unlabeledAddress address => s!"There is no label for pin address {address}"
  | outOfRange quantity value least greatest =>
      s!"{quantity.name} ({value}) is out of range [{least}...{greatest}]"
  | holdTime value => s!"hold_time ({value}) is out of range [0...16777215]"
  | tooManyBits count => s!"Too many bits ({count}) for a sequencer state, max is 64"
  | rowLength name length expected =>
      s!"Length of label {quoted name} ({length}) does not match length of hold times ({expected})"
  | tooManyStates mode => s!"Mode {quoted mode} reached the limit of 1023 states"
  | duplicateMode name => s!"There is already a mode named {quoted name}"
  | unknownMode name => s!"There is no mode named {quoted name}"
  | inconsistent issues =>
      "Compilation stopped because of consistency errors: "
        ++ "; ".intercalate (issues.map Issue.message)
  | memoryOverflow lines capacity =>
      s!"Program does not fit in sequencer memory ({lines}/{capacity} lines)"
  | unsupportedWidth width => s!"Only 4 and 8 byte words are supported, got {width}"
  | invalidWord word => s!"0x{Text.hex 24 word} is not a valid sequencer memory word"
  | invalidData defect => s!"Could not parse recieved data correctly: {defect.text}"
  | unexpectedEnd => "Unexpected end of package"
  | rejected status => s!"Controller rejected the command with status {status.name}"
  | link text => text

end CcdController
