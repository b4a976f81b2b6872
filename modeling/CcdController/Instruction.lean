import CcdController.ByteOrder
import CcdController.Log
import CcdController.Packing
import CcdController.WordReader

namespace CcdController

def marker : UInt32 := 0x029A

/-- Operand of an instruction. A wide operand takes two words, the high half first. -/
inductive Operand where
  | word (value : UInt32)
  | wide (value : UInt64)
  deriving DecidableEq, Repr

def Operand.words : Operand → List UInt32
  | word value => [value]
  | wide value => [highHalf value, lowHalf value]

def Operand.wordCount (operand : Operand) : Nat := operand.words.length

def headerWord (submodule operation : UInt16) : UInt32 :=
  UInt32.ofNat (submodule.toNat <<< 16 + operation.toNat)

def envelopeWords (module header : UInt32) (operands : List Operand) : List UInt32 :=
  let words := operands.flatMap Operand.words
  marker :: module :: UInt32.ofNat (1 + words.length) :: header :: words

def envelope (order : ByteOrder) (module header : UInt32) (operands : List Operand) : List UInt8 :=
  order.wordsBytes (envelopeWords module header operands)

def encodedEvent (module header : UInt32) (bytes : List UInt8) : Event :=
  .encoded module header bytes.length

structure Instruction where
  module : UInt32
  submodule : UInt16
  operation : UInt16
  operands : List UInt32
  deriving DecidableEq, Repr

namespace Instruction

def header (instruction : Instruction) : UInt32 :=
  headerWord instruction.submodule instruction.operation

def encode (order : ByteOrder) (instruction : Instruction) : List UInt8 :=
  envelope order instruction.module instruction.header (instruction.operands.map Operand.word)

def readBody (order : ByteOrder) (module count : UInt32) (bytes : List UInt8) :
    Except Refusal (Instruction × List UInt8) := do
  let (header, bytes) ← order.readWord bytes
  let (operands, bytes) ← order.readWords (count.toNat - 1) bytes
  return ({
    module
    submodule := UInt16.ofNat (header.toNat >>> 16)
    operation := UInt16.ofNat header.toNat
    operands }, bytes)

def read (order : ByteOrder) (bytes : List UInt8) : Except Refusal (Instruction × List UInt8) := do
  let (first, bytes) ← order.readWord bytes
  if first ≠ CcdController.marker then .error (.marker bytes)
  else
    let (module, bytes) ← order.readWord bytes
    let (count, bytes) ← order.readWord bytes
    if count = 0 then .error (.wordCount bytes)
    else readBody order module count bytes

theorem length_of_read {order : ByteOrder} {bytes rest : List UInt8} {instruction : Instruction}
    (h : read order bytes = .ok (instruction, rest)) : rest.length + 16 ≤ bytes.length := by
  simp only [read, readBody, bind, Except.bind] at h
  repeat' split at h
  all_goals cases h
  rename_i readFirst _ _ _ readModule _ _ readCount _ _ _ readHeader _ _ readOperands
  have := ByteOrder.length_of_readWord readFirst
  have := ByteOrder.length_of_readWord readModule
  have := ByteOrder.length_of_readWord readCount
  have := ByteOrder.length_of_readWord readHeader
  have := ByteOrder.length_of_readWords readOperands
  omega

def readAll (order : ByteOrder) (bytes : List UInt8) : Except Refusal (List Instruction) :=
  if bytes = [] then .ok []
  else
    match _step : read order bytes with
    | .error refusal => .error refusal
    | .ok (instruction, rest) => (readAll order rest).map (instruction :: ·)
termination_by bytes.length
decreasing_by have := length_of_read _step; omega

end Instruction

end CcdController
