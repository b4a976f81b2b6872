import CcdController.ModeHeader
import CcdController.TimingState

namespace CcdController

def maxStates : Nat := 1023

def maxLoops : Nat := UInt16.size - 1

abbrev AddressTable := List (String × UInt16)

structure Nesting where
  parent : String
  returns : UInt16
  returns_pos : 0 < returns
  deriving DecidableEq

/-- A loop of states. It is played `loopCount` times, or forever where that is 0, and then goes on
with `next`. A nested mode goes back to its parent a number of times before it goes on. -/
structure Mode where
  name : String
  loopCount : UInt16
  next : Option String
  nesting : Option Nesting
  states : List TimingState
  states_le : states.length ≤ maxStates
  deriving DecidableEq

def Nesting.ofCount (parent : String) (count : Nat) : Except Fault Nesting :=
  if h : 1 ≤ count ∧ count ≤ maxLoops then
    .ok {
      parent
      returns := UInt16.ofNat count
      returns_pos := by
        have least := h.1
        have greatest : count < UInt16.size := Nat.lt_succ_of_le h.2
        rw [UInt16.lt_iff_toNat_lt, UInt16.toNat_ofNat_of_lt' greatest]
        exact least }
  else .error (.outOfRange .nestedLoopCount count 1 maxLoops)

namespace Mode

def ofLoops (name : String) (loops : Nat) (next : Option String)
    (nesting : Option (String × Nat)) : Except Fault Mode :=
  if loops ≤ maxLoops then do
    let nesting ← match nesting with
      | none => pure none
      | some (parent, count) => some <$> Nesting.ofCount parent count
    return {
      name
      loopCount := UInt16.ofNat loops
      next
      nesting
      states := []
      states_le := Nat.zero_le _ }
  else .error (.outOfRange .loopCount loops 0 maxLoops)

def addState (mode : Mode) (state : TimingState) : Except Fault Mode :=
  if h : mode.states.length < maxStates then
    .ok { mode with
      states := mode.states ++ [state]
      states_le := by rw [List.length_append]; exact h }
  else .error (.tooManyStates mode.name)

/-- Adds states in order and stops at the first that does not fit. The states before it stay. -/
def addStates (mode : Mode) : List TimingState → Mode × Except Fault Unit
  | [] => (mode, .ok ())
  | state :: rest =>
      match mode.addState state with
      | .error fault => (mode, .error fault)
      | .ok mode => mode.addStates rest

def parent (mode : Mode) : Option String := mode.nesting.map Nesting.parent

def isNested (mode : Mode) : Bool := mode.nesting.isSome

def nestedLoopCount (mode : Mode) : UInt16 :=
  match mode.nesting with
  | none => 0
  | some nesting => nesting.returns

def lineCount (mode : Mode) : Nat := 1 + mode.states.length

def resolve (addresses : AddressTable) : Option String → Except Fault UInt16
  | none => .ok noMode
  | some name =>
      match addresses.lookup name with
      | none => .error (.unknownMode name)
      | some address => .ok address

def header (mode : Mode) (addresses : AddressTable) : Except Fault ModeHeader := do
  let nextAddress ← resolve addresses mode.next
  let parentAddress ← resolve addresses mode.parent
  return {
    stateCount := UInt16.ofNat mode.states.length
    loopCount := mode.loopCount
    nestedLoopCount := mode.nestedLoopCount
    isNested := mode.isNested
    nextAddress
    parentAddress }

end Mode

end CcdController
