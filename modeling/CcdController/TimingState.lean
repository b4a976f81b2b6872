import CcdController.Log
import CcdController.Pins

namespace CcdController

def maxHoldTime : Nat := 0xFFFFFF

structure TimingState where
  pins : Pins
  holdTime : Nat
  holdTime_le : holdTime ≤ maxHoldTime
  deriving DecidableEq

namespace TimingState

def ofPins (pins : Pins) (holdTime : Nat) : Except Fault TimingState :=
  if h : holdTime ≤ maxHoldTime then .ok ⟨pins, holdTime, h⟩ else .error (.holdTime holdTime)

def driveNamed (labels : PinLabels) : Pins → List (String × Bool) → Except Fault Pins
  | pins, [] => .ok pins
  | pins, (name, high) :: rest =>
      match labels.addressOf name with
      | .error fault => .error fault
      | .ok address => driveNamed labels (pins.drive address high) rest

def ofNamedBits (labels : PinLabels) (bits : List (String × Bool)) (holdTime : Nat) :
    Except Fault TimingState :=
  match driveNamed labels 0 bits with
  | .error fault => .error fault
  | .ok pins => ofPins pins holdTime

/-- The state where pin `i` has level `i`. With fewer levels than pins the others are low, and an
event tells so even where the hold time is then refused. -/
def ofBits (bits : List Bool) (holdTime : Nat) : Observed TimingState :=
  if pinCount < bits.length then ⟨.error (.tooManyBits bits.length), []⟩
  else
    ⟨ofPins (Pins.ofLevels bits) holdTime,
      if bits.length < pinCount then [.shortBits bits.length pinCount] else []⟩

def driveColumns (columns : List Pins) (address : Nat) (levels : List Bool) : List Pins :=
  List.zipWith (fun pins high => pins.drive address high) columns levels

/-- Drives the rows of a table in order. The length of a row is checked before its name. -/
def driveRows (labels : PinLabels) (width : Nat) :
    List Pins → List (String × List Bool) → Except Fault (List Pins)
  | columns, [] => .ok columns
  | columns, (name, levels) :: rest =>
      if levels.length ≠ width then .error (.rowLength name levels.length width)
      else
        match labels.addressOf name with
        | .error fault => .error fault
        | .ok address => driveRows labels width (driveColumns columns address levels) rest

def ofTable (labels : PinLabels) (rows : List (String × List Bool)) (holdTimes : List Nat) :
    Except Fault (List TimingState) :=
  match driveRows labels holdTimes.length (List.replicate holdTimes.length 0) rows with
  | .error fault => .error fault
  | .ok columns => (columns.zip holdTimes).mapM fun (pins, holdTime) => ofPins pins holdTime

def level (state : TimingState) (address : Nat) : Bool := state.pins.level address

section

variable {pins : Pins} {holdTime : Nat} {state : TimingState} {fault : Fault}

theorem ofPins_of_le (fits : holdTime ≤ maxHoldTime) :
    ofPins pins holdTime = .ok ⟨pins, holdTime, fits⟩ := dif_pos fits

theorem ofPins_of_long (long : maxHoldTime < holdTime) :
    ofPins pins holdTime = .error (.holdTime holdTime) := dif_neg (Nat.not_le.mpr long)

theorem ofPins_eq_ok_iff :
    ofPins pins holdTime = .ok state ↔ state.pins = pins ∧ state.holdTime = holdTime := by
  constructor
  · intro built
    by_cases fits : holdTime ≤ maxHoldTime
    · rw [ofPins_of_le fits] at built
      cases built
      exact ⟨rfl, rfl⟩
    · rw [ofPins_of_long (Nat.not_le.mp fits)] at built
      cases built
  · intro same
    rw [← same.1, ← same.2]
    exact ofPins_of_le state.holdTime_le

theorem ofPins_eq_error_iff :
    ofPins pins holdTime = .error fault ↔ maxHoldTime < holdTime ∧ fault = .holdTime holdTime := by
  by_cases fits : holdTime ≤ maxHoldTime
  · simp [ofPins_of_le fits, Nat.not_lt_of_le fits]
  · have long := Nat.not_le.mp fits
    simp [ofPins_of_long long, long, eq_comm]

theorem holdTime_of_ofPins (built : ofPins pins holdTime = .ok state) : holdTime ≤ maxHoldTime := by
  rw [← (ofPins_eq_ok_iff.mp built).2]
  exact state.holdTime_le

end

end TimingState

end CcdController
