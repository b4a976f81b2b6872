import CcdController.PinLabels

namespace CcdController

abbrev Pins := BitVec 64

namespace Pins

def level (pins : Pins) (address : Nat) : Bool := pins.getLsbD address

def drive (pins : Pins) (address : Nat) (high : Bool) : Pins :=
  if high then pins ||| BitVec.twoPow 64 address else pins &&& ~~~BitVec.twoPow 64 address

def ofLevels (levels : List Bool) : Pins := (BitVec.ofBoolListLE levels).setWidth 64

theorem eq_of_level {one other : Pins} (same : ∀ pin < pinCount, level one pin = level other pin) :
    one = other := BitVec.eq_of_getLsbD_eq same

theorem level_zero (address : Nat) : level 0 address = false := BitVec.getLsbD_zero

theorem level_drive {pins : Pins} {address other : Nat} {high : Bool} (h : address < pinCount) :
    level (drive pins address high) other = if other = address then high else level pins other := by
  have inside : address < 64 := h
  by_cases same : other = address
  · subst same
    cases high <;> simp [drive, level, inside]
  · have apart : ¬ address = other := fun h => same h.symm
    cases high
    · by_cases there : other < 64
      · simp [drive, level, same, there]
      · simp [drive, level, BitVec.getLsbD_of_ge pins other (by omega), same]
    · simp [drive, level, BitVec.getLsbD_twoPow, same, apart]

theorem level_ofLevels (levels : List Bool) (address : Nat) :
    level (ofLevels levels) address = (decide (address < pinCount) && levels.getD address false) := by
  simp [ofLevels, level]
  rfl

end Pins

end CcdController
