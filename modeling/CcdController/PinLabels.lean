import CcdController.Fault
import CcdController.Keyed

namespace CcdController

def pinCount : Nat := 64

structure PinLabels where
  entries : List (String × Nat)
  increasing : entries.Pairwise fun a b => a.2 < b.2
  names_nodup : (entries.map Prod.fst).Nodup
  addresses_lt : ∀ entry ∈ entries, entry.2 < pinCount

namespace PinLabels

def sharing (pairs : List (String × Nat)) (address : Nat) : List String :=
  ((pairs.filter fun pair => pair.2 = address).map Prod.fst).mergeSort fun a b => a ≤ b

def collisions (pairs : List (String × Nat)) : List (Nat × List String) :=
  ((List.range pinCount).map fun address => (address, sharing pairs address)).filter
    fun group => 1 < group.2.length

def byAddress (pairs : List (String × Nat)) : List (String × Nat) :=
  pairs.mergeSort fun a b => a.2 ≤ b.2

/-- Labels from pairs of a name and an address, where the last pair of a name decides. An address
outside the pins is refused before anything else is looked at. -/
def ofPairs (pairs : List (String × Nat)) : Except Fault PinLabels :=
  match outside : pairs.find? fun pair => pinCount ≤ pair.2 with
  | some pair => .error (.outOfRange .pinAddress pair.2 0 (pinCount - 1 : Nat))
  | none =>
      let held := Keyed.assignAll pairs
      if distinct : (byAddress held).Pairwise fun a b => a.2 < b.2 then
        .ok {
          entries := byAddress held
          increasing := distinct
          names_nodup := ((List.mergeSort_perm held _).map Prod.fst).nodup_iff.mpr
            (Keyed.nodup_assignAll pairs)
          addresses_lt := fun entry member => by
            have held := Keyed.mem_of_mem_assignAll ((List.mergeSort_perm _ _).mem_iff.mp member)
            simpa using List.find?_eq_none.mp outside entry held }
      else .error (.sharedAddresses (collisions held))

def addressOf (labels : PinLabels) (name : String) : Except Fault Nat :=
  match labels.entries.find? fun entry => entry.1 = name with
  | some entry => .ok entry.2
  | none => .error (.unknownLabel name)

def nameOf (labels : PinLabels) (address : Nat) : Except Fault String :=
  match labels.entries.find? fun entry => entry.2 = address with
  | some entry => .ok entry.1
  | none => .error (.unlabeledAddress address)

def size (labels : PinLabels) : Nat := labels.entries.length

theorem addressOf_lt {labels : PinLabels} {name : String} {address : Nat}
    (h : labels.addressOf name = .ok address) : address < pinCount := by
  rw [addressOf] at h
  split at h
  · next entry found =>
      cases h
      exact labels.addresses_lt entry (List.mem_of_find?_eq_some found)
  · cases h

end PinLabels

end CcdController
