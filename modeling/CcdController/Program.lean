import CcdController.Mode
import CcdController.Word

namespace CcdController

def memoryCapacity : Nat := 1023

/-- Memory lines from address 0 on, and the modes by increasing address of their headers. -/
structure Program where
  words : List Word
  addresses : AddressTable
  deriving DecidableEq

namespace Program

def addressOf (program : Program) (mode : String) : Except Fault UInt16 :=
  match program.addresses.lookup mode with
  | none => .error (.unknownMode mode)
  | some address => .ok address

def modeNames (program : Program) : List String := program.addresses.map Prod.fst

theorem lookup_eq_none_iff {program : Program} {mode : String} :
    program.addresses.lookup mode = none ↔ mode ∉ program.modeNames := by
  rw [List.lookup_eq_none_iff, modeNames, List.mem_map]
  constructor
  · intro other held
    obtain ⟨entry, member, same⟩ := held
    exact absurd same.symm (by simpa using other entry member)
  · intro unheld entry member
    simpa using fun same => unheld ⟨entry, member, same.symm⟩

theorem addressOf_eq_error_iff {program : Program} {mode : String} {fault : Fault} :
    program.addressOf mode = .error fault ↔ mode ∉ program.modeNames ∧ fault = .unknownMode mode := by
  rw [← lookup_eq_none_iff, addressOf]
  cases program.addresses.lookup mode with
  | none => simp [eq_comm]
  | some address => simp

theorem exists_addressOf {program : Program} {mode : String} (known : mode ∈ program.modeNames) :
    ∃ address, program.addressOf mode = .ok address := by
  cases found : program.addressOf mode with
  | ok address => exact ⟨address, rfl⟩
  | error fault => exact absurd known (addressOf_eq_error_iff.mp found).1

def nameAt? (program : Program) (address : UInt16) : Option String :=
  (program.addresses.find? fun entry => entry.2 = address).map Prod.fst

def codes (program : Program) : List Nat := program.words.map Word.encode

def size (program : Program) : Nat := program.words.length

end Program

end CcdController
