import CcdController.Command
import CcdController.Program

namespace CcdController.Program

def writes (program : Program) : List Command :=
  program.codes.mapIdx fun address line => .writeSequencerMemory (UInt16.ofNat address) line

theorem getElem?_writes (program : Program) (address : Nat) : program.writes[address]? =
    program.codes[address]?.map fun line => .writeSequencerMemory (UInt16.ofNat address) line :=
  List.getElem?_mapIdx

def exposure (program : Program) (stopCleaning readOut : String) (openShutter : Bool) :
    Except Fault Command := do
  let stopCleaning ← program.addressOf stopCleaning
  let readOut ← program.addressOf readOut
  return .getImage stopCleaning readOut openShutter

end CcdController.Program
