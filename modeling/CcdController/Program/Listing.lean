import CcdController.Program.Trace
import CcdController.Text.Line

namespace CcdController

abbrev ModeNames := UInt16 → Option String

namespace Listing

open Text (decimal)

def modeText (names : ModeNames) (address : UInt16) : String :=
  if address = noMode then "-" else (names address).getD (addressName address)

def headerRow (names : ModeNames) (index : UInt16) (header : ModeHeader) : String :=
  s!"{decimal 4 index.toNat} MODE  {modeText names index} | n_states:{header.stateCount} | " ++
    s!"n_loops:{header.loopCount} | nested_loops:{header.nestedLoopCount} | " ++
    s!"is_nested:{header.isNested.toNat} | next:{modeText names header.nextAddress} | " ++
    s!"parent:{modeText names header.parentAddress}"

def pinsText (labels : Option PinLabels) (state : TimingState) : String :=
  match labels with
  | none => s!"pins:{Text.hex 16 state.pins.toNat}"
  | some labels =>
      " ".intercalate <| labels.entries.map fun (name, address) =>
        s!"{name}:{(state.level address).toNat}"

def stateRow (labels : Option PinLabels) (index : UInt16) (state : TimingState) : String :=
  s!"{decimal 4 index.toNat} STATE {pinsText labels state} | hold:{state.holdTime}"

def row (names : ModeNames) (labels : Option PinLabels) (index : Nat) : Word → String
  | .header header => headerRow names (UInt16.ofNat index) header
  | .state state => stateRow labels (UInt16.ofNat index) state

def rows (names : ModeNames) (labels : Option PinLabels) (words : List Word) : List String :=
  words.mapIdx (row names labels)

def text (names : ModeNames) (labels : Option PinLabels) (words : List Word) : String :=
  Text.joinedRows (rows names labels words)

end Listing

def Program.listing (program : Program) (labels : Option PinLabels) : String :=
  Listing.text program.nameAt? labels program.words

end CcdController
