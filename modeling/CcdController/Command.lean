import CcdController.Instruction
import CcdController.Pins

namespace CcdController

inductive ControllerModule where
  | configurator
  | acquisition
  | pvm
  deriving DecidableEq, Repr

namespace ControllerModule

def index : ControllerModule → UInt32
  | configurator => 0
  | acquisition => 1
  | pvm => 2

def ofIndex? (index : UInt32) : Option ControllerModule :=
  match index.toNat with
  | 0 => some configurator
  | 1 => some acquisition
  | 2 => some pvm
  | _ => none

def name : ControllerModule → String
  | configurator => "Configurator"
  | acquisition => "Acquisition"
  | pvm => "Pvm"

end ControllerModule

inductive Channel where
  | one
  | three
  deriving DecidableEq, Repr

def Channel.name : Channel → String
  | one => "One"
  | three => "Three"

structure SpiTransfer where
  device : UInt8
  polarity : UInt8
  nbits : UInt8
  data : UInt32
  deriving DecidableEq, Repr

namespace SpiTransfer

def controlWord (transfer : SpiTransfer) : UInt32 :=
  UInt32.ofNat
    (transfer.device.toNat <<< 16 + transfer.polarity.toNat <<< 8 + transfer.nbits.toNat)

/-- The transfer of two words. The top byte of the control word has no meaning. -/
def ofWords (control data : UInt32) : SpiTransfer where
  device := UInt8.ofNat (control.toNat >>> 16)
  polarity := UInt8.ofNat (control.toNat >>> 8)
  nbits := UInt8.ofNat control.toNat
  data := data

end SpiTransfer

inductive Command where
  | powerOn (on : Bool)
  | resetDacs
  | spiVideo (transfer : SpiTransfer)
  | spiBiasClocks (transfer : SpiTransfer)
  | getImage (stopCleaning readOut : UInt16) (openShutter : Bool)
  | writeSequencerMemory (address : UInt16) (line : Nat)
  | enableSequencer
  | disableSequencer
  | writeExposureTime (ms : UInt32)
  | getPixels (channel : Channel)
  | getData (channel : Channel) (samples : UInt32)
  | testSequencerOn (holdTime : UInt32) (pins : Pins)
  | testSequencerOff
  deriving DecidableEq, Repr

structure Codes where
  module : ControllerModule
  submodule : UInt16
  operation : UInt16
  deriving DecidableEq, Repr

def flagWord (flag : Bool) : UInt32 := if flag then 1 else 0

/-- The three words of a memory line, high word first. Bits from 96 on are not sent. -/
def lineWords (line : Nat) : List UInt32 :=
  [UInt32.ofNat (line >>> 64), UInt32.ofNat (line >>> 32), UInt32.ofNat line]

def lineOfWords (high middle low : UInt32) : Nat :=
  high.toNat <<< 64 + middle.toNat <<< 32 + low.toNat

def pinsOfWords (high low : UInt32) : Pins := BitVec.ofNat 64 (high.toNat <<< 32 + low.toNat)

namespace Command

open ControllerModule

def codes : Command → Codes
  | powerOn _ => ⟨configurator, 0, 1⟩
  | resetDacs => ⟨configurator, 0, 2⟩
  | spiVideo _ => ⟨configurator, 1, 0⟩
  | spiBiasClocks _ => ⟨configurator, 2, 0⟩
  | getImage .. => ⟨acquisition, 0, 0⟩
  | writeSequencerMemory .. => ⟨acquisition, 0, 1⟩
  | enableSequencer => ⟨acquisition, 0, 2⟩
  | disableSequencer => ⟨acquisition, 0, 3⟩
  | writeExposureTime _ => ⟨acquisition, 0, 4⟩
  | getPixels .one => ⟨acquisition, 0, 5⟩
  | getPixels .three => ⟨acquisition, 0, 6⟩
  | getData .one _ => ⟨acquisition, 0, 7⟩
  | getData .three _ => ⟨acquisition, 0, 8⟩
  | testSequencerOn .. => ⟨acquisition, 0, 9⟩
  | testSequencerOff => ⟨acquisition, 0, 10⟩

def operands : Command → List Operand
  | powerOn on => [.word (flagWord on)]
  | spiVideo transfer | spiBiasClocks transfer =>
      [.word transfer.controlWord, .word transfer.data]
  | getImage stopCleaning readOut openShutter =>
      [.word stopCleaning.toUInt32, .word readOut.toUInt32, .word (flagWord openShutter)]
  | writeSequencerMemory address line => .word address.toUInt32 :: (lineWords line).map .word
  | writeExposureTime ms => [.word ms]
  | getData _ samples => [.word samples]
  | testSequencerOn holdTime pins => [.word holdTime, .wide ⟨pins⟩]
  | resetDacs | enableSequencer | disableSequencer | getPixels _ | testSequencerOff => []

def header (command : Command) : UInt32 :=
  headerWord command.codes.submodule command.codes.operation

def encode (order : ByteOrder) (command : Command) : List UInt8 :=
  envelope order command.codes.module.index command.header command.operands

def append (order : ByteOrder) (buffer : List UInt8) (command : Command) : List UInt8 :=
  buffer ++ command.encode order

def event (order : ByteOrder) (command : Command) : Event :=
  encodedEvent command.codes.module.index command.header (command.encode order)

def addressOperand (word : UInt32) : Except Fault UInt16 :=
  if word.toNat < UInt16.size then .ok word.toUInt16 else .error (.invalidData .addressOperand)

def ofWords (module : ControllerModule) (submodule operation : Nat) (operands : List UInt32) :
    Except Fault Command :=
  match module, submodule, operation, operands with
  | configurator, 0, 1, [flag] => .ok (powerOn (flag != 0))
  | configurator, 0, 2, [] => .ok resetDacs
  | configurator, 1, 0, [control, data] => .ok (spiVideo (.ofWords control data))
  | configurator, 2, 0, [control, data] => .ok (spiBiasClocks (.ofWords control data))
  | acquisition, 0, 0, [stop, readOut, shutter] => do
      let stop ← addressOperand stop
      let readOut ← addressOperand readOut
      return getImage stop readOut (shutter != 0)
  | acquisition, 0, 1, [address, high, middle, low] => do
      let address ← addressOperand address
      return writeSequencerMemory address (lineOfWords high middle low)
  | acquisition, 0, 2, [] => .ok enableSequencer
  | acquisition, 0, 3, [] => .ok disableSequencer
  | acquisition, 0, 4, [ms] => .ok (writeExposureTime ms)
  | acquisition, 0, 5, [] => .ok (getPixels .one)
  | acquisition, 0, 6, [] => .ok (getPixels .three)
  | acquisition, 0, 7, [samples] => .ok (getData .one samples)
  | acquisition, 0, 8, [samples] => .ok (getData .three samples)
  | acquisition, 0, 9, [holdTime, high, low] => .ok (testSequencerOn holdTime (pinsOfWords high low))
  | acquisition, 0, 10, [] => .ok testSequencerOff
  | _, _, _, _ => .error (.invalidData .unknownInstruction)

def ofInstruction (instruction : Instruction) : Except Fault Command :=
  match ControllerModule.ofIndex? instruction.module with
  | none => .error (.invalidData .moduleIndex)
  | some module =>
      ofWords module instruction.submodule.toNat instruction.operation.toNat instruction.operands

private def transferText (transfer : SpiTransfer) : String :=
  s!"SpiTransfer \x7b device: {transfer.device}, polarity: {transfer.polarity}, " ++
    s!"nbits: {transfer.nbits}, data: {transfer.data} \x7d"

def text : Command → String
  | powerOn on => s!"PowerOn({on})"
  | resetDacs => "ResetDacs"
  | spiVideo transfer => s!"SpiVideo({transferText transfer})"
  | spiBiasClocks transfer => s!"SpiBiasClocks({transferText transfer})"
  | getImage stop readOut shutter =>
      s!"GetImage \x7b stop_cleaning: {stop}, get_image: {readOut}, open_shutter: {shutter} \x7d"
  | writeSequencerMemory address line =>
      s!"WriteSequencerMemory \x7b address: {address}, word: {line} \x7d"
  | enableSequencer => "EnableSequencer"
  | disableSequencer => "DisableSequencer"
  | writeExposureTime ms => s!"WriteExposureTime({ms})"
  | getPixels channel => s!"GetPixels({channel.name})"
  | getData channel samples =>
      s!"GetData \x7b channel: {channel.name}, samples: {samples} \x7d"
  | testSequencerOn holdTime pins =>
      s!"TestSequencerOn \x7b hold_time: {holdTime}, pins: {pins.toNat} \x7d"
  | testSequencerOff => "TestSequencerOff"

end Command

end CcdController
