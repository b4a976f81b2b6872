import CcdController.Cli.Files
import CcdController.Cli.Request
import CcdController.Dump
import CcdController.MemoryImage
import CcdController.Program.Listing

/-!
Reports: the titled sections that a request asks for, and the effects that bring them to their place.
All that can fail comes before the first effect.
-/
namespace CcdController.Cli

inductive Failure where
  | path (cause : PathFault)
  | notText
  /-- The smallest address of the sequencer memory that should be written and is not. -/
  | memoryGap (address : Nat)
  | fault (fault : Fault)
  deriving DecidableEq

def Failure.message : Failure → String
  | path cause => cause.message
  | notText => "stream did not contain valid UTF-8"
  | memoryGap address => s!"Sequencer memory is not written at address {address}"
  | fault cause => cause.message

def Failure.ofImage : MemoryImage.Failure → Failure
  | .gap address => memoryGap address
  | .fault cause => fault cause

structure ReportSection where
  title : String
  body : String
  deriving DecidableEq, Repr

def ReportSection.text (part : ReportSection) : String := part.title ++ "\n" ++ part.body ++ "\n\n"

def ReportSection.pieces (part : ReportSection) : List String :=
  [part.title ++ "\n", part.body ++ "\n\n"]

def operandsText (operands : List UInt32) : String :=
  "[" ++ ", ".intercalate (operands.map fun word => Text.hex 1 word.toNat) ++ "]"

def instructionRow (index : Nat) (instruction : Instruction) : String :=
  Text.decimal 3 (index + 1) ++ ": " ++
    match Command.ofInstruction instruction with
    | .ok command => command.text
    | .error _ =>
        s!"module {instruction.module} header {Text.hex 8 instruction.header.toNat} operands " ++
          operandsText instruction.operands

def memoryText (words : List Word) : String :=
  if words = [] then "No sequencer memory writes" else Listing.text (fun _ => none) none words

def bitsText (order : ByteOrder) (lines : List (List UInt8)) : String :=
  Dump.listing Text.byteBits order 4 lines

def bitsSections (order : ByteOrder) (text : String) : Except Failure (List ReportSection) := do
  let lines ← (Dump.parse order text).mapError .fault
  return [⟨"Bits", bitsText order lines⟩]

def disasmSections (order : ByteOrder) (text : String) : Except Failure (List ReportSection) := do
  let instructions ← (Dump.instructions order text).mapError .fault
  let words ← (MemoryImage.ofInstructions instructions).mapError .ofImage
  return [⟨"Instructions", Text.joinedRows (instructions.mapIdx instructionRow)⟩,
    ⟨"Sequencer memory", memoryText words⟩]

def sections (request : Request) (text : String) : Except Failure (List ReportSection) :=
  match request.view with
  | .bits => bitsSections request.order text
  | .disasm => disasmSections request.order text

inductive Effect where
  | print (text : String)
  | create (path : String)
  | append (path text : String)
  deriving DecidableEq, Repr

/-- The effects that bring sections to where a request wants them. A file gets a section as a whole. -/
def effects (request : Request) (parts : List ReportSection) : List Effect :=
  match request.output with
  | none => (parts.flatMap ReportSection.pieces).map .print
  | some path => .create path :: parts.map fun part => .append path part.text

def textOf (contents : ByteArray) : Except Failure String :=
  match String.fromUTF8? contents with
  | none => .error .notText
  | some text => .ok text

def Request.respond (request : Request) (contents : Except PathFault ByteArray) :
    Except Failure (List Effect) := do
  let contents ← contents.mapError .path
  let text ← textOf contents
  let parts ← sections request text
  return effects request parts

end CcdController.Cli
