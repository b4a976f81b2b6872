import CcdController.Command
import CcdController.Keyed
import CcdController.Word

namespace CcdController.MemoryImage

inductive Failure where
  | gap (address : Nat)
  | fault (fault : Fault)
  deriving DecidableEq

def write? (instruction : Instruction) : Option (Nat × Nat) :=
  match Command.ofInstruction instruction with
  | .ok (.writeSequencerMemory address line) => some (address.toNat, line)
  | _ => none

def held (instructions : List Instruction) : List (Nat × Nat) :=
  Keyed.assignAll (instructions.filterMap write?)

def lineAt (lines : List (Nat × Nat)) (address : Nat) : Except Failure Nat :=
  match lines.lookup address with
  | none => .error (.gap address)
  | some line => .ok line

def wordOf (line : Nat) : Except Failure Word := (Word.decode line).mapError .fault

/-- The words at the addresses from 0 on. Gaps are looked for before any line is decoded. -/
def ofInstructions (instructions : List Instruction) : Except Failure (List Word) := do
  let lines ← (List.range (held instructions).length).mapM (lineAt (held instructions))
  lines.mapM wordOf

end CcdController.MemoryImage
