import CcdController.Program

/-!
Assemblies: modes registered by distinct names, and the program they are compiled to. Modes are laid
out in the order of registration, each with its header first and its states after it.
-/
namespace CcdController

structure Assembly where
  modes : List Mode
  names_nodup : (modes.map Mode.name).Nodup

namespace Assembly

def empty : Assembly := ⟨[], List.nodup_nil⟩

def find? (assembly : Assembly) (name : String) : Option Mode :=
  assembly.modes.find? fun mode => mode.name = name

def add (assembly : Assembly) (mode : Mode) : Except Fault Assembly :=
  if h : mode.name ∈ assembly.modes.map Mode.name then .error (.duplicateMode mode.name)
  else
    .ok {
      modes := assembly.modes ++ [mode]
      names_nodup := by
        rw [List.map_append, List.nodup_append]
        refine ⟨assembly.names_nodup, by simp, ?_⟩
        intro a ha b hb same
        simp only [List.map_cons, List.map_nil, List.mem_singleton] at hb
        exact h (hb ▸ same ▸ ha) }

def nextIssues (assembly : Assembly) (mode : Mode) : List Issue :=
  match mode.next with
  | none => []
  | some next =>
      match assembly.find? next with
      | none => [.unknownNext mode.name next]
      | some _ => []

def parentIssues (assembly : Assembly) (mode : Mode) : List Issue :=
  match mode.parent with
  | none => []
  | some parent =>
      match assembly.find? parent with
      | none => [.unknownParent mode.name parent]
      | some found =>
          match found.parent with
          | none => []
          | some grandparent => [.doubleNesting mode.name parent grandparent]

def issues (assembly : Assembly) : List Issue :=
  assembly.modes.flatMap fun mode => assembly.nextIssues mode ++ assembly.parentIssues mode

def lineCount (assembly : Assembly) : Nat :=
  assembly.modes.foldr (fun mode later => mode.lineCount + later) 0

def offsetsFrom (offset : Nat) : List Mode → List (String × Nat)
  | [] => []
  | mode :: rest => (mode.name, offset) :: offsetsFrom (offset + mode.lineCount) rest

/-- The address of a mode by the lines before it. It has 16 bits, and where they are too few the
fault tells the number of lines in all. -/
def addressAt (total : Nat) (entry : String × Nat) : Except Fault (String × UInt16) :=
  if entry.2 < UInt16.size then .ok (entry.1, UInt16.ofNat entry.2)
  else .error (.memoryOverflow total memoryCapacity)

def block (addresses : AddressTable) (mode : Mode) : Except Fault (List Word) := do
  let header ← mode.header addresses
  return .header header :: mode.states.map .state

/-- Puts the modes into memory. What they take there is compared with the capacity at the end. -/
def layOut (assembly : Assembly) : Except Fault Program := do
  let addresses ← (offsetsFrom 0 assembly.modes).mapM (addressAt assembly.lineCount)
  let blocks ← assembly.modes.mapM (block addresses)
  let words := blocks.flatten
  if memoryCapacity < words.length then .error (.memoryOverflow words.length memoryCapacity)
  else return ⟨words, addresses⟩

/-- Compiles the modes. Issues come before a program that is too long. -/
def compile (assembly : Assembly) : Observed Program :=
  if assembly.issues ≠ [] then
    ⟨.error (.inconsistent assembly.issues), assembly.issues.map .inconsistency⟩
  else
    match assembly.layOut with
    | .error fault => ⟨.error fault, []⟩
    | .ok program => ⟨.ok program, [.compiled assembly.modes.length program.size]⟩

end Assembly

end CcdController
