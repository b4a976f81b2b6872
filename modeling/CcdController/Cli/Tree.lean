import CcdController.Cli.Files
import CcdController.Keyed

namespace CcdController.Cli

def pathLimit : Nat := 4095

def nameLimit : Nat := 255

inductive Entry where
  | directory
  | file (contents : ByteArray)

/-- The names that lead from the root to an entry, the last one first. -/
abbrev Place := List String

structure Tree where
  entries : List (Place × Entry)
  working : Place

inductive Finding where
  | directory
  | file (place : Place) (contents : ByteArray)
  | room (place : Place)
  | noDirectory

/-- The names on a path, one empty name before the slash of the root and one after a last slash. -/
def namesOf (path : String) : Except PathFault (List String) :=
  if path.toList.contains '\x00' then .error .nulInName
  else if path.utf8ByteSize > pathLimit then .error .nameTooLong
  else .ok ((path.toList.splitOn '/').map String.ofList)

namespace Tree

def entry? (tree : Tree) : Place → Option Entry
  | [] => some .directory
  | place => tree.entries.lookup place

/-- Follows names from a directory. A name that is too long is noticed where it is looked up. -/
def walk (tree : Tree) (place : Place) : List String → Except PathFault Finding
  | [] => .ok .directory
  | name :: rest =>
      if name = "" ∨ name = "." then walk tree place rest
      else if name = ".." then walk tree place.tail rest
      else if name.utf8ByteSize > nameLimit then .error .nameTooLong
      else
        match tree.entry? (name :: place) with
        | some .directory => walk tree (name :: place) rest
        | some (.file contents) =>
            if rest = [] then .ok (.file (name :: place) contents) else .error .notDirectory
        | none =>
            if rest = [] then .ok (.room (name :: place))
            else if rest.all (· = "") then .ok .noDirectory
            else .error .missing

def start (tree : Tree) (path : String) : Place :=
  if path.toList.head? = some '/' then [] else tree.working

def find (tree : Tree) (path : String) : Except PathFault Finding :=
  if path = "" then .error .missing
  else do
    let names ← namesOf path
    tree.walk (tree.start path) names

def read (tree : Tree) (path : String) : Except PathFault ByteArray := do
  match ← tree.find path with
  | .file _ contents => .ok contents
  | .directory => .error .isDirectory
  | .room _ | .noDirectory => .error .missing

def obstacle? (tree : Tree) (path : String) : Option PathFault :=
  match tree.find path with
  | .ok (.file ..) | .ok (.room _) => none
  | .ok .directory | .ok .noDirectory => some .isDirectory
  | .error fault => some fault

def files (tree : Tree) : Files Id := ⟨tree.read, tree.obstacle?⟩

def put (tree : Tree) (place : Place) (contents : ByteArray) : Tree :=
  { tree with entries := Keyed.assign place (.file contents) tree.entries }

def create (tree : Tree) (path : String) : Tree :=
  match tree.find path with
  | .ok (.file place _) | .ok (.room place) => tree.put place .empty
  | _ => tree

def append (tree : Tree) (path text : String) : Tree :=
  match tree.find path with
  | .ok (.file place contents) => tree.put place (contents ++ text.toUTF8)
  | _ => tree

end Tree

end CcdController.Cli
