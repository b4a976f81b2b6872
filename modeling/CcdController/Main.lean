import CcdController.Cli.Run

namespace CcdController.Cli

def usage : String :=
  "Usage: ccd-controller <bits|disasm> <DUMP> [--byte-order <little|big>] [-o <PATH>]"

def PathFault.ofError : IO.Error → PathFault
  | .noFileOrDirectory .. => missing
  | error => other (toString error)

def disk : Files IO where
  read path := do
    match ← (IO.FS.readBinFile path).toBaseIO with
    | .ok contents => return .ok contents
    | .error error => return .error (PathFault.ofError error)
  obstacle? _ := return none

def Effect.perform : Effect → IO Unit
  | print text => IO.print text
  | create path => IO.FS.writeFile path ""
  | append path text => do
      let file ← IO.FS.Handle.mk path .append
      file.putStr text

def complain (message : String) : IO UInt32 := do
  IO.eprintln s!"Error: {message}"
  return 1

def Ending.conclude : Ending → IO UInt32
  | usage => do
      IO.eprintln Cli.usage
      return 2
  | failed failure => complain failure.message
  | finished effects => do
      effects.forM Effect.perform
      return 0

end CcdController.Cli

open CcdController in
def main (arguments : List String) : IO UInt32 :=
  tryCatch (Cli.run Cli.disk arguments >>= Cli.Ending.conclude) fun error =>
    Cli.complain (Cli.PathFault.ofError error).message
