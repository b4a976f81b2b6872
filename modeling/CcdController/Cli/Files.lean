namespace CcdController.Cli

inductive PathFault where
  | missing
  | notDirectory
  | isDirectory
  | nameTooLong
  | nulInName
  | other (text : String)
  deriving DecidableEq, Repr

def PathFault.message : PathFault → String
  | missing => "No such file or directory (os error 2)"
  | notDirectory => "Not a directory (os error 20)"
  | isDirectory => "Is a directory (os error 21)"
  | nameTooLong => "File name too long (os error 36)"
  | nulInName => "file name contained an unexpected NUL byte"
  | other text => text

structure Files (m : Type → Type) where
  read : String → m (Except PathFault ByteArray)
  obstacle? : String → m (Option PathFault)

/-- A path is free only if it can be said that nothing is there. -/
def isFree : Except PathFault ByteArray → Bool
  | .error .missing => true
  | _ => false

def Files.isTaken {m : Type → Type} [Monad m] (files : Files m) (path : String) : m Bool := do
  return !isFree (← files.read path)

end CcdController.Cli
