import CcdController.Cli.Report
import CcdController.Cli.Tree

namespace CcdController.Cli

inductive Ending where
  | usage
  | finished (effects : List Effect)
  | failed (failure : Failure)
  deriving DecidableEq

def Ending.ofObstacle (effects : List Effect) : Option PathFault → Ending
  | none => finished effects
  | some fault => failed (.path fault)

/-- Runs the command line. The dump is read only where all paths for the output are free, and room for
the output is asked for only once the result is there. -/
def run {m : Type → Type} [Monad m] (files : Files m) (arguments : List String) : m Ending :=
  match Request.ofArguments? arguments with
  | none => pure .usage
  | some request => do
      if ← request.outputs.anyM files.isTaken then pure .usage
      else do
        match request.respond (← files.read request.dump) with
        | .error failure => pure (.failed failure)
        | .ok effects =>
            match request.output with
            | none => pure (.finished effects)
            | some path => Ending.ofObstacle effects <$> files.obstacle? path

def printed (effects : List Effect) : String :=
  String.join (effects.map fun
    | .print text => text
    | _ => "")

def Tree.perform (tree : Tree) : Effect → Tree
  | .print _ => tree
  | .create path => tree.create path
  | .append path text => tree.append path text

end CcdController.Cli
