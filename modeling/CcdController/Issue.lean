import CcdController.Text.Quoted

namespace CcdController

open Text (quoted)

inductive Issue where
  | unknownNext (mode next : String)
  | unknownParent (mode parent : String)
  /-- A nested mode returns to its parent, so the parent must not return anywhere itself. -/
  | doubleNesting (mode parent grandparent : String)
  deriving DecidableEq, Repr

def Issue.message : Issue → String
  | unknownNext mode next => s!"Next mode {quoted next} for mode {quoted mode} does not exist"
  | unknownParent mode parent =>
      s!"Parent mode {quoted parent} for mode {quoted mode} does not exist"
  | doubleNesting mode parent grandparent =>
      s!"Double nested modes detected: {quoted mode} in {quoted parent} in {quoted grandparent}"

end CcdController
