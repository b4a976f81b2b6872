import CcdController.Text.Extender
import CcdController.Text.Unassigned

namespace CcdController.Text

/-- Characters that a quoted string shows by their code point: those that cannot be seen by
themselves, other than the space, and those that have no agreed shape. -/
def isHidden (c : Char) : Bool :=
  controls.contains c || (separators.contains c && c != ' ') || formats.contains c
    || fillers.contains c || extenders.contains c || privates.contains c || unassigned.contains c

def escaped (c : Char) : List Char :=
  match c with
  | '"' => ['\\', '"']
  | '\\' => ['\\', '\\']
  | '\t' => ['\\', 't']
  | '\n' => ['\\', 'n']
  | '\r' => ['\\', 'r']
  | '\x00' => ['\\', '0']
  | c =>
      if isHidden c then '\\' :: 'u' :: '\x7b' :: (Nat.toDigits 16 c.toNat ++ ['\x7d'])
      else [c]

def quoted (s : String) : String := String.ofList ('"' :: (s.toList.flatMap escaped ++ ['"']))

end CcdController.Text
