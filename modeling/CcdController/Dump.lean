import CcdController.Chunks
import CcdController.Instruction
import CcdController.Text.Line
import CcdController.Text.Numeral

/-!
Hex dumps: texts with one numbered line per byte string. A line shows the words of its byte string
most significant byte first, so with the little byte order the bytes of a word are turned round.

    001:⇥0000029A 00000001 00000001 00000002
-/
namespace CcdController

/-- The bytes of a word from the order in which they travel to the one in which they are read, and
back. -/
def ByteOrder.turned (order : ByteOrder) (word : List UInt8) : List UInt8 :=
  match order with
  | .little => word.reverse
  | .big => word

theorem ByteOrder.turned_turned (order : ByteOrder) (word : List UInt8) :
    order.turned (order.turned word) = word := by
  cases order
  · exact List.reverse_reverse word
  · rfl

namespace Dump

open Text

def row (digits : UInt8 → List Char) (order : ByteOrder) (width number : Nat)
    (line : List UInt8) : List Char :=
  decimalDigits 3 number ++ [':', '\t'] ++
    [' '].intercalate ((chunks width line).map fun word => (order.turned word).flatMap digits)

def listing (digits : UInt8 → List Char) (order : ByteOrder) (width : Nat)
    (lines : List (List UInt8)) : String :=
  String.ofList (['\n'].intercalate (lines.mapIdx fun i line => row digits order width (i + 1) line))

def render (order : ByteOrder) (width : Nat) (lines : List (List UInt8)) : Except Fault String :=
  if width = 0 then .error (.unsupportedWidth width)
  else .ok (listing byteHex order width lines)

/-- What follows the number of a line. A line without a number below 2 ^ 32 stays as it is. -/
def afterNumber (line : List Char) : List Char :=
  let digits := line.takeWhile Char.isDigit
  match line.dropWhile Char.isDigit with
  | ':' :: rest => if digits ≠ [] ∧ Nat.ofDigitChars 10 digits 0 < UInt32.size then rest else line
  | _ => line

def isGap (c : Char) : Bool := c = ' ' || c = '\t'

def pieces (line : List Char) : List (List Char) :=
  (line.splitOnP isGap).filter fun piece => !piece.isEmpty

def lineBytes? (order : ByteOrder) (line : List Char) : Option (List UInt8) :=
  match pieces (afterNumber line) with
  | [] => none
  | found => do
      let words ← found.mapM bytesOfHex?
      return words.flatMap order.turned

def lineBytes (order : ByteOrder) (line : List Char) : Except Fault (List UInt8) :=
  match lineBytes? order line with
  | none => .error (.invalidData .dumpLine)
  | some bytes => .ok bytes

def parse (order : ByteOrder) (text : String) : Except Fault (List (List UInt8)) :=
  (contentLines text.toList).mapM (lineBytes order)

def lineInstructions (order : ByteOrder) (bytes : List UInt8) : Except Fault (List Instruction) :=
  match Instruction.readAll order bytes with
  | .ok instructions => .ok instructions
  | .error (.incomplete _) => .error .unexpectedEnd
  | .error _ => .error (.invalidData .instruction)

/-- The instructions of a dump. All its lines are parsed before the first instruction is read, and
no instruction goes on in the next line. -/
def instructions (order : ByteOrder) (text : String) : Except Fault (List Instruction) := do
  let lines ← parse order text
  let groups ← lines.mapM (lineInstructions order)
  return groups.flatten

end Dump

end CcdController
