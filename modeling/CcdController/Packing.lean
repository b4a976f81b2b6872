import CcdController.ByteOrder
import CcdController.Fault

namespace CcdController

def wordRange (signed : Bool) : Int × Int :=
  if signed then (-0x80000000, 0x7FFFFFFF) else (0, 0xFFFFFFFF)

def wordOfInt (value : Int) : UInt32 := UInt32.ofNat (value % 0x100000000).toNat

def highHalf (value : UInt64) : UInt32 := UInt32.ofNat (value.toNat >>> 32)

def lowHalf (value : UInt64) : UInt32 := UInt32.ofNat value.toNat

namespace ByteOrder

def packWord (order : ByteOrder) (value : Int) (signed : Bool) : Except Fault (List UInt8) :=
  let (least, greatest) := wordRange signed
  if value < least ∨ greatest < value then .error (.outOfRange .word value least greatest)
  else .ok (order.bytes (wordOfInt value))

/-- Packs both halves, the high half first. A half is never taken for a negative number, so a
signed half from 2 ^ 31 on is refused. -/
def packWide (order : ByteOrder) (value : UInt64) (signed : Bool) : Except Fault (List UInt8) := do
  let high ← order.packWord (highHalf value).toNat signed
  let low ← order.packWord (lowHalf value).toNat signed
  return high ++ low

/-- Packs a number into `width` bytes. Eight bytes hold it modulo 2 ^ 64. -/
def pack (order : ByteOrder) (value : Int) (width : Nat) (signed : Bool) :
    Except Fault (List UInt8) :=
  match width with
  | 4 => order.packWord value signed
  | 8 => order.packWide (UInt64.ofNat (value % 0x10000000000000000).toNat) signed
  | _ => .error (.unsupportedWidth width)

end ByteOrder

end CcdController
