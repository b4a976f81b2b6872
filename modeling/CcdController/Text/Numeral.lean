namespace CcdController.Text

def decimalDigits (width n : Nat) : List Char := (Nat.toDigits 10 n).leftpad width '0'

def decimal (width n : Nat) : String := String.ofList (decimalDigits width n)

def hexDigit (d : Nat) : Char := d.digitChar.toUpper

def hex (width n : Nat) : String :=
  String.ofList (((Nat.toDigits 16 n).map Char.toUpper).leftpad width '0')

def hexValue? (c : Char) : Option Nat :=
  if '0' ≤ c ∧ c ≤ '9' then some (c.toNat - '0'.toNat)
  else if 'A' ≤ c ∧ c ≤ 'F' then some (c.toNat - 'A'.toNat + 10)
  else if 'a' ≤ c ∧ c ≤ 'f' then some (c.toNat - 'a'.toNat + 10)
  else none

def byteHex (b : UInt8) : List Char := [hexDigit (b.toNat / 16), hexDigit (b.toNat % 16)]

def byteOfHex? (high low : Char) : Option UInt8 := do
  let h ← hexValue? high
  let l ← hexValue? low
  return UInt8.ofNat (16 * h + l)

def binary (width n : Nat) : List Char :=
  (List.range width).reverse.map fun i => if n.testBit i then '1' else '0'

def byteBits (b : UInt8) : List Char := binary 8 b.toNat

def bytesOfHex? : List Char → Option (List UInt8)
  | [] => some []
  | [_] => none
  | high :: low :: rest => do
      let b ← byteOfHex? high low
      let bytes ← bytesOfHex? rest
      return b :: bytes

theorem hexValue?_hexDigit {d : Nat} (h : d < 16) : hexValue? (hexDigit d) = some d := by
  have all : ∀ d : Fin 16, hexValue? (hexDigit d) = some d.val := by decide
  exact all ⟨d, h⟩

theorem byteOfHex?_byteHex (b : UInt8) :
    byteOfHex? (hexDigit (b.toNat / 16)) (hexDigit (b.toNat % 16)) = some b := by
  have bound := b.toNat_lt
  simp only [byteOfHex?, hexValue?_hexDigit (show b.toNat / 16 < 16 by omega),
    hexValue?_hexDigit (show b.toNat % 16 < 16 by omega), Option.bind_eq_bind, Option.bind_some]
  rw [show 16 * (b.toNat / 16) + b.toNat % 16 = b.toNat by omega]
  simp

theorem bytesOfHex?_flatMap_byteHex (bytes : List UInt8) :
    bytesOfHex? (bytes.flatMap byteHex) = some bytes := by
  induction bytes with
  | nil => rfl
  | cons b rest ih =>
      rw [List.flatMap_cons, byteHex, List.cons_append, List.cons_append, List.nil_append,
        bytesOfHex?, byteOfHex?_byteHex, ih]
      rfl

end CcdController.Text
