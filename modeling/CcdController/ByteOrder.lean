namespace CcdController

inductive ByteOrder where
  | little
  | big
  deriving DecidableEq, Repr, Inhabited

namespace ByteOrder

def name : ByteOrder → String
  | little => "little-endian"
  | big => "big-endian"

/-- Byte `i` of a word, counted from the least significant. -/
def byteAt (word : UInt32) (i : Nat) : UInt8 := UInt8.ofNat (word.toNat >>> (8 * i))

def bytes (order : ByteOrder) (word : UInt32) : List UInt8 :=
  match order with
  | little => [byteAt word 0, byteAt word 1, byteAt word 2, byteAt word 3]
  | big => [byteAt word 3, byteAt word 2, byteAt word 1, byteAt word 0]

def wordOf (b0 b1 b2 b3 : UInt8) : UInt32 :=
  UInt32.ofNat (b0.toNat + 256 * (b1.toNat + 256 * (b2.toNat + 256 * b3.toNat)))

def word (order : ByteOrder) (b0 b1 b2 b3 : UInt8) : UInt32 :=
  match order with
  | little => wordOf b0 b1 b2 b3
  | big => wordOf b3 b2 b1 b0

def wordsBytes (order : ByteOrder) (words : List UInt32) : List UInt8 := words.flatMap order.bytes

theorem wordOf_byteAt (word : UInt32) :
    wordOf (byteAt word 0) (byteAt word 1) (byteAt word 2) (byteAt word 3) = word := by
  have bound := word.toNat_lt
  rw [← UInt32.toNat_inj]
  simp only [wordOf, byteAt, UInt8.toNat_ofNat', UInt32.toNat_ofNat']
  omega

theorem byteAt_wordOf (b0 b1 b2 b3 : UInt8) :
    byteAt (wordOf b0 b1 b2 b3) 0 = b0 ∧ byteAt (wordOf b0 b1 b2 b3) 1 = b1 ∧
      byteAt (wordOf b0 b1 b2 b3) 2 = b2 ∧ byteAt (wordOf b0 b1 b2 b3) 3 = b3 := by
  have h0 := b0.toNat_lt
  have h1 := b1.toNat_lt
  have h2 := b2.toNat_lt
  have h3 := b3.toNat_lt
  simp only [← UInt8.toNat_inj, wordOf, byteAt, UInt8.toNat_ofNat', UInt32.toNat_ofNat']
  omega

theorem length_bytes (order : ByteOrder) (word : UInt32) : (order.bytes word).length = 4 := by
  cases order <;> rfl

theorem bytes_word (order : ByteOrder) (b0 b1 b2 b3 : UInt8) :
    order.bytes (order.word b0 b1 b2 b3) = [b0, b1, b2, b3] := by
  cases order
  · obtain ⟨h0, h1, h2, h3⟩ := byteAt_wordOf b0 b1 b2 b3
    simp only [bytes, word, h0, h1, h2, h3]
  · obtain ⟨h0, h1, h2, h3⟩ := byteAt_wordOf b3 b2 b1 b0
    simp only [bytes, word, h0, h1, h2, h3]

end ByteOrder

end CcdController
