import CcdController.ByteOrder

namespace CcdController

/-- Why nothing could be read off the front of a byte stream. A wrong marker and a word count of 0
come with the bytes after the word at fault, an unknown status with all bytes. -/
inductive Refusal where
  | incomplete (missing : Nat)
  | marker (rest : List UInt8)
  | wordCount (rest : List UInt8)
  | status (bytes : List UInt8)
  deriving DecidableEq, Repr

namespace ByteOrder

def readWord (order : ByteOrder) : List UInt8 → Except Refusal (UInt32 × List UInt8)
  | b0 :: b1 :: b2 :: b3 :: rest => .ok (order.word b0 b1 b2 b3, rest)
  | bytes => .error (.incomplete (4 - bytes.length))

def readWords (order : ByteOrder) : Nat → List UInt8 → Except Refusal (List UInt32 × List UInt8)
  | 0, bytes => .ok ([], bytes)
  | count + 1, bytes => do
      let (word, bytes) ← order.readWord bytes
      let (words, bytes) ← order.readWords count bytes
      return (word :: words, bytes)

theorem length_of_readWord {order : ByteOrder} {bytes rest : List UInt8} {word : UInt32}
    (h : order.readWord bytes = .ok (word, rest)) : bytes.length = rest.length + 4 := by
  unfold readWord at h
  split at h
  · cases h
    rfl
  · cases h

theorem length_of_readWords {order : ByteOrder} {count : Nat} {bytes rest : List UInt8}
    {words : List UInt32} (h : order.readWords count bytes = .ok (words, rest)) :
    bytes.length = rest.length + 4 * count := by
  induction count generalizing bytes words with
  | zero =>
      cases h
      rfl
  | succ count ih =>
      simp only [readWords, bind, Except.bind] at h
      split at h
      · cases h
      · next first readFirst =>
          split at h
          · cases h
          · next others readOthers =>
              cases h
              have := length_of_readWord readFirst
              have := ih readOthers
              omega

end ByteOrder

end CcdController
