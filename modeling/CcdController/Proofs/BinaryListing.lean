import CcdController.Cli.Report
import CcdController.Proofs.DumpReading

namespace CcdController

namespace Text

/-- A hexadecimal digit as four binary ones. What is no digit stays. -/
def digitBits (c : Char) : List Char :=
  match hexValue? c with
  | some value => binary 4 value
  | none => [c]

def lineInBinary (line : List Char) : List Char :=
  line.takeWhile (· ≠ '\t') ++ (line.dropWhile (· ≠ '\t')).flatMap digitBits

def inBinary (text : List Char) : List Char :=
  ['\n'].intercalate ((text.splitOn '\n').map lineInBinary)

theorem digitBits_hexDigit {d : Nat} (small : d < 16) : digitBits (hexDigit d) = binary 4 d := by
  rw [digitBits, hexValue?_hexDigit small]

/-- The digits of a number are those of its high part and then those of its low part. -/
theorem binary_add (high low n : Nat) :
    binary (high + low) n = binary high (n / 2 ^ low) ++ binary low (n % 2 ^ low) := by
  rw [binary, Nat.add_comm, List.range_add, List.reverse_append, ← List.map_reverse, List.map_append,
    List.map_map]
  congr 1
  · apply List.map_congr_left
    intro i _
    rw [Function.comp, Nat.testBit_div_two_pow, Nat.add_comm]
  · apply List.map_congr_left
    intro i member
    have below : i < low := by simpa using member
    simp [Nat.testBit_mod_two_pow, below]

theorem flatMap_digitBits_byteHex (b : UInt8) : (byteHex b).flatMap digitBits = byteBits b := by
  have bound := b.toNat_lt
  have high : b.toNat / 16 < 16 := by omega
  have low : b.toNat % 16 < 16 := Nat.mod_lt _ (by decide)
  calc
    (byteHex b).flatMap digitBits = binary 4 (b.toNat / 16) ++ binary 4 (b.toNat % 16) := by
      simp [byteHex, digitBits_hexDigit high, digitBits_hexDigit low]
    _ = byteBits b := (binary_add 4 4 b.toNat).symm

end Text

namespace Dump

open Text

theorem flatMap_intercalate {f : Char → List Char} {separator : Char}
    (kept : f separator = [separator]) (texts : List (List Char)) :
    ([separator].intercalate texts).flatMap f = [separator].intercalate (texts.map (List.flatMap f)) := by
  induction texts with
  | nil => rfl
  | cons text texts ih =>
      cases texts with
      | nil => simp
      | cons next others =>
          rw [List.map_cons, List.map_cons, List.intercalate_cons_cons, List.intercalate_cons_cons,
            List.flatMap_append, List.flatMap_append, ih, List.map_cons]
          simp [kept]

variable (order : ByteOrder)

theorem flatMap_word (word : List UInt8) :
    ((order.turned word).flatMap byteHex).flatMap digitBits = (order.turned word).flatMap byteBits := by
  rw [List.flatMap_assoc]
  simp only [flatMap_digitBits_byteHex]

theorem lineInBinary_row (width number : Nat) (line : List UInt8) :
    lineInBinary (row byteHex order width number line) = row byteBits order width number line := by
  let body := [' '].intercalate (wordTexts order width line)
  let front := decimalDigits 3 number ++ [':']
  have whole : row byteHex order width number line = front ++ '\t' :: body := by
    simp [row_eq, front, body]
  have tabless : ∀ c ∈ front, (decide (c ≠ '\t')) = true := by
    intro c member
    rcases List.mem_append.mp member with digit | colon
    · have numeric := isDigit_of_mem_decimalDigits digit
      simp only [decide_eq_true_eq]
      intro tab
      rw [tab] at numeric
      cases numeric
    · simp only [List.mem_singleton] at colon
      simp [colon]
  have number_kept : (row byteHex order width number line).takeWhile (· ≠ '\t') = front := by
    rw [whole, List.takeWhile_append_of_pos tabless]
    simp
  have behind : (row byteHex order width number line).dropWhile (· ≠ '\t') = '\t' :: body := by
    rw [whole, List.dropWhile_append_of_pos tabless]
    simp
  have words : body.flatMap digitBits =
      [' '].intercalate ((chunks width line).map fun word => (order.turned word).flatMap byteBits) := by
    have space : digitBits ' ' = [' '] := by decide
    rw [flatMap_intercalate space, wordTexts, List.map_map]
    congr 2
    funext word
    exact flatMap_word order word
  have tab : digitBits '\t' = ['\t'] := by decide
  rw [lineInBinary, number_kept, behind, List.flatMap_cons, tab, words, row]
  simp [front]

theorem inBinary_listing (width : Nat) (lines : List (List UInt8)) :
    inBinary (listing byteHex order width lines).toList =
      (listing byteBits order width lines).toList := by
  cases lines with
  | nil => rfl
  | cons line lines =>
      let rows := (line :: lines).mapIdx fun i line => row byteHex order width (i + 1) line
      have some : rows ≠ [] := by simp [rows]
      have whole : ∀ text ∈ rows, '\n' ∉ text := by
        intro text member
        rcases List.mem_mapIdx.mp member with ⟨i, below, rfl⟩
        exact newline_notMem_row order width (i + 1) _
      have split : (['\n'].intercalate rows).splitOn '\n' = rows :=
        List.splitOn_intercalate '\n' whole some
      have each : rows.map lineInBinary =
          (line :: lines).mapIdx fun i line => row byteBits order width (i + 1) line := by
        apply List.ext_getElem?
        intro i
        simp only [rows, List.getElem?_map, List.getElem?_mapIdx, Option.map_map]
        congr 1
        funext line
        exact lineInBinary_row order width (i + 1) line
      rw [listing, listing, String.toList_ofList, String.toList_ofList, inBinary, split, each]

example : inBinary "001:\t0000029A 05\n002:\tAB".toList =
    "001:\t00000000000000000000001010011010 00000101\n002:\t10101011".toList := by decide

/-- The binary listing of what is read from a rendered dump is the text of the dump in binary. -/
theorem bits_of_render {lines : List (List UInt8)} (few : lines.length < 2 ^ 32)
    (filled : ∀ line ∈ lines, line ≠ []) :
    ∃ text dump, render order 4 lines = .ok text ∧ parse order text = .ok dump ∧
      Cli.bitsText order dump = String.ofList (inBinary text.toList) ∧
      Cli.bitsSections order text = .ok [⟨"Bits", String.ofList (inBinary text.toList)⟩] := by
  have read : parse order (listing byteHex order 4 lines) = .ok lines :=
    parse_listing order (by decide) few filled
  have bits : Cli.bitsText order lines =
      String.ofList (inBinary (listing byteHex order 4 lines).toList) := by
    rw [inBinary_listing, String.ofList_toList, Cli.bitsText]
  refine ⟨listing byteHex order 4 lines, lines, rfl, read, bits, ?_⟩
  rw [Cli.bitsSections, read, ← bits]
  rfl

theorem bits_of_render_shortWords :
    [[0x9A, 2, 0, 0, 5, 6], [0xAB]].length < 2 ^ 32 ∧
    (∀ line ∈ [[0x9A, 2, 0, 0, 5, 6], [0xAB]], line ≠ ([] : List UInt8)) ∧
    ∃ text dump, render .little 4 [[0x9A, 2, 0, 0, 5, 6], [0xAB]] = .ok text ∧
      parse .little text = .ok dump ∧
      Cli.bitsText .little dump = String.ofList (inBinary text.toList) ∧
      Cli.bitsSections .little text = .ok [⟨"Bits", String.ofList (inBinary text.toList)⟩] :=
  ⟨by decide, by decide, bits_of_render .little (by decide) (by decide)⟩

end Dump

end CcdController
