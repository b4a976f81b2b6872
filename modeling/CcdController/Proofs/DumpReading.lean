import Mathlib.Algebra.GroupWithZero.Nat
import CcdController.Dump
import CcdController.Proofs.TextLines
import CcdController.Proofs.Traversal

namespace CcdController

namespace Text

theorem isBlank_hexDigit {d : Nat} (small : d < 16) : isBlank (hexDigit d) = false := by
  have all : ∀ d : Fin 16, isBlank (hexDigit d) = false := by decide
  exact all ⟨d, small⟩

theorem isBlank_of_mem_byteHex {b : UInt8} {c : Char} (member : c ∈ byteHex b) :
    isBlank c = false := by
  have bound := b.toNat_lt
  rw [byteHex, List.mem_cons, List.mem_singleton] at member
  rcases member with rfl | rfl
  · exact isBlank_hexDigit (by omega)
  · exact isBlank_hexDigit (Nat.mod_lt _ (by decide))

theorem isBlank_of_isDigit {c : Char} (digit : c.isDigit) : isBlank c = false := by
  have range : 48 ≤ c.toNat ∧ c.toNat ≤ 57 := by
    simp only [Char.isDigit, Bool.and_eq_true, decide_eq_true_eq] at digit
    exact digit
  simp only [isBlank, CodeRanges.contains, blanks, List.any_cons, List.any_nil]
  simp only [Bool.or_eq_false_iff, Bool.and_eq_false_iff, decide_eq_false_iff_not, and_true]
  omega

theorem isDigit_of_mem_decimalDigits {width n : Nat} {c : Char}
    (member : c ∈ decimalDigits width n) : c.isDigit := by
  rw [decimalDigits, List.leftpad, List.mem_append] at member
  rcases member with padding | digit
  · rw [List.eq_of_mem_replicate padding]
    decide
  · exact Nat.isDigit_of_mem_toDigits (by decide) (by decide) digit

theorem ofDigitChars_decimalDigits (width n : Nat) :
    Nat.ofDigitChars 10 (decimalDigits width n) 0 = n := by
  rw [decimalDigits, List.leftpad, Nat.ofDigitChars_append, Nat.ofDigitChars_replicate_zero,
    Nat.mul_zero, Nat.ofDigitChars_ten_toDigits]

theorem decimalDigits_ne_nil (width n : Nat) : decimalDigits width n ≠ [] := by
  intro empty
  have parts := List.append_eq_nil_iff.mp empty
  exact Nat.toDigits_ne_nil parts.2

theorem trimmed_eq_self {cs : List Char} {first last : Char} {front back : List Char}
    (starts : cs = first :: back) (ends : cs = front ++ [last])
    (firstSolid : isBlank first = false) (lastSolid : isBlank last = false) :
    trimmed cs = cs := by
  apply Trims.trimmed_eq
  constructor
  · exact ⟨[], [], (List.append_nil cs).symm, by simp, by simp⟩
  · rw [starts, List.head?_cons]
    rintro c ⟨⟩
    exact firstSolid
  · rw [ends, List.getLast?_concat]
    rintro c ⟨⟩
    exact lastSolid

end Text

theorem ne_nil_of_mem_chunks {α : Type} {width : Nat} {items chunk : List α}
    (member : chunk ∈ chunks width items) : chunk ≠ [] := by
  fun_induction chunks width items with
  | case1 items none => cases member
  | case2 items some ih =>
      rcases List.mem_cons.mp member with rfl | later
      · intro empty
        rcases List.take_eq_nil_iff.mp empty with zero | nothing
        · exact some (.inl zero)
        · exact some (.inr (List.length_eq_zero_iff.mpr nothing))
      · exact ih later

namespace Dump

open Text

theorem splitOnP_intercalate {α : Type} {p : α → Bool} {separator : α}
    (separates : p separator = true) {words : List (List α)} (some : words ≠ [])
    (solid : ∀ word ∈ words, ∀ item ∈ word, p item = false) :
    ([separator].intercalate words).splitOnP p = words := by
  induction words with
  | nil => exact absurd rfl some
  | cons word words ih =>
      obtain ⟨first, rest⟩ := List.forall_mem_cons.mp solid
      cases words with
      | nil =>
          rw [List.intercalate_singleton]
          exact List.splitOnP_eq_singleton first
      | cons next others =>
          rw [List.intercalate_cons_cons, List.append_assoc, List.singleton_append,
            List.splitOnP_append_cons_of_forall_mem first separator separates,
            ih (List.cons_ne_nil next others) rest]

theorem isGap_of_isBlank {c : Char} (solid : isBlank c = false) : isGap c = false := by
  have space : c ≠ ' ' := by
    rintro rfl
    cases solid
  have tab : c ≠ '\t' := by
    rintro rfl
    cases solid
  simp [isGap, space, tab]

theorem intercalate_ends {texts : List (List Char)} (some : texts ≠ [])
    (filled : ∀ text ∈ texts, text ≠ [])
    (solid : ∀ text ∈ texts, ∀ c ∈ text, isBlank c = false) :
    ∃ front last, [' '].intercalate texts = front ++ [last] ∧ isBlank last = false := by
  induction texts with
  | nil => exact absurd rfl some
  | cons text texts ih =>
      cases texts with
      | nil =>
          have there := List.dropLast_concat_getLast (filled text List.mem_cons_self)
          refine ⟨text.dropLast, text.getLast (filled text List.mem_cons_self), ?_, ?_⟩
          · rw [List.intercalate_singleton, there]
          · exact solid text List.mem_cons_self _ (List.getLast_mem _)
      | cons next others =>
          obtain ⟨front, last, ends, blank⟩ := ih (List.cons_ne_nil next others)
            (List.forall_mem_cons.mp filled).2 (List.forall_mem_cons.mp solid).2
          refine ⟨text ++ [' '] ++ front, last, ?_, blank⟩
          rw [List.intercalate_cons_cons, ends, List.append_assoc (text ++ [' '])]

theorem pieces_intercalate {texts : List (List Char)} (some : texts ≠ [])
    (filled : ∀ text ∈ texts, text ≠ [])
    (solid : ∀ text ∈ texts, ∀ c ∈ text, isBlank c = false) :
    pieces ('\t' :: [' '].intercalate texts) = texts := by
  have split : ([' '].intercalate texts).splitOnP isGap = texts :=
    splitOnP_intercalate rfl some fun text member c inside =>
      isGap_of_isBlank (solid text member c inside)
  rw [pieces, List.splitOnP_cons_eq_if_modifyHead, if_pos (show isGap '\t' = true from rfl),
    split, List.filter_cons_of_neg]
  · rw [List.filter_eq_self]
    intro text member
    simpa using filled text member
  · simp

theorem afterNumber_number {digits : List Char} (body : List Char) (nonempty : digits ≠ [])
    (decimal : ∀ c ∈ digits, c.isDigit) (small : Nat.ofDigitChars 10 digits 0 < 2 ^ 32) :
    afterNumber (digits ++ ':' :: body) = body := by
  have taken : (digits ++ ':' :: body).takeWhile Char.isDigit = digits := by
    rw [List.takeWhile_append_of_pos decimal, List.takeWhile_cons_of_neg (by decide),
      List.append_nil]
  have left : (digits ++ ':' :: body).dropWhile Char.isDigit = ':' :: body := by
    rw [List.dropWhile_append_of_pos decimal, List.dropWhile_cons_of_neg (by decide)]
  simp only [afterNumber, taken, left]
  exact if_pos ⟨nonempty, small⟩

theorem afterNumber_numbered {number : Nat} (small : number < 2 ^ 32) (rest : List Char) :
    afterNumber (decimalDigits 3 number ++ ':' :: rest) = rest := by
  apply afterNumber_number rest (decimalDigits_ne_nil 3 number)
  · exact fun c => isDigit_of_mem_decimalDigits
  · rw [ofDigitChars_decimalDigits]
    exact small

section

variable (order : ByteOrder) (width number : Nat) (line : List UInt8)

def wordTexts : List (List Char) :=
  (chunks width line).map fun word => (order.turned word).flatMap byteHex

theorem row_eq : row byteHex order width number line =
    decimalDigits 3 number ++ ':' :: '\t' :: [' '].intercalate (wordTexts order width line) := by
  rw [row, List.append_assoc]
  rfl

theorem mapM_bytesOfHex? (words : List (List UInt8)) :
    (words.map fun word => word.flatMap byteHex).mapM bytesOfHex? = some words := by
  induction words with
  | nil => rfl
  | cons word words ih =>
      rw [List.map_cons, List.mapM_cons, bytesOfHex?_flatMap_byteHex, ih]
      rfl

theorem flatten_turned {width : Nat} (positive : 0 < width) :
    ((chunks width line).map order.turned).flatMap order.turned = line := by
  have back : order.turned ∘ order.turned = id := funext order.turned_turned
  rw [List.flatMap_map, List.flatMap_def]
  change ((chunks width line).map (order.turned ∘ order.turned)).flatten = line
  rw [back, List.map_id, flatten_chunks positive]

variable {order width number line}

theorem isBlank_of_mem_wordTexts : ∀ text ∈ wordTexts order width line, ∀ c ∈ text,
    isBlank c = false := by
  intro text member c inside
  obtain ⟨word, -, rfl⟩ := List.mem_map.mp member
  obtain ⟨b, -, digit⟩ := List.mem_flatMap.mp inside
  exact isBlank_of_mem_byteHex digit

theorem turned_ne_nil {word : List UInt8} (some : word ≠ []) : order.turned word ≠ [] := by
  intro empty
  have back := congrArg order.turned empty
  rw [order.turned_turned] at back
  cases order <;> exact some back

theorem ne_nil_of_mem_wordTexts : ∀ text ∈ wordTexts order width line, text ≠ [] := by
  intro text member
  obtain ⟨word, chunk, rfl⟩ := List.mem_map.mp member
  have some : order.turned word ≠ [] := turned_ne_nil (ne_nil_of_mem_chunks chunk)
  obtain ⟨b, rest, split⟩ := List.exists_cons_of_ne_nil some
  rw [split]
  exact List.cons_ne_nil _ _

variable (positive : 0 < width) (filled : line ≠ [])

include positive filled

theorem wordTexts_ne_nil : wordTexts order width line ≠ [] := by
  rw [wordTexts, chunks_of_ne_nil positive filled]
  exact List.cons_ne_nil _ _

theorem lineBytes_row (small : number < 2 ^ 32) :
    lineBytes order (row byteHex order width number line) = .ok line := by
  have found : pieces (afterNumber (row byteHex order width number line)) =
      wordTexts order width line := by
    rw [row_eq, afterNumber_numbered small]
    exact pieces_intercalate (wordTexts_ne_nil positive filled) ne_nil_of_mem_wordTexts
      isBlank_of_mem_wordTexts
  have words : (wordTexts order width line).mapM bytesOfHex? =
      some ((chunks width line).map order.turned) := by
    rw [← mapM_bytesOfHex?, List.map_map]
    rfl
  have shown : wordTexts order width line ≠ [] := wordTexts_ne_nil positive filled
  obtain ⟨text, texts, split⟩ := List.exists_cons_of_ne_nil shown
  rw [split] at found words
  simp only [lineBytes, lineBytes?, found, words, Option.bind_eq_bind, Option.bind_some]
  exact congrArg Except.ok (flatten_turned order line positive)

theorem trimmed_row :
    trimmed (row byteHex order width number line) = row byteHex order width number line := by
  obtain ⟨first, rest, starts⟩ := List.exists_cons_of_ne_nil (decimalDigits_ne_nil 3 number)
  have shown : wordTexts order width line ≠ [] := wordTexts_ne_nil positive filled
  obtain ⟨front, last, ends, lastSolid⟩ :=
    intercalate_ends shown ne_nil_of_mem_wordTexts isBlank_of_mem_wordTexts
  have firstSolid : isBlank first = false :=
    isBlank_of_isDigit (isDigit_of_mem_decimalDigits (starts ▸ List.mem_cons_self))
  have rowStarts : row byteHex order width number line =
      first :: (rest ++ ':' :: '\t' :: [' '].intercalate (wordTexts order width line)) := by
    rw [row_eq, starts, List.cons_append]
  have rowEnds : row byteHex order width number line =
      decimalDigits 3 number ++ ':' :: '\t' :: front ++ [last] := by
    rw [row_eq, ends, List.append_assoc, List.cons_append, List.cons_append]
  exact trimmed_eq_self rowStarts rowEnds firstSolid lastSolid

end

theorem trimmed_row_nil (order : ByteOrder) (width number : Nat) :
    trimmed (row byteHex order width number []) = decimalDigits 3 number ++ [':'] := by
  obtain ⟨first, rest, starts⟩ := List.exists_cons_of_ne_nil (decimalDigits_ne_nil 3 number)
  have firstSolid : isBlank first = false :=
    isBlank_of_isDigit (isDigit_of_mem_decimalDigits (starts ▸ List.mem_cons_self))
  apply Trims.trimmed_eq
  constructor
  · refine ⟨[], ['\t'], ?_, by simp, List.forall_mem_singleton.mpr (by decide)⟩
    rw [row_eq, wordTexts, chunks_nil]
    simp
  · rw [starts]
    rintro c ⟨⟩
    exact firstSolid
  · rw [List.getLast?_concat]
    rintro c ⟨⟩
    decide

theorem lineBytes_numberOnly (order : ByteOrder) {number : Nat} (small : number < 2 ^ 32) :
    lineBytes order (decimalDigits 3 number ++ [':']) = .error (.invalidData .dumpLine) := by
  have nothing : pieces (afterNumber (decimalDigits 3 number ++ [':'])) = [] := by
    rw [afterNumber_numbered small]
    rfl
  simp only [lineBytes, lineBytes?, nothing]

theorem mem_intercalate {c separator : Char} {texts : List (List Char)}
    (member : c ∈ [separator].intercalate texts) : c = separator ∨ ∃ text ∈ texts, c ∈ text := by
  induction texts with
  | nil => cases member
  | cons text texts ih =>
      cases texts with
      | nil =>
          rw [List.intercalate_singleton] at member
          exact .inr ⟨text, List.mem_cons_self, member⟩
      | cons next others =>
          rw [List.intercalate_cons_cons, List.mem_append, List.mem_append,
            List.mem_singleton] at member
          rcases member with (here | separates) | later
          · exact .inr ⟨text, List.mem_cons_self, here⟩
          · exact .inl separates
          · rcases ih later with separates | ⟨other, among, inside⟩
            · exact .inl separates
            · exact .inr ⟨other, List.mem_cons_of_mem text among, inside⟩

theorem newline_notMem_row (order : ByteOrder) (width number : Nat) (line : List UInt8) :
    '\n' ∉ row byteHex order width number line := by
  intro member
  have blank : isBlank '\n' = true := by decide
  rw [row_eq, List.mem_append, List.mem_cons, List.mem_cons] at member
  rcases member with digit | colon | tab | inside
  · rw [isBlank_of_isDigit (isDigit_of_mem_decimalDigits digit)] at blank
    cases blank
  · cases colon
  · cases tab
  · rcases mem_intercalate inside with space | ⟨text, among, there⟩
    · cases space
    · rw [isBlank_of_mem_wordTexts text among _ there] at blank
      cases blank

theorem trimmed_row_ne_nil (order : ByteOrder) {width : Nat} (positive : 0 < width) (number : Nat)
    (line : List UInt8) : trimmed (row byteHex order width number line) ≠ [] := by
  by_cases blank : line = []
  · rw [blank, trimmed_row_nil]
    exact List.append_ne_nil_of_left_ne_nil (decimalDigits_ne_nil 3 number) _
  · rw [trimmed_row positive blank, row_eq]
    exact List.append_ne_nil_of_left_ne_nil (decimalDigits_ne_nil 3 number) _

/-- Lines that are put together come apart again, without the blanks at their ends. -/
theorem contentLines_intercalate {rows : List (List Char)} (whole : ∀ row ∈ rows, '\n' ∉ row)
    (filled : ∀ row ∈ rows, trimmed row ≠ []) :
    contentLines (['\n'].intercalate rows) = rows.map trimmed := by
  cases rows with
  | nil => rfl
  | cons first rest =>
      rw [contentLines, List.splitOn_intercalate '\n' whole (List.cons_ne_nil first rest),
        List.filter_eq_self]
      intro content member
      obtain ⟨row, among, rfl⟩ := List.mem_map.mp member
      simpa using filled row among

theorem parse_listing_eq (order : ByteOrder) {width : Nat} (positive : 0 < width)
    (lines : List (List UInt8)) : parse order (listing byteHex order width lines) =
      (lines.mapIdx fun i line => trimmed (row byteHex order width (i + 1) line)).mapM
        (lineBytes order) := by
  have contents : contentLines (listing byteHex order width lines).toList =
      (lines.mapIdx fun i line => row byteHex order width (i + 1) line).map trimmed := by
    rw [listing, String.toList_ofList]
    apply contentLines_intercalate
    · intro shown member
      obtain ⟨i, below, rfl⟩ := List.mem_mapIdx.mp member
      exact newline_notMem_row order width (i + 1) _
    · intro shown member
      obtain ⟨i, below, rfl⟩ := List.mem_mapIdx.mp member
      exact trimmed_row_ne_nil order positive (i + 1) _
  rw [parse, contents]
  congr 1
  apply List.ext_getElem?
  intro i
  rw [List.getElem?_map, List.getElem?_mapIdx, List.getElem?_mapIdx, Option.map_map]
  rfl

/-- A rendered dump is parsed to the byte strings it was rendered from. -/
theorem parse_listing (order : ByteOrder) {width : Nat} (positive : 0 < width)
    {lines : List (List UInt8)} (few : lines.length < 2 ^ 32)
    (filled : ∀ line ∈ lines, line ≠ []) :
    parse order (listing byteHex order width lines) = .ok lines := by
  rw [parse_listing_eq order positive]
  apply mapM_eq_ok List.length_mapIdx
  intro i shown line there taken
  have below : i < lines.length := (List.getElem?_eq_some_iff.mp taken).1
  have some : line ≠ [] := filled line (List.mem_of_getElem? taken)
  rw [List.getElem?_mapIdx, taken] at there
  have shown_eq : trimmed (row byteHex order width (i + 1) line) = shown := Option.some.inj there
  rw [← shown_eq, trimmed_row positive some]
  exact lineBytes_row positive some (by omega)

/-- One line without bytes is enough for a rendered dump to be refused. -/
theorem parse_listing_of_blank (order : ByteOrder) {width : Nat} (positive : 0 < width)
    {lines : List (List UInt8)} (few : lines.length < 2 ^ 32) (blank : [] ∈ lines) :
    parse order (listing byteHex order width lines) = .error (.invalidData .dumpLine) := by
  rw [parse_listing_eq order positive]
  apply mapM_eq_error
  · intro shown member
    obtain ⟨i, below, rfl⟩ := List.mem_mapIdx.mp member
    have small : i + 1 < 2 ^ 32 := by omega
    by_cases empty : lines[i] = []
    · rw [empty, trimmed_row_nil]
      exact .inl (lineBytes_numberOnly order small)
    · rw [trimmed_row positive empty]
      exact .inr ⟨lines[i], lineBytes_row positive empty small⟩
  · obtain ⟨i, below, there⟩ := List.getElem_of_mem blank
    have small : i + 1 < 2 ^ 32 := by omega
    refine ⟨trimmed (row byteHex order width (i + 1) lines[i]), ?_, ?_⟩
    · exact List.mem_mapIdx.mpr ⟨i, below, rfl⟩
    · rw [there, trimmed_row_nil]
      exact lineBytes_numberOnly order small

/-- Parsing undoes rendering, whatever the width of the words, unless a line is without bytes: then its
number stands alone, which is no line of a dump. -/
theorem parse_render (order : ByteOrder) {width : Nat} (positive : 0 < width)
    {lines : List (List UInt8)} (few : lines.length < 2 ^ 32) :
    ∃ text, render order width lines = .ok text ∧
      parse order text = if [] ∈ lines then .error (.invalidData .dumpLine) else .ok lines := by
  refine ⟨listing byteHex order width lines, ?_, ?_⟩
  · rw [render, if_neg (Nat.pos_iff_ne_zero.mp positive)]
  · by_cases blank : [] ∈ lines
    · rw [if_pos blank]
      exact parse_listing_of_blank order positive few blank
    · rw [if_neg blank]
      apply parse_listing order positive few
      intro line member empty
      rw [empty] at member
      exact blank member

theorem parse_render_threeByteWords :
    0 < 3 ∧ [[1, 2, 3, 4, 5], [0xAB]].length < 2 ^ 32 ∧ [[1, 2, 3, 4, 5], []].length < 2 ^ 32 ∧
    (∃ text, render .little 3 [[1, 2, 3, 4, 5], [0xAB]] = .ok text ∧
      parse .little text = .ok [[1, 2, 3, 4, 5], [0xAB]]) ∧
    ∃ text, render .little 3 [[1, 2, 3, 4, 5], []] = .ok text ∧
      parse .little text = .error (.invalidData .dumpLine) :=
  ⟨by decide, by decide, by decide, parse_render .little (by decide) (by decide),
    parse_render .little (by decide) (by decide)⟩

end Dump

end CcdController
