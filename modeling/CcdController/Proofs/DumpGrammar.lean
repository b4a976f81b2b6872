import CcdController.Proofs.DumpReading

/-!
The grammar of hex dumps, said without the reader: which texts are dumps, and which bytes they hold. A
line falls apart into runs of hexadecimal digits, each as long as it can be, and every run into pairs.
The reader accepts the texts of the grammar and no others.
-/
namespace CcdController

namespace Text

def IsDigitOf (c : Char) (value : Nat) : Prop :=
  value < 16 ∧ (c = value.digitChar ∨ c = value.digitChar.toUpper)

def IsHexDigit (c : Char) : Prop := ∃ value, IsDigitOf c value

inductive Spells : List Char → List UInt8 → Prop
  | nil : Spells [] []
  | cons {high low : Char} {h l : Nat} {digits : List Char} {bytes : List UInt8}
      (ofHigh : IsDigitOf high h) (ofLow : IsDigitOf low l) (later : Spells digits bytes) :
      Spells (high :: low :: digits) (UInt8.ofNat (16 * h + l) :: bytes)

def TrimmedLines (text : List Char) (contents : List (List Char)) : Prop :=
  ∃ lines, IsLines text lines ∧ List.Forall₂ Trims lines contents

theorem toNat_lt_of_hexValue? {c : Char} {value : Nat} (known : hexValue? c = some value) :
    c.toNat < 103 := by
  have upper : ∀ d : Char, c ≤ d → c.toNat ≤ d.toNat := fun d below => below
  unfold hexValue? at known
  split at known
  · next range => exact Nat.lt_of_le_of_lt (upper _ range.2) (by decide)
  · split at known
    · next range => exact Nat.lt_of_le_of_lt (upper _ range.2) (by decide)
    · split at known
      · next range => exact Nat.lt_of_le_of_lt (upper _ range.2) (by decide)
      · cases known

theorem hexValue?_eq_some_iff {c : Char} {value : Nat} :
    hexValue? c = some value ↔ IsDigitOf c value := by
  constructor
  · intro known
    -- The digits lie below 103, and the characters there are few enough to be tried one by one.
    have all : ∀ n : Fin 103, ∀ value ∈ hexValue? (Char.ofNat n),
        value < 16 ∧ (Char.ofNat n = value.digitChar ∨ Char.ofNat n = value.digitChar.toUpper) := by
      decide
    have digit := all ⟨c.toNat, toNat_lt_of_hexValue? known⟩ value
    simp only [Char.ofNat_toNat] at digit
    exact digit known
  · intro digit
    have all : ∀ value : Fin 16, hexValue? value.val.digitChar = some value.val := by decide
    obtain ⟨small, rfl | rfl⟩ := digit
    · exact all ⟨value, small⟩
    · exact hexValue?_hexDigit small

theorem byteOfHex?_eq_some_iff {high low : Char} {byte : UInt8} :
    byteOfHex? high low = some byte ↔
      ∃ h l, IsDigitOf high h ∧ IsDigitOf low l ∧ byte = UInt8.ofNat (16 * h + l) := by
  simp only [byteOfHex?, Option.bind_eq_bind, Option.bind_eq_some_iff, hexValue?_eq_some_iff,
    Option.pure_def, Option.some.injEq]
  constructor
  · rintro ⟨h, ofHigh, l, ofLow, same⟩
    exact ⟨h, l, ofHigh, ofLow, same.symm⟩
  · rintro ⟨h, l, ofHigh, ofLow, same⟩
    exact ⟨h, ofHigh, l, ofLow, same.symm⟩

theorem bytesOfHex?_eq_some_iff {digits : List Char} {bytes : List UInt8} :
    bytesOfHex? digits = some bytes ↔ Spells digits bytes := by
  fun_induction bytesOfHex? digits generalizing bytes with
  | case1 =>
      constructor
      · intro same
        cases same
        exact .nil
      · intro spells
        cases spells
        rfl
  | case2 c =>
      constructor
      · intro none
        cases none
      · intro spells
        cases spells
  | case3 high low rest ih =>
      simp only [Option.bind_eq_bind, Option.bind_eq_some_iff, byteOfHex?_eq_some_iff, ih,
        Option.pure_def, Option.some.injEq]
      constructor
      · rintro ⟨byte, ⟨h, l, ofHigh, ofLow, rfl⟩, later, spells, rfl⟩
        exact .cons ofHigh ofLow spells
      · intro spells
        cases spells with
        | cons ofHigh ofLow later => exact ⟨_, ⟨_, _, ofHigh, ofLow, rfl⟩, _, later, rfl⟩

theorem Spells.digits {run : List Char} {bytes : List UInt8} (spells : Spells run bytes) :
    ∀ c ∈ run, IsHexDigit c := by
  induction spells with
  | nil => exact fun c inside => absurd inside List.not_mem_nil
  | cons ofHigh ofLow _ ih =>
      exact List.forall_mem_cons.mpr ⟨⟨_, ofHigh⟩, List.forall_mem_cons.mpr ⟨⟨_, ofLow⟩, ih⟩⟩

theorem Spells.even {run : List Char} {bytes : List UInt8} (spells : Spells run bytes) :
    run.length % 2 = 0 := by
  induction spells with
  | nil => rfl
  | cons _ _ _ ih =>
      rw [List.length_cons, List.length_cons]
      omega

theorem exists_spells {run : List Char} (digits : ∀ c ∈ run, IsHexDigit c)
    (even : run.length % 2 = 0) : ∃ bytes, Spells run bytes := by
  match run with
  | [] => exact ⟨[], .nil⟩
  | [c] => cases even
  | high :: low :: rest =>
      obtain ⟨⟨h, ofHigh⟩, behind⟩ := List.forall_mem_cons.mp digits
      obtain ⟨⟨l, ofLow⟩, others⟩ := List.forall_mem_cons.mp behind
      have shorter : rest.length % 2 = 0 := by
        rw [List.length_cons, List.length_cons] at even
        omega
      obtain ⟨bytes, spells⟩ := exists_spells others shorter
      exact ⟨_, .cons ofHigh ofLow spells⟩

end Text

namespace Dump

open Text

/-- The runs of hexadecimal digits in a text, from the front on and each as long as it can be. -/
inductive HexRuns : List Char → List (List Char) → Prop
  | none {gap : List Char} (free : ∀ c ∈ gap, ¬ IsHexDigit c) : HexRuns gap []
  | run {gap run rest : List Char} {runs : List (List Char)} (free : ∀ c ∈ gap, ¬ IsHexDigit c)
      (nonempty : run ≠ []) (digits : ∀ c ∈ run, IsHexDigit c)
      (ends : ∀ c ∈ rest.head?, ¬ IsHexDigit c) (later : HexRuns rest runs) :
      HexRuns (gap ++ run ++ rest) (run :: runs)

/-- What follows the number of a line, if it has one. A number has 32 bits. -/
inductive Numbered : List Char → List Char → Prop
  | without (body : List Char) : Numbered body body
  | number {digits : List Char} (body : List Char) (nonempty : digits ≠ [])
      (decimal : ∀ c ∈ digits, c.isDigit) (small : Nat.ofDigitChars 10 digits 0 < 2 ^ 32) :
      Numbered (digits ++ ':' :: body) body

structure LineForm (line : List Char) (runs : List (List Char)) : Prop where
  body : ∃ body, Numbered line body ∧ (∀ c ∈ body, IsHexDigit c ∨ c = ' ' ∨ c = '\t') ∧
    (∃ c ∈ body, IsHexDigit c) ∧ HexRuns body runs
  even : ∀ run ∈ runs, run.length % 2 = 0

def shownBytes : ByteOrder → List (List UInt8) → List UInt8
  | .big, words => words.flatten
  | .little, words => (words.map List.reverse).flatten

def LineHolds (order : ByteOrder) (line : List Char) (bytes : List UInt8) : Prop :=
  ∃ runs words, LineForm line runs ∧ List.Forall₂ Spells runs words ∧ bytes = shownBytes order words

theorem isGap_of_isHexDigit {c : Char} (digit : IsHexDigit c) : isGap c = false := by
  have all : ∀ value : Fin 16,
      isGap value.val.digitChar = false ∧ isGap value.val.digitChar.toUpper = false := by decide
  obtain ⟨value, small, rfl | rfl⟩ := digit
  · exact (all ⟨value, small⟩).1
  · exact (all ⟨value, small⟩).2

theorem isGap_iff {c : Char} : isGap c = true ↔ c = ' ' ∨ c = '\t' := by
  simp [isGap]

theorem not_isHexDigit_of_isGap {c : Char} (gap : isGap c = true) : ¬ IsHexDigit c := by
  intro digit
  rw [isGap_of_isHexDigit digit] at gap
  cases gap

theorem pieces_cons {c : Char} (gap : isGap c = true) (text : List Char) :
    pieces (c :: text) = pieces text := by
  rw [pieces, List.splitOnP_cons_eq_if_modifyHead, if_pos gap,
    List.filter_cons_of_neg (by simp)]
  rfl

theorem pieces_append {gaps : List Char} (blank : ∀ c ∈ gaps, isGap c = true) (text : List Char) :
    pieces (gaps ++ text) = pieces text := by
  induction gaps with
  | nil => rfl
  | cons c gaps ih =>
      obtain ⟨first, rest⟩ := List.forall_mem_cons.mp blank
      rw [List.cons_append, pieces_cons first, ih rest]

theorem pieces_run {run rest : List Char} (nonempty : run ≠ [])
    (solid : ∀ c ∈ run, isGap c = false) (ends : ∀ c ∈ rest.head?, isGap c = true) :
    pieces (run ++ rest) = run :: pieces rest := by
  have kept : (!run.isEmpty) = true := by simpa using nonempty
  cases rest with
  | nil =>
      rw [List.append_nil, pieces, List.splitOnP_eq_singleton solid]
      exact List.filter_cons_of_pos kept
  | cons c rest =>
      have gap : isGap c = true := ends c rfl
      rw [pieces_cons gap, pieces, List.splitOnP_append_cons_of_forall_mem solid c gap]
      exact List.filter_cons_of_pos kept

/-- A text is cut into gaps and runs where a text of digits and gaps has its runs of digits. -/
theorem pieces_of_hexRuns {text : List Char} {runs : List (List Char)} (hexRuns : HexRuns text runs)
    (letters : ∀ c ∈ text, IsHexDigit c ∨ isGap c = true) : pieces text = runs := by
  induction hexRuns with
  | @none gap free =>
      have blank : ∀ c ∈ gap, isGap c = true := fun c inside =>
        (letters c inside).resolve_left (free c inside)
      have cut := pieces_append blank []
      rw [List.append_nil] at cut
      exact cut
  | @run gap run rest runs free nonempty digits ends later ih =>
      have front := List.forall_mem_append.mp letters
      have back : ∀ c ∈ rest, IsHexDigit c ∨ isGap c = true := front.2
      have blank : ∀ c ∈ gap, isGap c = true := fun c inside =>
        ((List.forall_mem_append.mp front.1).1 c inside).resolve_left (free c inside)
      have solid : ∀ c ∈ run, isGap c = false := fun c inside =>
        isGap_of_isHexDigit (digits c inside)
      have stops : ∀ c ∈ rest.head?, isGap c = true := fun c first =>
        (back c (List.mem_of_mem_head? first)).resolve_left (ends c first)
      rw [List.append_assoc, pieces_append blank, pieces_run nonempty solid stops, ih back]

theorem exists_run (text : List Char) : ∃ gaps run rest, text = gaps ++ run ++ rest ∧
    (∀ c ∈ gaps, isGap c = true) ∧ (∀ c ∈ run, isGap c = false) ∧
    (∀ c ∈ rest.head?, isGap c = true) ∧ (run = [] → rest = []) := by
  refine ⟨text.takeWhile isGap, (text.dropWhile isGap).takeWhile (!isGap ·),
    (text.dropWhile isGap).dropWhile (!isGap ·), ?_, ?_, ?_, ?_, ?_⟩
  · rw [List.append_assoc, List.takeWhile_append_dropWhile, List.takeWhile_append_dropWhile]
  · exact fun c => List.mem_takeWhile_imp
  · intro c inside
    simpa using List.mem_takeWhile_imp inside
  · intro c first
    simpa using solid_head_dropWhile (!isGap ·) (text.dropWhile isGap) c first
  · have solid := solid_head_dropWhile isGap text
    cases behind : text.dropWhile isGap with
    | nil => exact fun _ => rfl
    | cons first rest =>
        intro none
        rw [behind] at solid
        rw [List.takeWhile_cons_of_pos (by simp [solid first rfl])] at none
        cases none

/-- What holds of gaps and is kept by a run in front of a gap holds of a text and its pieces. -/
theorem pieces_induction {motive : List Char → List (List Char) → Prop}
    (gaps : ∀ gaps, (∀ c ∈ gaps, isGap c = true) → motive gaps [])
    (run : ∀ gaps run rest, (∀ c ∈ gaps, isGap c = true) → run ≠ [] →
      (∀ c ∈ run, isGap c = false) → (∀ c ∈ rest.head?, isGap c = true) →
      motive rest (pieces rest) → motive (gaps ++ run ++ rest) (run :: pieces rest))
    (text : List Char) : motive text (pieces text) := by
  obtain ⟨blank, found, rest, split, ofBlank, solid, ends, last⟩ := exists_run text
  by_cases none : found = []
  · rw [none, last none, List.append_nil, List.append_nil] at split
    have cut := pieces_append ofBlank []
    rw [List.append_nil, ← split] at cut
    rw [cut, split]
    exact gaps blank ofBlank
  · -- A gap alone would not make the text shorter: it is the run that is left out.
    have shorter : rest.length < text.length := by
      have filled := List.length_pos_iff.mpr none
      rw [split, List.length_append, List.length_append]
      omega
    rw [split, List.append_assoc, pieces_append ofBlank, pieces_run none solid ends,
      ← List.append_assoc]
    exact run blank found rest ofBlank none solid ends (pieces_induction gaps run rest)
termination_by text.length

theorem hexRuns_pieces (text : List Char) :
    (∀ c ∈ text, IsHexDigit c ∨ isGap c = true) → HexRuns text (pieces text) := by
  apply pieces_induction (motive := fun text pieces =>
    (∀ c ∈ text, IsHexDigit c ∨ isGap c = true) → HexRuns text pieces)
  · intro gaps blank _
    exact .none fun c inside => not_isHexDigit_of_isGap (blank c inside)
  · intro gaps run rest blank nonempty solid ends later letters
    obtain ⟨front, back⟩ := List.forall_mem_append.mp letters
    refine .run ?_ nonempty ?_ ?_ (later back)
    · exact fun c inside => not_isHexDigit_of_isGap (blank c inside)
    · intro c inside
      rcases (List.forall_mem_append.mp front).2 c inside with digit | gap
      · exact digit
      · rw [solid c inside] at gap
        cases gap
    · exact fun c first => not_isHexDigit_of_isGap (ends c first)

theorem isGap_or_mem_pieces (text : List Char) :
    ∀ c ∈ text, isGap c = true ∨ ∃ piece ∈ pieces text, c ∈ piece := by
  apply pieces_induction (motive := fun text pieces =>
    ∀ c ∈ text, isGap c = true ∨ ∃ piece ∈ pieces, c ∈ piece)
  · exact fun gaps blank c inside => .inl (blank c inside)
  · intro gaps run rest blank nonempty solid ends later c inside
    rcases List.mem_append.mp inside with front | back
    · rcases List.mem_append.mp front with gap | here
      · exact .inl (blank c gap)
      · exact .inr ⟨run, List.mem_cons_self, here⟩
    · rcases later c back with gap | ⟨piece, among, there⟩
      · exact .inl gap
      · exact .inr ⟨piece, List.mem_cons_of_mem run among, there⟩

theorem numbered_afterNumber (line : List Char) : Numbered line (afterNumber line) := by
  have whole : line.takeWhile Char.isDigit ++ line.dropWhile Char.isDigit = line :=
    List.takeWhile_append_dropWhile
  have decimal : ∀ c ∈ line.takeWhile Char.isDigit, c.isDigit := fun c => List.mem_takeWhile_imp
  unfold afterNumber
  simp only
  split
  · next body behind =>
      rw [behind] at whole
      split
      · next number =>
          have numbered := Numbered.number body number.1 decimal number.2
          rw [whole] at numbered
          exact numbered
      · exact .without line
  · exact .without line

theorem afterNumber_of_notMem {line : List Char} (colon : ':' ∉ line) : afterNumber line = line := by
  unfold afterNumber
  simp only
  split
  · next body behind =>
      have inside : ':' ∈ line.dropWhile Char.isDigit := behind ▸ List.mem_cons_self
      exact absurd ((List.dropWhile_suffix Char.isDigit).subset inside) colon
  · rfl

theorem colon_notMem {body : List Char} (letters : ∀ c ∈ body, IsHexDigit c ∨ c = ' ' ∨ c = '\t') :
    ':' ∉ body := by
  have all : ∀ value : Fin 16, ':' ≠ value.val.digitChar ∧ ':' ≠ value.val.digitChar.toUpper := by
    decide
  intro inside
  rcases letters ':' inside with ⟨value, small, lower | upper⟩ | space | tab
  · exact (all ⟨value, small⟩).1 lower
  · exact (all ⟨value, small⟩).2 upper
  · cases space
  · cases tab

theorem Numbered.afterNumber_eq {line body : List Char} (numbered : Numbered line body)
    (letters : ∀ c ∈ body, IsHexDigit c ∨ c = ' ' ∨ c = '\t') : afterNumber line = body := by
  cases numbered with
  | without => exact afterNumber_of_notMem (colon_notMem letters)
  | number _ nonempty decimal small => exact afterNumber_number body nonempty decimal small

theorem flatMap_turned (order : ByteOrder) (words : List (List UInt8)) :
    words.flatMap order.turned = shownBytes order words := by
  cases order with
  | little => rfl
  | big => exact List.flatMap_id

theorem LineForm.pieces_eq {line : List Char} {runs : List (List Char)} (form : LineForm line runs) :
    pieces (afterNumber line) = runs ∧ runs ≠ [] := by
  obtain ⟨body, numbered, letters, ⟨c, inside, digit⟩, hexRuns⟩ := form.body
  rw [Numbered.afterNumber_eq numbered letters]
  have cut : pieces body = runs := by
    apply pieces_of_hexRuns hexRuns
    intro c inside
    exact (letters c inside).imp_right isGap_iff.mpr
  refine ⟨cut, ?_⟩
  intro none
  rcases isGap_or_mem_pieces body c inside with gap | ⟨piece, among, -⟩
  · exact not_isHexDigit_of_isGap gap digit
  · rw [cut, none] at among
    cases among

theorem exists_digit_of_hexRuns {text : List Char} {runs : List (List Char)}
    (hexRuns : HexRuns text runs) (some : runs ≠ []) : ∃ c ∈ text, IsHexDigit c := by
  cases hexRuns with
  | none => exact absurd rfl some
  | @run gap run rest runs free nonempty digits ends later =>
      obtain ⟨c, inside⟩ := List.exists_mem_of_ne_nil run nonempty
      refine ⟨c, ?_, digits c inside⟩
      exact List.mem_append_left rest (List.mem_append_right gap inside)

/-- A line that is read has the form of a line, and its runs are the pieces behind its number. -/
theorem lineForm_of_spells {line : List Char} (some : pieces (afterNumber line) ≠ [])
    (spells : ∀ piece ∈ pieces (afterNumber line), ∃ bytes, Spells piece bytes) :
    LineForm line (pieces (afterNumber line)) := by
  have letters : ∀ c ∈ afterNumber line, IsHexDigit c ∨ isGap c = true := by
    intro c inside
    rcases isGap_or_mem_pieces (afterNumber line) c inside with gap | ⟨piece, among, there⟩
    · exact .inr gap
    · obtain ⟨bytes, written⟩ := spells piece among
      exact .inl (written.digits c there)
  have hexRuns := hexRuns_pieces (afterNumber line) letters
  constructor
  · refine ⟨afterNumber line, numbered_afterNumber line, ?_, ?_, hexRuns⟩
    · intro c inside
      exact (letters c inside).imp_right isGap_iff.mp
    · exact exists_digit_of_hexRuns hexRuns some
  · intro run among
    obtain ⟨bytes, written⟩ := spells run among
    exact written.even

theorem lineBytes?_eq_some_iff {order : ByteOrder} {line : List Char} {bytes : List UInt8} :
    lineBytes? order line = some bytes ↔ pieces (afterNumber line) ≠ [] ∧
      ∃ words, List.Forall₂ Spells (pieces (afterNumber line)) words ∧
        bytes = shownBytes order words := by
  have spelled : ∀ words, List.Forall₂ Spells (pieces (afterNumber line)) words ↔
      (pieces (afterNumber line)).mapM bytesOfHex? = some words := by
    intro words
    simp only [mapM_eq_some_iff, bytesOfHex?_eq_some_iff]
  unfold lineBytes?
  split
  · next none => simp [none]
  · next some =>
      simp only [Option.bind_eq_bind, Option.bind_eq_some_iff, flatMap_turned, Option.pure_def,
        Option.some.injEq, spelled]
      constructor
      · rintro ⟨words, read, same⟩
        exact ⟨some, words, read, same.symm⟩
      · rintro ⟨-, words, read, same⟩
        exact ⟨words, read, same.symm⟩

theorem lineBytes_eq_ok_iff {order : ByteOrder} {line : List Char} {bytes : List UInt8} :
    lineBytes order line = .ok bytes ↔ LineHolds order line bytes := by
  have read : lineBytes order line = .ok bytes ↔ lineBytes? order line = some bytes := by
    unfold lineBytes
    cases lineBytes? order line with
    | none => simp
    | some found => simp
  rw [read, lineBytes?_eq_some_iff]
  constructor
  · rintro ⟨some, words, spells, same⟩
    have form := lineForm_of_spells some (exists_of_forall₂ spells)
    exact ⟨pieces (afterNumber line), words, form, spells, same⟩
  · rintro ⟨runs, words, form, spells, same⟩
    obtain ⟨cut, some⟩ := form.pieces_eq
    rw [cut]
    exact ⟨some, words, spells, same⟩

theorem HexRuns.digits {text : List Char} {runs : List (List Char)} (hexRuns : HexRuns text runs) :
    ∀ run ∈ runs, ∀ c ∈ run, IsHexDigit c := by
  induction hexRuns with
  | none => exact fun run member => absurd member List.not_mem_nil
  | run _ _ digits _ _ ih => exact List.forall_mem_cons.mpr ⟨digits, ih⟩

theorem exists_lineHolds_iff {order : ByteOrder} {line : List Char} :
    (∃ bytes, LineHolds order line bytes) ↔ ∃ runs, LineForm line runs := by
  constructor
  · rintro ⟨bytes, runs, words, form, -⟩
    exact ⟨runs, form⟩
  · rintro ⟨runs, form⟩
    obtain ⟨body, -, -, -, hexRuns⟩ := form.body
    have each : ∀ run ∈ runs, ∃ bytes, Spells run bytes := fun run among =>
      exists_spells (hexRuns.digits run among) (form.even run among)
    obtain ⟨words, spells⟩ := exists_forall₂ each
    exact ⟨shownBytes order words, runs, words, form, spells, rfl⟩

theorem trimmedLines_iff {text : List Char} {contents : List (List Char)} :
    TrimmedLines text contents ↔ contents = (text.splitOn '\n').map trimmed := by
  have trimmed_iff : ∀ lines, List.Forall₂ Trims lines contents ↔ contents = lines.map trimmed := by
    intro lines
    have same : Trims = fun line content => trimmed line = content :=
      funext fun line => funext fun content => propext trims_iff
    rw [same, ← List.forall₂_map_left_iff, List.forall₂_eq_eq_eq, eq_comm]
  constructor
  · rintro ⟨lines, isLines, trims⟩
    rw [← isLines.eq_splitOn]
    exact (trimmed_iff lines).mp trims
  · intro same
    exact ⟨text.splitOn '\n', isLines_splitOn text, (trimmed_iff _).mpr same⟩

theorem lineBytes_cases (order : ByteOrder) (line : List Char) :
    lineBytes order line = .error (.invalidData .dumpLine) ∨
      ∃ bytes, lineBytes order line = .ok bytes := by
  unfold lineBytes
  cases lineBytes? order line with
  | none => exact .inl rfl
  | some bytes => exact .inr ⟨bytes, rfl⟩

structure ReadsLines (order : ByteOrder) (text : String) (contents : List (List Char)) : Prop where
  accepted_iff : (∃ found, parse order text = .ok found) ↔
    ∀ content ∈ contents, content = [] ∨ ∃ runs, LineForm content runs
  ok_iff : ∀ found, parse order text = .ok found ↔
    List.Forall₂ (LineHolds order) (contents.filter (· ≠ [])) found
  error_iff : ∀ fault, parse order text = .error fault ↔ fault = .invalidData .dumpLine ∧
    ∃ content ∈ contents, content ≠ [] ∧ ∀ runs, ¬ LineForm content runs

theorem parse_eq_ok_iff {order : ByteOrder} {text : String} {found : List (List UInt8)} :
    parse order text = .ok found ↔
      List.Forall₂ (LineHolds order) (contentLines text.toList) found := by
  have same : LineHolds order = fun line bytes => lineBytes order line = .ok bytes :=
    funext fun line => funext fun bytes => propext lineBytes_eq_ok_iff.symm
  rw [parse, mapM_eq_ok_iff, same]

theorem parse_cases (order : ByteOrder) (text : String) :
    parse order text = .error (.invalidData .dumpLine) ∨ ∃ found, parse order text = .ok found := by
  by_cases fails : ∃ line ∈ contentLines text.toList,
      lineBytes order line = .error (.invalidData .dumpLine)
  · exact .inl (mapM_eq_error (fun line _ => lineBytes_cases order line) fails)
  · have each : ∀ line ∈ contentLines text.toList, ∃ bytes, lineBytes order line = .ok bytes := by
      intro line member
      apply (lineBytes_cases order line).resolve_left
      exact fun failed => fails ⟨line, member, failed⟩
    obtain ⟨found, done⟩ := exists_forall₂ each
    exact .inr ⟨found, mapM_eq_ok_iff.mpr done⟩

theorem parse_accepts_iff {order : ByteOrder} {text : String} :
    (∃ found, parse order text = .ok found) ↔
      ∀ line ∈ contentLines text.toList, ∃ runs, LineForm line runs := by
  simp only [parse_eq_ok_iff]
  constructor
  · rintro ⟨found, holds⟩ line member
    exact exists_lineHolds_iff.mp (exists_of_forall₂ holds line member)
  · intro forms
    exact exists_forall₂ fun line member => exists_lineHolds_iff.mpr (forms line member)

theorem contentLines_eq (text : List Char) :
    contentLines text = ((text.splitOn '\n').map trimmed).filter (· ≠ []) := by
  rw [contentLines]
  apply List.filter_congr
  intro line _
  cases line <;> rfl

theorem readsLines (order : ByteOrder) (text : String) :
    ReadsLines order text ((text.toList.splitOn '\n').map trimmed) := by
  have accepted_iff : (∃ found, parse order text = .ok found) ↔
      ∀ content ∈ (text.toList.splitOn '\n').map trimmed,
        content = [] ∨ ∃ runs, LineForm content runs := by
    rw [parse_accepts_iff, contentLines_eq, List.forall_mem_filter]
    apply forall₂_congr
    intro content _
    rw [decide_eq_true_eq, or_iff_not_imp_left]
  constructor
  · exact accepted_iff
  · intro found
    rw [parse_eq_ok_iff, contentLines_eq]
  · intro fault
    have refused : (¬ ∃ found, parse order text = .ok found) ↔
        ∃ content ∈ (text.toList.splitOn '\n').map trimmed,
          content ≠ [] ∧ ∀ runs, ¬ LineForm content runs := by
      rw [accepted_iff]
      simp only [not_forall, not_or, not_exists, exists_prop]
    rw [← refused]
    rcases parse_cases order text with failed | ⟨found, done⟩
    · simp [failed, eq_comm]
    · simp [done]

/-- A text is read where every line that is not blank has the form of a line, each giving its bytes, and
is refused as a whole otherwise. -/
theorem parse_readsGrammar (order : ByteOrder) (text : String) : ∃ contents,
    (∀ other, TrimmedLines text.toList other ↔ other = contents) ∧
    ReadsLines order text contents :=
  ⟨_, fun _ => trimmedLines_iff, readsLines order text⟩

end Dump

end CcdController
