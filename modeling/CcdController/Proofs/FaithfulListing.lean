import CcdController.Cli.Report
import CcdController.Proofs.DumpReading
import CcdController.Proofs.SourceListing

/-!
Listings of memory images whose modes have no names. A row is its fields with a space between each two
of them, and a listing is its rows with a line end between each two of them. No field holds a space
and no row a line end, so a listing comes apart into its fields, and these give the words away.
-/
namespace CcdController

namespace Text

def Solid (text : String) : Prop := ∀ c ∈ text.toList, isBlank c = false

instance (text : String) : Decidable (Solid text) :=
  List.decidableBAll (fun c => isBlank c = false) text.toList

theorem Solid.append {front back : String} (first : Solid front) (second : Solid back) :
    Solid (front ++ back) := by
  intro c member
  rw [String.toList_append, List.mem_append] at member
  exact member.elim (first c) (second c)

theorem solid_toString (n : Nat) : Solid (toString n) := by
  intro c member
  apply isBlank_of_isDigit
  have digit : c ∈ Nat.toDigits 10 n := Nat.toList_repr ▸ member
  exact Nat.isDigit_of_mem_toDigits (by decide) (by decide) digit

theorem solid_decimal (width n : Nat) : Solid (decimal width n) := by
  intro c member
  rw [decimal, String.toList_ofList] at member
  exact isBlank_of_isDigit (isDigit_of_mem_decimalDigits member)

theorem decimal_inj {width m n : Nat} : decimal width m = decimal width n ↔ m = n := by
  constructor
  · intro same
    have digits := congrArg (Nat.ofDigitChars 10 · 0) (String.ofList_injective same)
    simpa only [ofDigitChars_decimalDigits] using digits
  · intro same
    rw [same]

theorem map_hexValue?_hexDigit {digits : List Nat} (small : ∀ digit ∈ digits, digit < 16) :
    (digits.map hexDigit).map hexValue? = digits.map some := by
  rw [List.map_map]
  apply List.map_congr_left
  intro digit member
  exact hexValue?_hexDigit (small digit member)

theorem toString_nat_inj {m n : Nat} : toString m = toString n ↔ m = n := by
  constructor
  · intro same
    have digits := congrArg (fun text : String => Nat.ofDigitChars 10 text.toList 0) same
    simpa only [toString, Nat.toList_repr, Nat.ofDigitChars_ten_toDigits] using digits
  · intro same
    rw [same]

theorem toString_uint16_inj {m n : UInt16} : toString m = toString n ↔ m = n := by
  rw [← UInt16.toNat_inj]
  exact toString_nat_inj

theorem toNat_bool_inj {one other : Bool} : one.toNat = other.toNat ↔ one = other := by
  cases one <;> cases other <;> decide

/-- Texts that hold no separator are known from what they are joined to. -/
theorem eq_of_intercalate {separator : String} {mark : Char} {one other : List String}
    (single : separator.toList = [mark]) (some : one ≠ []) (some' : other ≠ [])
    (whole : ∀ text ∈ one, mark ∉ text.toList) (whole' : ∀ text ∈ other, mark ∉ text.toList)
    (same : separator.intercalate one = separator.intercalate other) : one = other := by
  have joined := congrArg String.toList same
  rw [String.toList_intercalate, String.toList_intercalate, single] at joined
  have split := congrArg (List.splitOn mark) joined
  rw [List.splitOn_intercalate mark (by simpa using whole) (by simpa using some),
    List.splitOn_intercalate mark (by simpa using whole') (by simpa using some')] at split
  exact List.map_injective_iff.mpr (fun _ _ => String.toList_injective) split

end Text

namespace Listing

open Text

abbrev unnamed : ModeNames := fun _ => none

def headerFields (index : UInt16) (header : ModeHeader) : List String :=
  [decimal 4 index.toNat, "MODE", "", modeText unnamed index, "|",
    "n_states:" ++ toString header.stateCount, "|", "n_loops:" ++ toString header.loopCount, "|",
    "nested_loops:" ++ toString header.nestedLoopCount, "|",
    "is_nested:" ++ toString header.isNested.toNat, "|",
    "next:" ++ modeText unnamed header.nextAddress, "|",
    "parent:" ++ modeText unnamed header.parentAddress]

def stateFields (index : UInt16) (state : TimingState) : List String :=
  [decimal 4 index.toNat, "STATE", pinsText none state, "|", "hold:" ++ toString state.holdTime]

def fields (index : UInt16) : Word → List String
  | .header header => headerFields index header
  | .state state => stateFields index state

theorem row_eq_fields (index : Nat) (word : Word) :
    row unnamed none index word = " ".intercalate (fields (UInt16.ofNat index) word) := by
  apply String.toList_injective
  cases word with
  | header header =>
      simp [row, headerRow, fields, headerFields, toString, String.intercalate_cons_cons]
  | state state =>
      simp [row, stateRow, fields, stateFields, toString, String.intercalate_cons_cons]

theorem solid_modeText (address : UInt16) : Solid (modeText unnamed address) := by
  unfold modeText
  split
  · decide
  · exact Solid.append (by decide) (solid_decimal 4 address.toNat)

theorem solid_pinsText (state : TimingState) : Solid (pinsText none state) := by
  obtain ⟨digits, shown, -, small, -⟩ := showsAllPins state
  rw [shown]
  apply Solid.append (by decide)
  intro c member
  rw [String.toList_ofList] at member
  obtain ⟨digit, among, rfl⟩ := List.mem_map.mp member
  exact isBlank_hexDigit (small digit among)

theorem solid_of_mem_fields {index : UInt16} {word : Word} :
    ∀ field ∈ fields index word, Solid field := by
  have bar : Solid "|" := by decide
  have number := solid_decimal 4 index.toNat
  cases word with
  | header header =>
      simp only [fields, headerFields, List.forall_mem_cons]
      refine ⟨number, by decide, by decide, solid_modeText index, bar, ?_, bar, ?_, bar, ?_, bar, ?_,
        bar, ?_, bar, ?_, by simp⟩
      · exact Solid.append (by decide) (solid_toString _)
      · exact Solid.append (by decide) (solid_toString _)
      · exact Solid.append (by decide) (solid_toString _)
      · exact Solid.append (by decide) (solid_toString _)
      · exact Solid.append (by decide) (solid_modeText _)
      · exact Solid.append (by decide) (solid_modeText _)
  | state state =>
      simp only [fields, stateFields, List.forall_mem_cons]
      refine ⟨number, by decide, solid_pinsText state, bar, ?_, by simp⟩
      exact Solid.append (by decide) (solid_toString _)

theorem modeText_inj {one other : UInt16} :
    modeText unnamed one = modeText unnamed other ↔ one = other := by
  have dash (address : UInt16) : "-" ≠ addressName address := by
    intro same
    have first := congrArg (fun text : String => text.toList.head?) same
    rw [addressName, String.toList_append] at first
    have chars : some '-' = some '@' := first
    cases chars
  constructor
  · intro same
    unfold modeText at same
    split at same
    · next halt =>
        split at same
        · next halt' => rw [halt, halt']
        · exact absurd same (dash other)
    · split at same
      · exact absurd same.symm (dash one)
      · have digits := (String.append_right_inj "@").mp same
        exact UInt16.toNat_inj.mp (decimal_inj.mp digits)
  · intro same
    rw [same]

theorem eq_of_showsAllPins {one other : TimingState} {text : String}
    (first : ShowsAllPins one text) (second : ShowsAllPins other text) : one.pins = other.pins := by
  obtain ⟨digits, shown, -, small, levels⟩ := first
  obtain ⟨digits', shown', -, small', levels'⟩ := second
  have chars : digits.map hexDigit = digits'.map hexDigit := by
    apply String.ofList_injective
    apply (String.append_right_inj "pins:").mp
    rw [← shown, ← shown']
  have values := congrArg (List.map hexValue?) chars
  rw [map_hexValue?_hexDigit small, map_hexValue?_hexDigit small'] at values
  have same : digits = digits' := (List.map_inj_right fun _ _ => Option.some.inj).mp values
  subst same
  apply Pins.eq_of_level
  intro pin inside
  obtain ⟨digit, there, level⟩ := levels pin inside
  obtain ⟨digit', there', level'⟩ := levels' pin inside
  cases there.symm.trans there'
  exact level.symm.trans level'

theorem eq_of_headerFields {index : UInt16} {one other : ModeHeader}
    (same : headerFields index one = headerFields index other) : one = other := by
  simp only [headerFields, List.cons.injEq, String.append_right_inj, toString_uint16_inj,
    toString_nat_inj, modeText_inj, toNat_bool_inj, true_and, and_true] at same
  obtain ⟨states, loops, nestedLoops, nested, next, parent⟩ := same
  cases one
  cases other
  congr

theorem eq_of_stateFields {index : UInt16} {one other : TimingState}
    (same : stateFields index one = stateFields index other) : one = other := by
  simp only [stateFields, List.cons.injEq, String.append_right_inj, toString_nat_inj, true_and,
    and_true] at same
  obtain ⟨pins, holdTime⟩ := same
  have shown : ShowsAllPins one (pinsText none other) := pins ▸ showsAllPins one
  have levels := eq_of_showsAllPins shown (showsAllPins other)
  cases one
  cases other
  congr

theorem eq_of_fields {index : UInt16} {one other : Word}
    (same : fields index one = fields index other) : one = other := by
  have count := congrArg List.length same
  cases one with
  | header header =>
      cases other with
      | header header' => rw [eq_of_headerFields same]
      | state state => cases count
  | state state =>
      cases other with
      | header header => cases count
      | state state' => rw [eq_of_stateFields same]

theorem fields_ne_nil (index : UInt16) (word : Word) : fields index word ≠ [] := by
  cases word with
  | header header => exact List.cons_ne_nil _ _
  | state state => exact List.cons_ne_nil _ _

theorem eq_of_row {index : Nat} {one other : Word}
    (same : row unnamed none index one = row unnamed none index other) : one = other := by
  have spaceless (word : Word) : ∀ field ∈ fields (UInt16.ofNat index) word, ' ' ∉ field.toList := by
    intro field member inside
    have blank := solid_of_mem_fields field member ' ' inside
    cases blank
  rw [row_eq_fields, row_eq_fields] at same
  exact eq_of_fields (eq_of_intercalate rfl (fields_ne_nil _ one) (fields_ne_nil _ other)
    (spaceless one) (spaceless other) same)

theorem newline_notMem_row (index : Nat) (word : Word) :
    '\n' ∉ (row unnamed none index word).toList := by
  intro member
  rw [row_eq_fields, String.toList_intercalate] at member
  have space : " ".toList = [' '] := rfl
  rw [space] at member
  rcases Dump.mem_intercalate member with space | ⟨text, among, inside⟩
  · cases space
  · obtain ⟨field, there, rfl⟩ := List.mem_map.mp among
    have blank := solid_of_mem_fields field there '\n' inside
    cases blank

theorem newline_notMem_rows {words : List Word} :
    ∀ text ∈ rows unnamed none words, '\n' ∉ text.toList := by
  intro text member
  obtain ⟨index, below, rfl⟩ := List.mem_mapIdx.mp member
  exact newline_notMem_row index words[index]

theorem eq_of_rows {one other : List Word}
    (same : rows unnamed none one = rows unnamed none other) : one = other := by
  have sizes := congrArg List.length same
  rw [rows, rows, List.length_mapIdx, List.length_mapIdx] at sizes
  apply List.ext_getElem sizes
  intro index below below'
  have there := congrArg (·[index]?) same
  simp only [rows, List.getElem?_mapIdx, List.getElem?_eq_getElem below,
    List.getElem?_eq_getElem below', Option.map_some] at there
  exact eq_of_row (Option.some.inj there)

theorem exists_text_cons (word : Word) (words : List Word) :
    ∃ rest, text unnamed none (word :: words) = "0000" ++ rest := by
  obtain ⟨rest, first⟩ := Assembly.exists_rest unnamed none 0 word
  have rows_cons : rows unnamed none (word :: words) =
      ("0000" ++ rest) :: words.mapIdx fun index => row unnamed none (index + 1) := by
    rw [rows, List.mapIdx_cons, first]
    rfl
  rw [text, rows_cons, joinedRows, String.intercalate_cons_append]
  exact ⟨_, rfl⟩

theorem text_ne (words : List Word) (notice : String) (letter : notice.toList.head? ≠ some '0')
    (some : words ≠ []) : text unnamed none words ≠ notice := by
  obtain ⟨word, later, rfl⟩ := List.exists_cons_of_ne_nil some
  obtain ⟨rest, starts⟩ := exists_text_cons word later
  intro same
  apply letter
  rw [← same, starts, String.toList_append]
  rfl

theorem eq_of_text {one other : List Word}
    (same : text unnamed none one = text unnamed none other) : one = other := by
  -- A listing without rows is the empty text, as one with an empty row would be. No row is empty.
  by_cases none : one = []
  · subst none
    by_contra differs
    exact text_ne other "" (by decide) (Ne.symm differs) same.symm
  by_cases none' : other = []
  · subst none'
    exact absurd same (text_ne one "" (by decide) none)
  · apply eq_of_rows
    have lineEnd : "\n".toList = ['\n'] := rfl
    apply eq_of_intercalate lineEnd _ _ newline_notMem_rows newline_notMem_rows same
    · simpa [rows] using none
    · simpa [rows] using none'

end Listing

namespace Cli

open Listing

/-- Two memory images have the same listing only if they are the same, and an empty image is not
shown as any other. -/
theorem memoryText_faithful (one other : List Word) :
    (text (fun _ => none) none one = text (fun _ => none) none other ↔ one = other) ∧
      (memoryText one = memoryText other ↔ one = other) := by
  have notice : "No sequencer memory writes".toList.head? ≠ some '0' := by decide
  refine ⟨⟨eq_of_text, fun same => by rw [same]⟩, ?_, fun same => by rw [same]⟩
  intro same
  unfold memoryText at same
  split at same
  · next empty =>
      split at same
      · next empty' => rw [empty, empty']
      · next filled => exact absurd same.symm (text_ne other _ notice filled)
  · next filled =>
      split at same
      · exact absurd same (text_ne one _ notice filled)
      · exact eq_of_text same

end Cli

end CcdController
