import Mathlib.Data.List.DropRight
import Mathlib.Data.List.TakeWhile
import CcdController.Text.Line

namespace CcdController.Text

/-- Lines that hold no line end and are joined to a text by one between each two of them. -/
structure IsLines (text : List Char) (lines : List (List Char)) : Prop where
  nonempty : lines ≠ []
  whole : ∀ line ∈ lines, '\n' ∉ line
  joined : ['\n'].intercalate lines = text

structure Trims (line content : List Char) : Prop where
  around : ∃ front back, line = front ++ content ++ back ∧
    (∀ c ∈ front, isBlank c = true) ∧ ∀ c ∈ back, isBlank c = true
  starts : ∀ c ∈ content.head?, isBlank c = false
  ends : ∀ c ∈ content.getLast?, isBlank c = false

theorem not_separator_of_mem_splitOnP {p : Char → Bool} {text piece : List Char}
    (member : piece ∈ text.splitOnP p) : ∀ c ∈ piece, p c = false := by
  induction text generalizing piece with
  | nil =>
      rw [List.splitOnP_nil, List.mem_singleton] at member
      rw [member]
      exact fun c inside => absurd inside List.not_mem_nil
  | cons first text ih =>
      rw [List.splitOnP_cons_eq_if_modifyHead] at member
      split at member
      · rcases List.mem_cons.mp member with rfl | later
        · exact fun c inside => absurd inside List.not_mem_nil
        · exact ih later
      · next other =>
          obtain ⟨head, tail, split⟩ := List.exists_cons_of_ne_nil (List.splitOnP_ne_nil p text)
          rw [split] at member ih
          rcases List.mem_cons.mp member with rfl | later
          · intro c inside
            rcases List.mem_cons.mp inside with rfl | inside
            · exact Bool.eq_false_iff.mpr other
            · exact ih List.mem_cons_self c inside
          · exact ih (List.mem_cons_of_mem head later)

theorem isLines_splitOn (text : List Char) : IsLines text (text.splitOn '\n') where
  nonempty := List.splitOn_ne_nil '\n' text
  whole := by
    intro line member inside
    rw [List.splitOn_eq_splitOnP] at member
    have other := not_separator_of_mem_splitOnP member '\n' inside
    cases other
  joined := List.intercalate_splitOn '\n'

theorem IsLines.eq_splitOn {text : List Char} {lines : List (List Char)}
    (isLines : IsLines text lines) : lines = text.splitOn '\n' := by
  rw [← isLines.joined, List.splitOn_intercalate '\n' isLines.whole isLines.nonempty]

section

variable {p : Char → Bool} {line content front : List Char}

theorem dropWhile_append (dropped : ∀ c ∈ front, p c = true)
    (kept : ∀ c ∈ content.head?, p c = false) : (front ++ content).dropWhile p = content := by
  rw [List.dropWhile_append_of_pos dropped]
  cases content with
  | nil => rfl
  | cons first rest =>
      apply List.dropWhile_cons_of_neg
      rw [kept first rfl]
      exact Bool.false_ne_true

theorem Trims.trimmed_eq (trims : Trims line content) : trimmed line = content := by
  obtain ⟨front, back, rfl, frontBlank, backBlank⟩ := trims.around
  cases content with
  | nil =>
      have left : (front ++ [] ++ back).dropWhile isBlank = [] := by
        rw [List.dropWhile_eq_nil_iff, List.append_nil]
        exact List.forall_mem_append.mpr ⟨frontBlank, backBlank⟩
      rw [trimmed, left]
      rfl
  | cons first rest =>
      have left : (front ++ first :: rest ++ back).dropWhile isBlank = first :: rest ++ back := by
        rw [List.append_assoc]
        exact dropWhile_append frontBlank trims.starts
      have right : (first :: rest ++ back).reverse.dropWhile isBlank =
          (first :: rest).reverse := by
        rw [List.reverse_append]
        apply dropWhile_append
        · intro c member
          exact backBlank c (List.mem_reverse.mp member)
        · rw [List.head?_reverse]
          exact trims.ends
      rw [trimmed, left, right, List.reverse_reverse]

theorem solid_head_dropWhile (p : Char → Bool) (line : List Char) :
    ∀ c ∈ (line.dropWhile p).head?, p c = false := by
  intro c first
  have solid := List.head?_dropWhile_not p line
  rw [first] at solid
  exact solid

theorem trims_trimmed (line : List Char) : Trims line (trimmed line) where
  around := by
    refine ⟨line.takeWhile isBlank,
      ((line.dropWhile isBlank).reverse.takeWhile isBlank).reverse, ?_, ?_, ?_⟩
    · rw [List.append_assoc, trimmed, ← List.reverse_append, List.takeWhile_append_dropWhile,
        List.reverse_reverse, List.takeWhile_append_dropWhile]
    · intro c member
      exact List.mem_takeWhile_imp member
    · intro c member
      exact List.mem_takeWhile_imp (List.mem_reverse.mp member)
  starts := by
    intro c first
    obtain ⟨back, split⟩ := List.rdropWhile_prefix isBlank (line.dropWhile isBlank)
    apply solid_head_dropWhile isBlank line
    rw [← split, List.head?_append]
    change c ∈ (trimmed line).head?.or back.head?
    rw [first]
    rfl
  ends := by
    intro c last
    rw [trimmed, List.getLast?_reverse] at last
    exact solid_head_dropWhile isBlank _ c last

theorem trims_iff : Trims line content ↔ trimmed line = content := by
  constructor
  · exact Trims.trimmed_eq
  · intro same
    rw [← same]
    exact trims_trimmed line

end

end CcdController.Text
