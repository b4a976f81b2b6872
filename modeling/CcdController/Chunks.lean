namespace CcdController

variable {α : Type}

/-- Cuts a list into chunks. There are none of length 0. -/
def chunks (width : Nat) (items : List α) : List (List α) :=
  if _h : width = 0 ∨ items.length = 0 then []
  else items.take width :: chunks width (items.drop width)
termination_by items.length
decreasing_by
  rw [List.length_drop]
  omega

@[simp] theorem chunks_nil (width : Nat) : chunks width ([] : List α) = [] := by
  simp [chunks]

theorem chunks_of_ne_nil {width : Nat} {items : List α} (hw : 0 < width) (h : items ≠ []) :
    chunks width items = items.take width :: chunks width (items.drop width) := by
  rw [chunks, dif_neg]
  rw [List.length_eq_zero_iff]
  exact fun h' => h'.elim (by omega) h

theorem flatten_chunks {width : Nat} (hw : 0 < width) (items : List α) :
    (chunks width items).flatten = items := by
  fun_induction chunks width items with
  | case1 items h =>
      have : items.length = 0 := by omega
      simp [List.length_eq_zero_iff.mp this]
  | case2 items h ih => simp [ih]

end CcdController
