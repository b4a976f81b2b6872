import Mathlib.Algebra.GroupWithZero.Nat
import CcdController.Text.Numeral

namespace CcdController.Text

theorem leftpad_toDigits_succ {width : Nat} (some : 0 < width) (n : Nat) :
    ((Nat.toDigits 16 n).map Char.toUpper).leftpad (width + 1) '0' =
      ((Nat.toDigits 16 (n / 16)).map Char.toUpper).leftpad width '0' ++ [hexDigit (n % 16)] := by
  rw [Nat.toDigits_eq_if (by decide)]
  by_cases one : n < 16
  · have none : n / 16 = 0 := Nat.div_eq_of_lt one
    have zeros : (List.leftpad width '0' ['0']) = List.replicate width '0' := by
      rw [List.leftpad, ← List.replicate_one, List.replicate_append_replicate]
      congr 1
      exact Nat.sub_add_cancel some
    rw [if_pos one, none, Nat.mod_eq_of_lt one]
    exact congrArg (· ++ [hexDigit n]) zeros.symm
  · rw [if_neg one, List.map_append, List.leftpad, List.leftpad, List.length_append,
      List.map_singleton, List.length_singleton, Nat.add_sub_add_right, List.append_assoc]
    rfl

theorem hex_eq {width n : Nat} (some : 0 < width) (enough : n < 16 ^ width) :
    hex width n =
      String.ofList ((List.range width).reverse.map fun place => hexDigit (n / 16 ^ place % 16)) := by
  rw [hex]
  congr 1
  induction width generalizing n with
  | zero => exact absurd some (Nat.lt_irrefl 0)
  | succ width ih =>
      by_cases first : width = 0
      · subst first
        have digit : n < 16 := enough
        rw [Nat.toDigits_of_lt_base digit]
        simp [List.leftpad, hexDigit, Nat.mod_eq_of_lt digit]
      · have more : 0 < width := Nat.pos_of_ne_zero first
        have fewer : n / 16 < 16 ^ width := by
          rw [Nat.div_lt_iff_lt_mul (by decide), ← Nat.pow_succ]
          exact enough
        rw [leftpad_toDigits_succ more, ih more fewer, List.range_succ_eq_map, List.reverse_cons,
          List.map_append, ← List.map_reverse, List.map_map]
        congr 1
        · apply List.map_congr_left
          intro place _
          rw [Function.comp, Nat.pow_succ', Nat.div_div_eq_div_mul]
        · simp

end CcdController.Text
