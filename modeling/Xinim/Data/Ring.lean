import Mathlib.Data.Nat.ModEq
import Mathlib.Logic.Function.Basic

/-! A ring buffer of `cap` cells seen as the queue it holds: the `n` cells
from `start` on, wrapping at `cap`. A push writes the cell after the last one
and a pop reads the first one and moves `start` on; both are stated on this
view, for any type of cell. -/

namespace Ring

variable {α : Type*}

def contents (buf : ℕ → α) (cap start : ℕ) : ℕ → List α
  | 0 => []
  | n + 1 => contents buf cap start n ++ [buf ((start + n) % cap)]

@[simp] theorem length_contents (buf : ℕ → α) (cap start n : ℕ) :
    (contents buf cap start n).length = n := by
  induction n with
  | zero => rfl
  | succ n ih => simp [contents, ih]

theorem mod_ne_of_lt {cap start i n : ℕ} (lt : i < n) (fits : n < cap) :
    (start + i) % cap ≠ (start + n) % cap := by
  intro same
  have eq : i = n := Nat.ModEq.eq_of_lt_of_lt (Nat.ModEq.add_left_cancel' start same) (by omega) fits
  omega

theorem contents_update_of_le {buf : ℕ → α} {cap start n m : ℕ} (le : m ≤ n) (fits : n < cap) (b : α) :
    contents (Function.update buf ((start + n) % cap) b) cap start m = contents buf cap start m := by
  induction m with
  | zero => rfl
  | succ m ih =>
    rw [contents, contents, ih (by omega), Function.update_of_ne (mod_ne_of_lt (by omega) fits)]

theorem contents_push {buf : ℕ → α} {cap start n : ℕ} (fits : n < cap) (b : α) :
    contents (Function.update buf ((start + n) % cap) b) cap start (n + 1) = contents buf cap start n ++ [b] := by
  rw [contents, contents_update_of_le le_rfl fits, Function.update_self]

theorem contents_mod (buf : ℕ → α) (cap start n : ℕ) :
    contents buf cap (start % cap) n = contents buf cap start n := by
  induction n with
  | zero => rfl
  | succ n ih => rw [contents, contents, ih, Nat.mod_add_mod]

theorem contents_pop (buf : ℕ → α) (cap start n : ℕ) :
    contents buf cap start (n + 1) = buf (start % cap) :: contents buf cap (start + 1) n := by
  induction n with
  | zero => simp [contents]
  | succ n ih =>
    rw [contents, ih, contents, List.cons_append, show start + (n + 1) = start + 1 + n by omega]

end Ring
