import Mathlib.Data.Nat.Bitwise
import Mathlib.Data.Finset.Card
import Mathlib.Data.Finset.Range

/-! Bitmaps packed into bytes, bit `i` at position `i % 8` of byte `i / 8`:
a bit is set by or-ing its mask `1 << (i % 8)` into its byte and cleared by
and-ing the mask's complement. What an allocator over such a map reads is the
number of clear bits below a bound and the first clear bit. -/

namespace Bitmap

def mask (off : ℕ) : UInt8 := 1 <<< UInt8.ofNat off

def test (bytes : ℕ → UInt8) (i : ℕ) : Bool := (bytes (i / 8) &&& mask (i % 8)) != 0

def set (bytes : ℕ → UInt8) (i : ℕ) : ℕ → UInt8 :=
  Function.update bytes (i / 8) (bytes (i / 8) ||| mask (i % 8))

def clear (bytes : ℕ → UInt8) (i : ℕ) : ℕ → UInt8 :=
  Function.update bytes (i / 8) (bytes (i / 8) &&& ~~~mask (i % 8))

def clearCount (bytes : ℕ → UInt8) (n : ℕ) : ℕ := (List.range n).countP fun i => !test bytes i

def firstClear (bytes : ℕ → UInt8) (n : ℕ) : Option ℕ := (List.range n).find? fun i => !test bytes i

section Bits

variable {bytes : ℕ → UInt8} {i j n m : ℕ}

theorem toNat_mask {off : ℕ} (h : off < 8) : (mask off).toNat = 2 ^ off := by
  have small : 2 ^ off < 2 ^ 8 := Nat.pow_lt_pow_right (by decide) h
  rw [mask, UInt8.toNat_shiftLeft, UInt8.toNat_ofNat', Nat.mod_eq_of_lt (by omega : off < 2 ^ 8),
    Nat.mod_eq_of_lt h, UInt8.toNat_one, Nat.one_shiftLeft, Nat.mod_eq_of_lt small]

theorem testBit_mask {off : ℕ} (h : off < 8) (k : ℕ) :
    (mask off).toNat.testBit k = decide (k = off) := by
  rw [toNat_mask h, Nat.testBit_two_pow]
  exact decide_eq_decide.mpr eq_comm

theorem test_eq_testBit : test bytes i = (bytes (i / 8)).toNat.testBit (i % 8) := by
  have masked : (bytes (i / 8) &&& mask (i % 8)).toNat =
      ((bytes (i / 8)).toNat.testBit (i % 8)).toNat * 2 ^ (i % 8) := by
    rw [UInt8.toNat_and, toNat_mask (Nat.mod_lt _ (by decide)), Nat.and_two_pow]
  rw [test]
  cases bit : (bytes (i / 8)).toNat.testBit (i % 8)
  · have zero : bytes (i / 8) &&& mask (i % 8) = 0 := UInt8.toNat_inj.mp (by simp [masked, bit])
    simp [zero]
  · have nonzero : bytes (i / 8) &&& mask (i % 8) ≠ 0 := fun zero => by
      have := congrArg UInt8.toNat zero
      simp [masked, bit] at this
    simp [nonzero]

theorem eq_of_div_of_mod (hdiv : j / 8 = i / 8) (hmod : j % 8 = i % 8) : j = i := by
  omega

theorem test_set : test (set bytes i) j = (decide (j = i) || test bytes j) := by
  rw [test_eq_testBit, test_eq_testBit, set, Function.update_apply]
  split
  · next same =>
    rw [same, UInt8.toNat_or, Nat.testBit_or, testBit_mask (Nat.mod_lt _ (by decide))]
    by_cases hmod : j % 8 = i % 8
    · simp [eq_of_div_of_mod same hmod]
    · have : j ≠ i := fun h => hmod (by rw [h])
      simp [hmod, this]
  · next other =>
    have : j ≠ i := fun h => other (by rw [h])
    simp [this]

theorem test_clear : test (clear bytes i) j = (!decide (j = i) && test bytes j) := by
  rw [test_eq_testBit, test_eq_testBit, clear, Function.update_apply]
  split
  · next same =>
    rw [same, UInt8.toNat_and, Nat.testBit_and, UInt8.toNat_not, UInt8.size,
      toNat_mask (Nat.mod_lt _ (by decide))]
    have bits : ∀ a b : Fin 8, (256 - 1 - 2 ^ a.val).testBit b.val = !decide (b.val = a.val) := by
      decide
    rw [bits ⟨i % 8, Nat.mod_lt _ (by decide)⟩ ⟨j % 8, Nat.mod_lt _ (by decide)⟩]
    by_cases hmod : j % 8 = i % 8
    · simp [eq_of_div_of_mod same hmod]
    · have : j ≠ i := fun h => hmod (by rw [h])
      simp [hmod, this]
  · next other =>
    have : j ≠ i := fun h => other (by rw [h])
    simp [this]

end Bits

section Counting

variable {bytes other : ℕ → UInt8} {i n m : ℕ}

theorem clearCount_succ (bytes : ℕ → UInt8) (n : ℕ) :
    clearCount bytes (n + 1) = clearCount bytes n + if test bytes n then 0 else 1 := by
  rw [clearCount, clearCount, List.range_succ, List.countP_append]
  cases bit : test bytes n <;> simp [bit]

theorem clearCount_le (bytes : ℕ → UInt8) (n : ℕ) : clearCount bytes n ≤ n := by
  have := (List.range n).countP_le_length (p := fun i => !test bytes i)
  rwa [List.length_range] at this

theorem clearCount_eq_card (bytes : ℕ → UInt8) (n : ℕ) :
    clearCount bytes n = ((Finset.range n).filter fun i => test bytes i = false).card := by
  rw [Finset.card_def, Finset.filter_val, Finset.range_val, Multiset.range, Multiset.filter_coe,
    Multiset.coe_card, clearCount, List.countP_eq_length_filter]
  simp

theorem clearCount_congr (h : ∀ j < n, test bytes j = test other j) :
    clearCount bytes n = clearCount other n :=
  List.countP_congr fun j hj => by rw [h j (List.mem_range.mp hj)]

theorem clearCount_set (bytes : ℕ → UInt8) (i n : ℕ) :
    clearCount (set bytes i) n + (if i < n ∧ test bytes i = false then 1 else 0) =
      clearCount bytes n := by
  induction n with
  | zero => simp [clearCount]
  | succ n ih =>
    rw [clearCount_succ, clearCount_succ, test_set]
    by_cases hn : n = i
    · subst hn
      have before : ¬(n < n ∧ test bytes n = false) := fun h => absurd h.1 (Nat.lt_irrefl n)
      rw [if_neg before] at ih
      cases test bytes n <;> simp [ih]
    · have below : (i < n + 1 ∧ test bytes i = false) ↔ (i < n ∧ test bytes i = false) := by
        constructor
        · rintro ⟨lt, clear⟩
          exact ⟨by omega, clear⟩
        · rintro ⟨lt, clear⟩
          exact ⟨by omega, clear⟩
      simp only [hn, decide_false, Bool.false_or, if_congr below rfl rfl]
      omega

theorem clearCount_clear (bytes : ℕ → UInt8) (i n : ℕ) :
    clearCount (clear bytes i) n =
      clearCount bytes n + (if i < n ∧ test bytes i = true then 1 else 0) := by
  induction n with
  | zero => simp [clearCount]
  | succ n ih =>
    rw [clearCount_succ, clearCount_succ, test_clear]
    by_cases hn : n = i
    · subst hn
      have before : ¬(n < n ∧ test bytes n = true) := fun h => absurd h.1 (Nat.lt_irrefl n)
      rw [if_neg before] at ih
      cases test bytes n <;> simp [ih]
    · have below : (i < n + 1 ∧ test bytes i = true) ↔ (i < n ∧ test bytes i = true) := by
        constructor
        · rintro ⟨lt, set⟩
          exact ⟨by omega, set⟩
        · rintro ⟨lt, set⟩
          exact ⟨by omega, set⟩
      simp only [hn, decide_false, Bool.not_false, Bool.true_and, if_congr below rfl rfl]
      omega

theorem firstClear_spec (found : firstClear bytes n = some i) :
    i < n ∧ test bytes i = false ∧ ∀ j < i, test bytes j = true := by
  obtain ⟨clear, mem, before⟩ := List.find?_range_eq_some.mp found
  refine ⟨List.mem_range.mp mem, by simpa using clear, fun j hj => ?_⟩
  simpa using before j hj

theorem firstClear_lt (hm : m ≤ n) (pos : 0 < clearCount bytes m) :
    ∃ i, firstClear bytes n = some i ∧ i < m := by
  obtain ⟨j, mem, clear⟩ := List.countP_pos_iff.mp pos
  have jm : j < m := List.mem_range.mp mem
  obtain ⟨i, found⟩ : ∃ i, firstClear bytes n = some i := by
    apply Option.isSome_iff_exists.mp
    rw [firstClear, List.find?_isSome]
    exact ⟨j, List.mem_range.mpr (by omega), clear⟩
  refine ⟨i, found, ?_⟩
  by_contra after
  have := (firstClear_spec found).2.2 j (by omega)
  simp [this] at clear

end Counting

end Bitmap
