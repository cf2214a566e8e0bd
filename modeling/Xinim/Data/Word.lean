import Mathlib.Data.Nat.Bitwise

/-! Bits of 32-bit words: bit `i` of a word is set by or-ing in its mask
`1 << i` and cleared by and-ing the mask's complement, and a word is full
when it is `~0`. What a scan over such words reads is the first clear bit of
a word that is not full. -/

namespace Word32

def mask (i : ℕ) : UInt32 := 1 <<< UInt32.ofNat i

def bit (k : UInt32) (i : ℕ) : Bool := k.toNat.testBit i

def firstClear (k : UInt32) : Option ℕ := (List.range 32).find? fun i => !bit k i

variable {k : UInt32} {i j : ℕ}

theorem toNat_mask (hi : i < 32) : (mask i).toNat = 2 ^ i := by
  have small : 2 ^ i < 2 ^ 32 := Nat.pow_lt_pow_right (by decide) hi
  rw [mask, UInt32.toNat_shiftLeft, UInt32.toNat_ofNat', Nat.mod_eq_of_lt (by omega : i < 2 ^ 32),
    Nat.mod_eq_of_lt hi, UInt32.toNat_one, Nat.one_shiftLeft, Nat.mod_eq_of_lt small]

theorem bit_of_le (k : UInt32) (hj : 32 ≤ j) : bit k j = false :=
  Nat.testBit_eq_false_of_lt (k.toNat_lt.trans_le (Nat.pow_le_pow_right (by decide) hj))

theorem bit_or_mask (hi : i < 32) (k : UInt32) (j : ℕ) : bit (k ||| mask i) j = (decide (j = i) || bit k j) := by
  rw [bit, bit, UInt32.toNat_or, Nat.testBit_or, toNat_mask hi, Nat.testBit_two_pow, Bool.or_comm]
  exact congrArg (· || _) (decide_eq_decide.mpr eq_comm)

theorem bit_not_mask (hi : i < 32) (hj : j < 32) : bit (~~~mask i) j = !decide (j = i) := by
  have bits : ∀ a b : Fin 32, (UInt32.size - 1 - 2 ^ a.val).testBit b.val = !decide (b.val = a.val) := by
    decide
  rw [bit, UInt32.toNat_not, toNat_mask hi]
  exact bits ⟨i, hi⟩ ⟨j, hj⟩

theorem bit_allOnes (j : ℕ) : bit 0xFFFFFFFF j = decide (j < 32) :=
  Nat.testBit_two_pow_sub_one 32 j

theorem ne_allOnes (hi : i < 32) (clear : bit k i = false) : k ≠ 0xFFFFFFFF := by
  rintro rfl
  rw [bit_allOnes, decide_eq_false_iff_not] at clear
  exact clear hi

theorem or_mask_and_not_mask (hi : i < 32) (clear : bit k i = false) : (k ||| mask i) &&& ~~~mask i = k := by
  apply UInt32.toNat_inj.mp
  apply Nat.eq_of_testBit_eq
  intro j
  rw [UInt32.toNat_and, Nat.testBit_and]
  by_cases small : j < 32
  · have kept := bit_or_mask hi k j
    have cleared := bit_not_mask hi small
    simp only [bit] at kept cleared
    rw [kept, cleared]
    by_cases same : j = i
    · subst same
      simp [bit] at clear
      simp [clear]
    · simp [same]
  · have high := bit_of_le k (Nat.le_of_not_lt small)
    rw [bit] at high
    rw [high, Nat.testBit_eq_false_of_lt ((k ||| mask i).toNat_lt.trans_le
      (Nat.pow_le_pow_right (by decide) (Nat.le_of_not_lt small))), Bool.false_and]

theorem firstClear_spec (found : firstClear k = some i) :
    i < 32 ∧ bit k i = false ∧ ∀ j < i, bit k j = true := by
  obtain ⟨clear, mem, before⟩ := List.find?_range_eq_some.mp found
  exact ⟨List.mem_range.mp mem, by simpa using clear, fun j hj => by simpa using before j hj⟩

theorem firstClear_le (hi : i < 32) (clear : bit k i = false) : ∃ i', firstClear k = some i' ∧ i' ≤ i := by
  obtain ⟨i', found⟩ : ∃ i', firstClear k = some i' := by
    apply Option.isSome_iff_exists.mp
    rw [firstClear, List.find?_isSome]
    exact ⟨i, List.mem_range.mpr hi, by simp [clear]⟩
  refine ⟨i', found, Nat.le_of_not_lt fun after => ?_⟩
  have := (firstClear_spec found).2.2 i after
  rw [clear] at this
  exact Bool.false_ne_true this

end Word32
