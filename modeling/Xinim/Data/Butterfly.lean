import Mathlib.Logic.Function.Basic
import Mathlib.Algebra.Group.Nat.Even

/-! In-place butterfly networks on an array of `N` cells, the loop shape of
the forward and inverse number-theoretic transforms. A butterfly reads the
cells `j` and `j + len` and writes a function of the two into each; `len`
butterflies side by side make a block of `2 * len` cells, and the blocks of
one `len` make a layer. Reads past the end give `0` and writes there do
nothing. The loops are specified pointwise: `span` is a run of butterflies,
`blocks` a run of blocks and `layer` a whole layer. -/

namespace Butterfly

variable {α : Type*} [Zero α] {N : ℕ}

def get (a : Fin N → α) (i : ℕ) : α := if h : i < N then a ⟨i, h⟩ else 0

def set (a : Fin N → α) (i : ℕ) (v : α) : Fin N → α := fun k => if k.val = i then v else a k

@[simp] theorem get_val (a : Fin N → α) (k : Fin N) : get a k.val = a k := dif_pos k.isLt

omit [Zero α] in
theorem set_apply (a : Fin N → α) (i : ℕ) (v : α) (k : Fin N) :
    set a i v k = if k.val = i then v else a k := rfl

theorem get_set_of_ne (a : Fin N → α) {i m : ℕ} (v : α) (apart : m ≠ i) :
    get (set a i v) m = get a m := by
  unfold get
  split
  · exact if_neg apart
  · rfl

omit [Zero α] in
theorem set_comm (a : Fin N → α) {i j : ℕ} (v w : α) (apart : i ≠ j) :
    set (set a i v) j w = set (set a j w) i v := by
  funext k
  simp only [set_apply]
  split_ifs with atJ atI
  · exact absurd (atI.symm.trans atJ) apart
  · rfl
  · rfl
  · rfl

section Network

variable (lo hi : α → α → α)

def step (len j : ℕ) (a : Fin N → α) : Fin N → α :=
  set (set a j (lo (get a j) (get a (j + len)))) (j + len) (hi (get a j) (get a (j + len)))

def span (len j count : ℕ) (a : Fin N → α) : Fin N → α := fun k =>
  if j ≤ k.val ∧ k.val < j + count then lo (a k) (get a (k.val + len))
  else if j + len ≤ k.val ∧ k.val < j + len + count then hi (get a (k.val - len)) (a k)
  else a k

/-- A whole layer: a cell in the lower half of its block of `2 * len` cells
pairs with the cell `len` on, one in the upper half with the cell `len` back. -/
def layer (len : ℕ) (a : Fin N → α) : Fin N → α := fun k =>
  if k.val % (2 * len) < len then lo (a k) (get a (k.val + len))
  else hi (get a (k.val - len)) (a k)

def blocks (len start count : ℕ) (a : Fin N → α) : Fin N → α := fun k =>
  if start ≤ k.val ∧ k.val < start + count * (2 * len) then layer lo hi len a k else a k

variable {lo hi}

theorem step_of_ne {len j : ℕ} (a : Fin N → α) {k : Fin N} (low : k.val ≠ j) (high : k.val ≠ j + len) :
    step lo hi len j a k = a k := by
  simp only [step, set_apply, if_neg low, if_neg high]

theorem get_step_of_ne {len j i : ℕ} (a : Fin N → α) (low : i ≠ j) (high : i ≠ j + len) :
    get (step lo hi len j a) i = get a i := by
  rw [step, get_set_of_ne _ _ high, get_set_of_ne _ _ low]

theorem step_low {len j : ℕ} (a : Fin N → α) {k : Fin N} (low : k.val = j) (pos : 0 < len) :
    step lo hi len j a k = lo (a k) (get a (j + len)) := by
  have high : k.val ≠ j + len := by omega
  simp only [step, set_apply, if_neg high, if_pos low]
  rw [← low, get_val]

theorem step_high {len j : ℕ} (a : Fin N → α) {k : Fin N} (high : k.val = j + len) :
    step lo hi len j a k = hi (get a j) (a k) := by
  simp only [step, set_apply, if_pos high]
  rw [← high, get_val]

@[simp] theorem span_zero (len j : ℕ) (a : Fin N → α) : span lo hi len j 0 a = a := by
  funext k
  simp only [span]
  split_ifs with low high
  · omega
  · omega
  · rfl

theorem span_step {len j count : ℕ} (short : count < len) (a : Fin N → α) :
    span lo hi len (j + 1) count (step lo hi len j a) = span lo hi len j (count + 1) a := by
  funext k
  have pos : 0 < len := by omega
  simp only [span]
  by_cases low : k.val = j
  · have first : ¬ (j + 1 ≤ k.val ∧ k.val < j + 1 + count) := by omega
    have second : ¬ (j + 1 + len ≤ k.val ∧ k.val < j + 1 + len + count) := by omega
    have lower : j ≤ k.val ∧ k.val < j + (count + 1) := by omega
    rw [if_neg first, if_neg second, if_pos lower, step_low a low pos, low]
  by_cases high : k.val = j + len
  · have first : ¬ (j + 1 ≤ k.val ∧ k.val < j + 1 + count) := by omega
    have second : ¬ (j + 1 + len ≤ k.val ∧ k.val < j + 1 + len + count) := by omega
    have notLower : ¬ (j ≤ k.val ∧ k.val < j + (count + 1)) := by omega
    have upper : j + len ≤ k.val ∧ k.val < j + len + (count + 1) := by omega
    rw [if_neg first, if_neg second, if_neg notLower, if_pos upper, step_high a high, high,
      Nat.add_sub_cancel]
  rw [step_of_ne a low high]
  split_ifs with first second third fourth <;> try omega
  · rw [get_step_of_ne a (by omega) (by omega)]
  · rw [get_step_of_ne a (by omega) (by omega)]
  · rfl

@[simp] theorem blocks_zero (len start : ℕ) (a : Fin N → α) : blocks lo hi len start 0 a = a := by
  funext k
  simp only [blocks, Nat.zero_mul, Nat.add_zero]
  rw [if_neg (by omega)]

theorem mod_of_block {s m k : ℕ} (aligned : s % m = 0) (le : s ≤ k) (lt : k < s + m) :
    k % m = k - s := by
  have within : k - s < m := by omega
  calc k % m = (s + (k - s)) % m := by rw [Nat.add_sub_cancel' le]
    _ = (s % m + (k - s) % m) % m := Nat.add_mod _ _ _
    _ = k - s := by rw [aligned, zero_add, Nat.mod_mod, Nat.mod_eq_of_lt within]

theorem le_sub_mod {s m k : ℕ} (aligned : s % m = 0) (le : s ≤ k) : s ≤ k - k % m := by
  have start : m * (s / m) = s := by
    have := Nat.div_add_mod s m
    omega
  have lower : m * (s / m) ≤ m * (k / m) := Nat.mul_le_mul_left m (Nat.div_le_div_right le)
  have := Nat.div_add_mod k m
  omega

theorem span_of_le {len start : ℕ} (a : Fin N → α) {k : Fin N} (past : start + 2 * len ≤ k.val) :
    span lo hi len start len a k = a k := by
  simp only [span]
  rw [if_neg (by omega), if_neg (by omega)]

theorem get_span_of_le {len start i : ℕ} (a : Fin N → α) (past : start + 2 * len ≤ i) :
    get (span lo hi len start len a) i = get a i := by
  unfold get
  split
  · exact span_of_le a past
  · rfl

theorem span_eq_layer {len start : ℕ} (aligned : start % (2 * len) = 0) (a : Fin N → α) {k : Fin N}
    (le : start ≤ k.val) (lt : k.val < start + 2 * len) :
    span lo hi len start len a k = layer lo hi len a k := by
  have offset := mod_of_block aligned le lt
  simp only [span, layer, offset]
  by_cases lower : k.val < start + len
  · rw [if_pos ⟨le, lower⟩, if_pos (by omega)]
  · rw [if_neg (by omega), if_pos ⟨by omega, by omega⟩, if_neg (by omega)]

theorem layer_span_of_le {len start : ℕ} (aligned : start % (2 * len) = 0) (a : Fin N → α) {k : Fin N}
    (past : start + 2 * len ≤ k.val) :
    layer lo hi len (span lo hi len start len a) k = layer lo hi len a k := by
  simp only [layer, span_of_le a past]
  split
  · rw [get_span_of_le a (by omega)]
  · rename_i upper
    have blockStart : start + 2 * len ≤ k.val - k.val % (2 * len) :=
      le_sub_mod (by rw [Nat.add_mod_right, aligned]) past
    rw [get_span_of_le a (by omega)]

theorem blocks_span {len start count : ℕ} (aligned : start % (2 * len) = 0) (a : Fin N → α) :
    blocks lo hi len (2 * len + start) count (span lo hi len start len a) =
      blocks lo hi len start (count + 1) a := by
  funext k
  simp only [blocks]
  by_cases first : start ≤ k.val ∧ k.val < start + 2 * len
  · rw [if_neg (by omega), if_pos ⟨first.1, by rw [Nat.succ_mul]; omega⟩]
    exact span_eq_layer aligned a first.1 first.2
  by_cases later : start + 2 * len ≤ k.val ∧ k.val < start + 2 * len + count * (2 * len)
  · rw [if_pos ⟨by omega, by omega⟩, if_pos ⟨by omega, by rw [Nat.succ_mul]; omega⟩]
    exact layer_span_of_le aligned a later.1
  · rw [if_neg (by omega), if_neg (by rw [Nat.succ_mul]; omega)]
    simp only [span]
    rw [if_neg (by omega), if_neg (by omega)]

theorem blocks_of_cover {len count : ℕ} (cover : N = count * (2 * len)) (a : Fin N → α) :
    blocks lo hi len 0 count a = layer lo hi len a := by
  funext k
  have inside := k.isLt
  simp only [blocks]
  rw [if_pos ⟨Nat.zero_le _, by omega⟩]

theorem layer_of_zero (lo0 : lo 0 0 = 0) (hi0 : hi 0 0 = 0) (len : ℕ) :
    layer lo hi len (0 : Fin N → α) = 0 := by
  funext k
  have zero : ∀ i, get (0 : Fin N → α) i = 0 := fun i => by unfold get; split <;> rfl
  simp only [layer, zero, Pi.zero_apply]
  split
  · exact lo0
  · exact hi0

theorem blocks_of_zero (lo0 : lo 0 0 = 0) (hi0 : hi 0 0 = 0) (len start count : ℕ) :
    blocks lo hi len start count (0 : Fin N → α) = 0 := by
  funext k
  simp only [blocks, layer_of_zero lo0 hi0]
  split <;> rfl

end Network

section Agree

variable {lo hi : α → α → α}

/-- Two arrays agree at every cell whose index is below `w` modulo `m`. -/
def Agree (m w : ℕ) (a b : Fin N → α) : Prop := ∀ k : Fin N, k.val % m < w → a k = b k

theorem Agree.get {m w : ℕ} {a b : Fin N → α} (agree : Agree m w a b) {i : ℕ} (low : i % m < w) :
    get a i = get b i := by
  unfold Butterfly.get
  split
  · exact agree _ low
  · rfl

theorem Agree.layer {m w len : ℕ} {a b : Fin N → α} (agree : Agree m w a b) (multiple : m ∣ len) :
    Agree m w (Butterfly.layer lo hi len a) (Butterfly.layer lo hi len b) := by
  intro k low
  obtain ⟨c, rfl⟩ := multiple
  simp only [Butterfly.layer]
  split
  · have partner : (k.val + m * c) % m = k.val % m := Nat.add_mul_mod_self_left _ _ _
    rw [agree k low, agree.get (by rw [partner]; exact low)]
  · rename_i upper
    have back : m * c ≤ k.val := le_trans (by omega) (Nat.mod_le k.val (2 * (m * c)))
    have partner : (k.val - m * c) % m = k.val % m := by
      calc (k.val - m * c) % m = (k.val - m * c + m * c) % m := (Nat.add_mul_mod_self_left _ _ _).symm
        _ = k.val % m := by rw [Nat.sub_add_cancel back]
    rw [agree k low, agree.get (by rw [partner]; exact low)]

theorem Agree.copy {w len : ℕ} {a b : Fin N → α} (agree : Agree (2 * len) w a b) (narrow : w ≤ len)
    (loCopy : ∀ x y, lo x y = x) (hiCopy : ∀ x y, hi x y = x) :
    Agree len w (Butterfly.layer lo hi len a) (Butterfly.layer lo hi len b) := by
  intro k low
  have reduce : k.val % (2 * len) % len = k.val % len := Nat.mod_mul_left_mod _ _ _
  have whole := Nat.div_add_mod k.val (2 * len)
  have below : k.val % (2 * len) < 2 * len := Nat.mod_lt _ (by omega)
  simp only [Butterfly.layer, loCopy, hiCopy]
  by_cases lower : k.val % (2 * len) < len
  · rw [if_pos lower, if_pos lower]
    rw [Nat.mod_eq_of_lt lower] at reduce
    exact agree k (by omega)
  · rw [if_neg lower, if_neg lower]
    rw [Nat.mod_eq_sub_mod (by omega), Nat.mod_eq_of_lt (by omega)] at reduce
    have partner : (k.val - len) % (2 * len) = k.val % (2 * len) - len := by
      have shifted : k.val - len = 2 * len * (k.val / (2 * len)) + (k.val % (2 * len) - len) := by
        omega
      rw [shifted, Nat.mul_add_mod, Nat.mod_eq_of_lt (by omega)]
    exact agree.get (by omega)

omit [Zero α] in
theorem Agree.eq {m w : ℕ} {a b : Fin N → α} (agree : Agree m w a b) (pos : 0 < m) (wide : m ≤ w) :
    a = b :=
  funext fun k => agree k (lt_of_lt_of_le (Nat.mod_lt _ pos) wide)

end Agree

end Butterfly
