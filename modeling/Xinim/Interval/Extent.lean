import Mathlib.Data.List.Basic

/-! Half-open extents `[base, base + len)` of natural numbers. `cover l x`
counts the extents of `l` that contain `x`, so that a list of extents
partitions a set exactly when `cover` is its indicator. A list is separated
when each extent ends strictly before the next one begins. -/

structure Extent where
  base : ℕ
  len : ℕ
  deriving DecidableEq, Repr

namespace Extent

def stop (e : Extent) : ℕ := e.base + e.len

def Contains (e : Extent) (x : ℕ) : Prop := e.base ≤ x ∧ x < e.stop

instance (e : Extent) (x : ℕ) : Decidable (e.Contains x) := inferInstanceAs (Decidable (_ ∧ _))

def cover (l : List Extent) (x : ℕ) : ℕ := l.countP fun e => decide (e.Contains x)

def Disjoint (a b : Extent) : Prop := ∀ x, a.Contains x → ¬ b.Contains x

def Separated (l : List Extent) : Prop := l.Pairwise fun a b => a.stop < b.base

def Ordered (l : List Extent) : Prop := l.Pairwise fun a b => a.stop ≤ b.base

variable {e a b : Extent} {l l' : List Extent} {x : ℕ}

@[simp] theorem stop_mk (base len : ℕ) : (⟨base, len⟩ : Extent).stop = base + len := rfl

@[simp] theorem cover_nil : cover [] x = 0 := rfl

@[simp] theorem cover_cons : cover (e :: l) x = cover l x + if e.Contains x then 1 else 0 := by
  simp [cover, List.countP_cons]

@[simp] theorem cover_append : cover (l ++ l') x = cover l x + cover l' x := List.countP_append

theorem contains_base (h : 0 < e.len) : e.Contains e.base := by
  unfold Contains stop
  omega

theorem not_contains_of_len_eq_zero (h : e.len = 0) : ¬ e.Contains x := by
  unfold Contains stop
  omega

theorem contains_split (c : ℕ) (h : c ≤ e.len) :
    (if e.Contains x then 1 else 0) =
      (if (⟨e.base, c⟩ : Extent).Contains x then 1 else 0) +
        if (⟨e.base + c, e.len - c⟩ : Extent).Contains x then 1 else 0 := by
  split_ifs with whole first second <;> simp only [Contains, stop] at * <;> omega

theorem contains_join (h : a.stop = b.base) :
    (if (⟨a.base, a.len + b.len⟩ : Extent).Contains x then 1 else 0) =
      (if a.Contains x then 1 else 0) + if b.Contains x then 1 else 0 := by
  split_ifs with joined left right <;> simp only [Contains, stop] at * <;> omega

theorem cover_pos (mem : e ∈ l) (h : e.Contains x) : 0 < cover l x :=
  List.countP_pos_iff.mpr ⟨e, mem, decide_eq_true h⟩

theorem pairwise_disjoint_of_cover_le (h : ∀ x, cover l x ≤ 1) : l.Pairwise Disjoint := by
  induction l with
  | nil => exact List.Pairwise.nil
  | cons e rest ih =>
    have tail : ∀ x, cover rest x ≤ 1 := by
      intro x
      have := h x
      rw [cover_cons] at this
      omega
    refine List.pairwise_cons.mpr ⟨fun b mem x inE inB => ?_, ih tail⟩
    have twice := h x
    have other := cover_pos mem inB
    rw [cover_cons, if_pos inE] at twice
    omega

theorem cover_erase (mem : e ∈ l) :
    cover l x = cover (l.erase e) x + if e.Contains x then 1 else 0 := by
  rw [← cover_cons]
  exact (List.perm_cons_erase mem).countP_eq _

theorem Disjoint.symm (h : Disjoint a b) : Disjoint b a := fun x hb ha => h x ha hb

theorem Disjoint.mono_left {c : Extent} (h : Disjoint a b) (inside : ∀ x, c.Contains x → a.Contains x) :
    Disjoint c b :=
  fun x hc hb => h x (inside x hc) hb

theorem Disjoint.apart (h : Disjoint a b) (ha : 0 < a.len) (hb : 0 < b.len) :
    a.stop ≤ b.base ∨ b.stop ≤ a.base := by
  by_contra overlap
  have inA : a.Contains (max a.base b.base) := by
    unfold Contains stop at *
    omega
  have inB : b.Contains (max a.base b.base) := by
    unfold Contains stop at *
    omega
  exact h _ inA inB

theorem Separated.cons_iff : Separated (e :: l) ↔ (∀ b ∈ l, e.stop < b.base) ∧ Separated l :=
  List.pairwise_cons

theorem Separated.append_iff :
    Separated (l ++ l') ↔ Separated l ∧ Separated l' ∧ ∀ a ∈ l, ∀ b ∈ l', a.stop < b.base :=
  List.pairwise_append

theorem Separated.insert (h : Separated (l ++ l')) (before : ∀ a ∈ l, a.stop < e.base)
    (after : ∀ b ∈ l', e.stop < b.base) : Separated (l ++ e :: l') := by
  obtain ⟨left, right, between⟩ := Separated.append_iff.mp h
  refine Separated.append_iff.mpr ⟨left, Separated.cons_iff.mpr ⟨after, right⟩, fun a mem b mem' => ?_⟩
  rcases List.mem_cons.mp mem' with rfl | mem'
  · exact before a mem
  · exact between a mem b mem'

theorem Separated.ordered (h : Separated l) : Ordered l :=
  h.imp Nat.le_of_lt

theorem Separated.base_lt (h : Separated l) : l.Pairwise fun a b => a.base < b.base :=
  h.imp fun {a _} before => Nat.lt_of_le_of_lt (Nat.le_add_right a.base a.len) before

end Extent
