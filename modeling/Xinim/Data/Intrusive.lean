import Mathlib.Data.List.Nodup
import Mathlib.Logic.Function.Basic

/-! Doubly linked lists threaded through their nodes: each node carries a
`next` and a `prev` link, one function per field, and the list keeps a head
and possibly a tail pointer. `Seg` says which list of nodes the links describe.
The operations are the insertions at either end and the unlink of one node,
each with its assignments in the order a C implementation makes them, and the
walk along `next` that a search loop makes. -/

namespace Intrusive

structure Ptrs (ι : Type) where
  next : ι → Option ι
  prev : ι → Option ι
  head : Option ι
  tail : Option ι

variable {ι : Type}

/-- The nodes of `l` linked both ways, the first one pointing back to `back`
and the last one forward to `fwd`. -/
def Seg (next prev : ι → Option ι) : Option ι → List ι → Option ι → Prop
  | _, [], _ => True
  | back, x :: rest, fwd => prev x = back ∧ next x = rest.head?.or fwd ∧ Seg next prev (some x) rest fwd

def walk (next : ι → Option ι) : ℕ → Option ι → List ι
  | 0, _ => []
  | _ + 1, none => []
  | fuel + 1, some x => x :: walk next fuel (next x)

def findFrom (found : ι → Bool) (next : ι → Option ι) : ℕ → Option ι → Option ι
  | 0, _ => none
  | _ + 1, none => none
  | fuel + 1, some x => if found x then some x else findFrom found next fuel (next x)

instance decidableSeg [DecidableEq ι] (next prev : ι → Option ι) :
    (back : Option ι) → (l : List ι) → (fwd : Option ι) → Decidable (Seg next prev back l fwd)
  | _, [], _ => isTrue trivial
  | back, x :: rest, fwd =>
    haveI := decidableSeg next prev (some x) rest fwd
    inferInstanceAs (Decidable (prev x = back ∧ next x = rest.head?.or fwd ∧ Seg next prev (some x) rest fwd))

namespace Ptrs

/-- `l` is the list from `d.head`, duplicate-free and linked both ways. -/
structure Holds (d : Ptrs ι) (l : List ι) : Prop where
  nodup : l.Nodup
  head_eq : d.head = l.head?
  seg : Seg d.next d.prev none l none

structure Queue (d : Ptrs ι) (l : List ι) : Prop extends d.Holds l where
  tail_eq : d.tail = l.getLast?

variable [DecidableEq ι]

instance (d : Ptrs ι) (l : List ι) : Decidable (d.Holds l) :=
  decidable_of_iff (l.Nodup ∧ d.head = l.head? ∧ Seg d.next d.prev none l none)
    ⟨fun ⟨n, h, s⟩ => ⟨n, h, s⟩, fun h => ⟨h.nodup, h.head_eq, h.seg⟩⟩

instance (d : Ptrs ι) (l : List ι) : Decidable (d.Queue l) :=
  decidable_of_iff (d.Holds l ∧ d.tail = l.getLast?)
    ⟨fun ⟨h, t⟩ => ⟨h, t⟩, fun h => ⟨h.toHolds, h.tail_eq⟩⟩

def pushBack (d : Ptrs ι) (x : ι) : Ptrs ι :=
  let next := Function.update d.next x none
  let prev := Function.update d.prev x d.tail
  match d.tail with
  | some t => ⟨Function.update next t (some x), prev, d.head, some x⟩
  | none => ⟨next, prev, some x, some x⟩

/-- Link `x` in before the head; the tail pointer is left alone. -/
def pushFront (d : Ptrs ι) (x : ι) : Ptrs ι :=
  let next := Function.update d.next x d.head
  let prev := Function.update d.prev x none
  match d.head with
  | some h => ⟨next, Function.update prev h (some x), some x, d.tail⟩
  | none => ⟨next, prev, some x, d.tail⟩

def prepend (d : Ptrs ι) (x : ι) : Ptrs ι :=
  let next := Function.update d.next x d.head
  let prev := Function.update d.prev x none
  match d.head with
  | some h => ⟨next, Function.update prev h (some x), some x, d.tail⟩
  | none => ⟨next, prev, some x, some x⟩

/-- Unlink `x`: its predecessor, or else the head pointer, takes its `next`;
its successor, or else the tail pointer, takes its `prev`; its own links are
cleared. -/
def unlink (d : Ptrs ι) (x : ι) : Ptrs ι where
  next := Function.update
    (match d.prev x with
      | some p => Function.update d.next p (d.next x)
      | none => d.next) x none
  prev := Function.update
    (match d.next x with
      | some n => Function.update d.prev n (d.prev x)
      | none => d.prev) x none
  head := match d.prev x with
    | some _ => d.head
    | none => d.next x
  tail := match d.next x with
    | some _ => d.tail
    | none => d.prev x

end Ptrs

section Seg

variable {next prev next' prev' : ι → Option ι} {back fwd : Option ι} {x : ι} {l l₁ l₂ : List ι}

@[simp] theorem seg_nil : Seg next prev back [] fwd := trivial

theorem seg_cons : Seg next prev back (x :: l) fwd ↔
    prev x = back ∧ next x = l.head?.or fwd ∧ Seg next prev (some x) l fwd := Iff.rfl

theorem getLast?_cons_or (x : ι) (l : List ι) (back : Option ι) :
    (x :: l).getLast?.or back = l.getLast?.or (some x) := by
  rw [List.getLast?_cons]
  cases l.getLast? <;> rfl

theorem seg_append : Seg next prev back (l₁ ++ l₂) fwd ↔
    Seg next prev back l₁ (l₂.head?.or fwd) ∧ Seg next prev (l₁.getLast?.or back) l₂ fwd := by
  induction l₁ generalizing back with
  | nil => simp
  | cons y l₁ ih =>
    rw [List.cons_append, seg_cons, seg_cons, ih, getLast?_cons_or, List.head?_append, Option.or_assoc]
    exact ⟨fun ⟨p, n, s, s'⟩ => ⟨⟨p, n, s⟩, s'⟩, fun ⟨⟨p, n, s⟩, s'⟩ => ⟨p, n, s, s'⟩⟩

theorem seg_concat : Seg next prev back (l ++ [x]) fwd ↔
    Seg next prev back l (some x) ∧ prev x = l.getLast?.or back ∧ next x = fwd := by
  rw [seg_append]
  simp [seg_cons]

theorem Seg.congr (h : Seg next prev back l fwd) (hn : ∀ y ∈ l, next' y = next y)
    (hp : ∀ y ∈ l, prev' y = prev y) : Seg next' prev' back l fwd := by
  induction l generalizing back with
  | nil => trivial
  | cons y l ih =>
    obtain ⟨p, n, s⟩ := h
    refine ⟨?_, ?_, ih s (fun z mem => hn z (List.mem_cons_of_mem y mem))
      (fun z mem => hp z (List.mem_cons_of_mem y mem))⟩
    · rw [hp y List.mem_cons_self, p]
    · rw [hn y List.mem_cons_self, n]

theorem walk_of_seg (h : Seg next prev back l none) {fuel : ℕ} (enough : l.length ≤ fuel) :
    walk next fuel l.head? = l := by
  induction l generalizing back fuel with
  | nil => cases fuel <;> rfl
  | cons y l ih =>
    obtain ⟨-, n, s⟩ := h
    obtain ⟨fuel, rfl⟩ : ∃ f, fuel = f + 1 := ⟨fuel - 1, by simp at enough; omega⟩
    rw [List.head?_cons, walk, n, Option.or_none, ih s (by simpa using enough)]

theorem walk_congr {next' : ι → Option ι} {fuel : ℕ} {start : Option ι}
    (agree : ∀ y ∈ walk next fuel start, next' y = next y) : walk next' fuel start = walk next fuel start := by
  induction fuel generalizing start with
  | zero => rfl
  | succ fuel ih =>
    cases start with
    | none => rfl
    | some x =>
      have step : next' x = next x := agree x List.mem_cons_self
      rw [walk, walk, step, ih fun y mem => agree y (List.mem_cons_of_mem x mem)]

theorem findFrom_eq_find?_walk (found : ι → Bool) (fuel : ℕ) (start : Option ι) :
    findFrom found next fuel start = (walk next fuel start).find? found := by
  induction fuel generalizing start with
  | zero => rfl
  | succ fuel ih =>
    cases start with
    | none => rfl
    | some x =>
      rw [findFrom, walk, List.find?_cons, ih]
      cases found x <;> rfl

theorem findFrom_some {found : ι → Bool} {fuel : ℕ} {start : Option ι} (h : findFrom found next fuel start = some x) :
    found x = true := by
  rw [findFrom_eq_find?_walk] at h
  exact List.find?_some h

end Seg

namespace Ptrs

variable {d : Ptrs ι} {x : ι} {l : List ι}

theorem Holds.walk_head (h : d.Holds l) {fuel : ℕ} (enough : l.length ≤ fuel) :
    walk d.next fuel d.head = l := by
  rw [h.head_eq]
  exact walk_of_seg h.seg enough

theorem Holds.head_eq_none (h : d.Holds l) : d.head = none ↔ l = [] := by
  rw [h.head_eq, List.head?_eq_none_iff]

theorem Holds.congr (h : d.Holds l) {d' : Ptrs ι} (head : d'.head = d.head)
    (next : ∀ y ∈ l, d'.next y = d.next y) (prev : ∀ y ∈ l, d'.prev y = d.prev y) : d'.Holds l :=
  ⟨h.nodup, head ▸ h.head_eq, h.seg.congr next prev⟩

theorem Queue.congr (h : d.Queue l) {d' : Ptrs ι} (head : d'.head = d.head) (tail : d'.tail = d.tail)
    (next : ∀ y ∈ l, d'.next y = d.next y) (prev : ∀ y ∈ l, d'.prev y = d.prev y) : d'.Queue l :=
  ⟨h.toHolds.congr head next prev, tail ▸ h.tail_eq⟩

section Split

variable {l₁ l₂ : List ι} (h : d.Holds (l₁ ++ x :: l₂))
include h

theorem Holds.not_mem_left : x ∉ l₁ := fun mem =>
  (List.nodup_append.mp h.nodup).2.2 x mem x List.mem_cons_self rfl

theorem Holds.not_mem_right : x ∉ l₂ := ((List.nodup_append.mp h.nodup).2.1 |> List.nodup_cons.mp).1

theorem Holds.disjoint {a b : ι} (ha : a ∈ l₁) (hb : b ∈ l₂) : a ≠ b :=
  (List.nodup_append.mp h.nodup).2.2 a ha b (List.mem_cons_of_mem x hb)

theorem Holds.prev_eq : d.prev x = l₁.getLast? := by
  have := (seg_append.mp h.seg).2
  simpa using this.1

theorem Holds.next_eq : d.next x = l₂.head? := by
  have := (seg_append.mp h.seg).2
  simpa using this.2.1

theorem Holds.next_ne_of_mem_left {y : ι} (mem : y ∈ l₁) : d.next x ≠ some y := by
  rw [h.next_eq]
  exact fun hy => h.disjoint mem (List.mem_of_mem_head? hy) rfl

theorem Holds.prev_ne_of_mem_right {y : ι} (mem : y ∈ l₂) : d.prev x ≠ some y := by
  rw [h.prev_eq]
  exact fun hy => h.disjoint (List.mem_of_mem_getLast? hy) mem rfl

end Split

variable [DecidableEq ι]

section Fields

variable (d : Ptrs ι) (x y : ι)

theorem pushBack_next : (d.pushBack x).next y = if d.tail = some y then some x else if y = x then none else d.next y := by
  unfold pushBack
  cases tail : d.tail with
  | none => simp [Function.update_apply]
  | some t =>
    by_cases yt : y = t
    · simp [yt]
    · simp [Function.update_apply, yt, Ne.symm yt]

theorem pushBack_prev : (d.pushBack x).prev y = if y = x then d.tail else d.prev y := by
  unfold pushBack
  cases d.tail <;> simp [Function.update_apply]

theorem pushBack_head : (d.pushBack x).head = if d.tail = none then some x else d.head := by
  unfold pushBack
  cases d.tail <;> simp

@[simp] theorem pushBack_tail : (d.pushBack x).tail = some x := by
  unfold pushBack
  cases d.tail <;> rfl

theorem pushFront_next : (d.pushFront x).next y = if y = x then d.head else d.next y := by
  unfold pushFront
  cases d.head <;> simp [Function.update_apply]

theorem pushFront_prev : (d.pushFront x).prev y =
    if d.head = some y then some x else if y = x then none else d.prev y := by
  unfold pushFront
  cases head : d.head with
  | none => simp [Function.update_apply]
  | some h =>
    by_cases yh : y = h
    · simp [yh]
    · simp [Function.update_apply, yh, Ne.symm yh]

@[simp] theorem pushFront_head : (d.pushFront x).head = some x := by
  unfold pushFront
  cases d.head <;> rfl

theorem prepend_next : (d.prepend x).next = (d.pushFront x).next := by
  unfold prepend pushFront
  cases d.head <;> rfl

theorem prepend_prev : (d.prepend x).prev = (d.pushFront x).prev := by
  unfold prepend pushFront
  cases d.head <;> rfl

@[simp] theorem prepend_head : (d.prepend x).head = some x := by
  unfold prepend
  cases d.head <;> rfl

theorem prepend_tail : (d.prepend x).tail = if d.head = none then some x else d.tail := by
  unfold prepend
  cases d.head <;> rfl

theorem unlink_next : (d.unlink x).next y = if y = x then none else if d.prev x = some y then d.next x else d.next y := by
  unfold unlink
  cases prev : d.prev x with
  | none => simp [Function.update_apply]
  | some p =>
    by_cases yp : y = p
    · by_cases yx : y = x <;> simp [Function.update_apply, yx, yp]
    · simp [Function.update_apply, yp, Ne.symm yp]

theorem unlink_prev : (d.unlink x).prev y = if y = x then none else if d.next x = some y then d.prev x else d.prev y := by
  unfold unlink
  cases next : d.next x with
  | none => simp [Function.update_apply]
  | some n =>
    by_cases yn : y = n
    · by_cases yx : y = x <;> simp [Function.update_apply, yx, yn]
    · simp [Function.update_apply, yn, Ne.symm yn]

theorem unlink_head : (d.unlink x).head = if d.prev x = none then d.next x else d.head := by
  unfold unlink
  cases d.prev x <;> simp

theorem unlink_tail : (d.unlink x).tail = if d.next x = none then d.prev x else d.tail := by
  unfold unlink
  cases d.next x <;> simp

end Fields

theorem Queue.pushBack (h : d.Queue l) (fresh : x ∉ l) : (d.pushBack x).Queue (l ++ [x]) := by
  have nodup : (l ++ [x]).Nodup := List.nodup_append.mpr ⟨h.nodup, List.nodup_singleton x,
    fun a mem b same => by rw [List.mem_singleton.mp same]; exact fun e => fresh (e ▸ mem)⟩
  rcases List.eq_nil_or_concat' l with rfl | ⟨l, t, rfl⟩
  · have tail : d.tail = none := by rw [h.tail_eq]; rfl
    refine ⟨⟨nodup, ?_, ?_⟩, ?_⟩
    · simp [pushBack_head, tail]
    · simp [seg_cons, pushBack_next, pushBack_prev, tail]
    · simp
  · have tail : d.tail = some t := by rw [h.tail_eq]; simp
    have notT : x ≠ t := fun e => fresh (by simp [e])
    have notL : x ∉ l := fun mem => fresh (List.mem_append_left _ mem)
    have tNotL : t ∉ l := fun mem => (List.nodup_append.mp h.nodup).2.2 t mem t (List.mem_singleton_self t) rfl
    obtain ⟨segL, prevT, -⟩ := seg_concat.mp h.seg
    refine ⟨⟨nodup, ?_, ?_⟩, ?_⟩
    · simp [pushBack_head, tail, h.head_eq]
    · rw [seg_concat, seg_concat]
      refine ⟨⟨segL.congr (fun y mem => ?_) (fun y mem => ?_), ?_, ?_⟩, ?_, ?_⟩
      · have yT : y ≠ t := fun e => tNotL (e ▸ mem)
        have yX : y ≠ x := fun e => notL (e ▸ mem)
        simp [pushBack_next, tail, Ne.symm yT, yX]
      · have yX : y ≠ x := fun e => notL (e ▸ mem)
        simp [pushBack_prev, yX]
      · simp [pushBack_prev, Ne.symm notT, prevT]
      · simp [pushBack_next, tail]
      · simp [pushBack_prev, tail]
      · simp [pushBack_next, tail, Ne.symm notT]
    · simp

theorem Holds.pushFront (h : d.Holds l) (fresh : x ∉ l) : (d.pushFront x).Holds (x :: l) := by
  have nodup : (x :: l).Nodup := List.nodup_cons.mpr ⟨fresh, h.nodup⟩
  cases l with
  | nil =>
    have head : d.head = none := h.head_eq
    exact ⟨nodup, by simp, by simp [seg_cons, pushFront_next, pushFront_prev, head]⟩
  | cons y l =>
    have head : d.head = some y := h.head_eq
    have xy : x ≠ y := fun e => fresh (e ▸ List.mem_cons_self)
    have notL : x ∉ l := fun mem => fresh (List.mem_cons_of_mem y mem)
    have yNotL : y ∉ l := (List.nodup_cons.mp h.nodup).1
    obtain ⟨-, nextY, segL⟩ := h.seg
    refine ⟨nodup, by simp, ?_⟩
    refine ⟨?_, ?_, ?_, ?_, segL.congr (fun z mem => ?_) (fun z mem => ?_)⟩
    · simp [pushFront_prev, head, Ne.symm xy]
    · simp [pushFront_next, head]
    · simp [pushFront_prev, head]
    · simp [pushFront_next, Ne.symm xy, nextY]
    · have zx : z ≠ x := fun e => notL (e ▸ mem)
      simp [pushFront_next, zx]
    · have zx : z ≠ x := fun e => notL (e ▸ mem)
      have zy : z ≠ y := fun e => yNotL (e ▸ mem)
      simp [pushFront_prev, head, zx, Ne.symm zy]

theorem Queue.prepend (h : d.Queue l) (fresh : x ∉ l) : (d.prepend x).Queue (x :: l) := by
  have front : (d.prepend x).Holds (x :: l) := (h.toHolds.pushFront fresh).congr (by simp)
    (fun y _ => by rw [prepend_next]) (fun y _ => by rw [prepend_prev])
  refine ⟨front, ?_⟩
  cases l with
  | nil => simp [prepend_tail, h.head_eq]
  | cons y l =>
    have head : d.head = some y := h.head_eq
    simp [prepend_tail, head, h.tail_eq, List.getLast?_cons]

section Unlink

variable {l₁ l₂ : List ι} (h : d.Holds (l₁ ++ x :: l₂))
include h

theorem Holds.seg_unlink_left : Seg (d.unlink x).next (d.unlink x).prev none l₁ l₂.head? := by
  rcases List.eq_nil_or_concat' l₁ with rfl | ⟨l₁, p, rfl⟩
  · trivial
  · have hp : d.prev x = some p := by rw [h.prev_eq]; simp
    have segL := (seg_append.mp h.seg).1
    rw [List.head?_cons, seg_concat] at segL
    obtain ⟨segL, prevP, -⟩ := segL
    have px : p ≠ x := fun e => h.not_mem_left (e ▸ by simp)
    have pNot : p ∉ l₁ := fun mem => (List.nodup_append.mp (List.nodup_append.mp h.nodup).1).2.2 p mem p
      (List.mem_singleton_self p) rfl
    rw [seg_concat]
    refine ⟨segL.congr (fun y mem => ?_) (fun y mem => ?_), ?_, ?_⟩
    · have yx : y ≠ x := fun e => h.not_mem_left (e ▸ by simp [mem])
      have yp : y ≠ p := fun e => pNot (e ▸ mem)
      simp [unlink_next, hp, yx, Ne.symm yp]
    · have yx : y ≠ x := fun e => h.not_mem_left (e ▸ by simp [mem])
      have notNext := h.next_ne_of_mem_left (List.mem_append_left [p] mem)
      simp [unlink_prev, yx, notNext]
    · have notNext := h.next_ne_of_mem_left (List.mem_append_right l₁ (List.mem_singleton_self p))
      simp [unlink_prev, px, notNext, prevP]
    · simp [unlink_next, hp, px, h.next_eq]

theorem Holds.seg_unlink_right : Seg (d.unlink x).next (d.unlink x).prev l₁.getLast? l₂ none := by
  cases l₂ with
  | nil => trivial
  | cons n l₂ =>
    have hn : d.next x = some n := by rw [h.next_eq]; rfl
    obtain ⟨-, nextN, segR⟩ := (seg_cons.mp (seg_append.mp h.seg).2).2.2
    have nx : n ≠ x := fun e => h.not_mem_right (e ▸ List.mem_cons_self)
    have nNot : n ∉ l₂ := (List.nodup_cons.mp ((List.nodup_append.mp h.nodup).2.1 |>
      List.nodup_cons.mp).2).1
    refine ⟨?_, ?_, segR.congr (fun y mem => ?_) (fun y mem => ?_)⟩
    · simp [unlink_prev, hn, nx, h.prev_eq]
    · simp [unlink_next, nx, h.prev_ne_of_mem_right List.mem_cons_self, nextN]
    · have yx : y ≠ x := fun e => h.not_mem_right (e ▸ List.mem_cons_of_mem n mem)
      simp [unlink_next, yx, h.prev_ne_of_mem_right (List.mem_cons_of_mem n mem)]
    · have yx : y ≠ x := fun e => h.not_mem_right (e ▸ List.mem_cons_of_mem n mem)
      have yn : y ≠ n := fun e => nNot (e ▸ mem)
      simp [unlink_prev, hn, yx, Ne.symm yn]

theorem Holds.unlink_split : (d.unlink x).Holds (l₁ ++ l₂) := by
  refine ⟨(List.nodup_append.mpr ?_), ?_, ?_⟩
  · obtain ⟨left, right, apart⟩ := List.nodup_append.mp h.nodup
    exact ⟨left, (List.nodup_cons.mp right).2, fun a ha b hb => apart a ha b (List.mem_cons_of_mem x hb)⟩
  · rcases List.eq_nil_or_concat' l₁ with rfl | ⟨l₁, p, rfl⟩
    · simp [unlink_head, h.prev_eq, h.next_eq]
    · have hp : d.prev x = some p := by rw [h.prev_eq]; simp
      simp [unlink_head, hp, h.head_eq]
  · rw [seg_append, Option.or_none, Option.or_none]
    exact ⟨h.seg_unlink_left, h.seg_unlink_right⟩

end Unlink

theorem Holds.unlink (h : d.Holds l) (mem : x ∈ l) : (d.unlink x).Holds (l.erase x) := by
  obtain ⟨l₁, l₂, rfl⟩ := List.mem_iff_append.mp mem
  rw [List.erase_append_right _ (h.not_mem_left), List.erase_cons_head]
  exact h.unlink_split

theorem Queue.unlink (h : d.Queue l) (mem : x ∈ l) : (d.unlink x).Queue (l.erase x) := by
  refine ⟨h.toHolds.unlink mem, ?_⟩
  obtain ⟨l₁, l₂, rfl⟩ := List.mem_iff_append.mp mem
  have holds := h.toHolds
  rw [List.erase_append_right _ holds.not_mem_left, List.erase_cons_head]
  cases l₂ with
  | nil => simp [unlink_tail, holds.next_eq, holds.prev_eq]
  | cons n l₂ =>
    have hn : d.next x = some n := by rw [holds.next_eq]; rfl
    simp [unlink_tail, hn, h.tail_eq, List.getLast?_append]

theorem Queue.unlink_pushBack (h : d.Queue l) (mem : x ∈ l) : ((d.unlink x).pushBack x).Queue (l.erase x ++ [x]) :=
  (h.unlink mem).pushBack h.nodup.not_mem_erase

theorem Queue.unlink_prepend (h : d.Queue l) (mem : x ∈ l) : ((d.unlink x).prepend x).Queue (x :: l.erase x) :=
  (h.unlink mem).prepend h.nodup.not_mem_erase

end Ptrs

end Intrusive
