import Xinim.Mm.Alloc

/-! Runs of `alloc_mem` and `free_mem` from `mem_init(n)`, with the blocks
handed out and not yet freed kept beside the hole list. Along a run whose
allocations ask for at least one click and whose frees return outstanding
blocks, the holes and the blocks partition `[0, n)` and the hole list stays
well formed, once `n > 0`: `mem_init(0)` itself makes a hole of length zero. -/

namespace Xinim.Mm
open Extent

inductive Op
  | allocMem (clicks : ℕ)
  | freeMem (base clicks : ℕ)
  deriving DecidableEq, Repr

def step (holes : List Hole) : Op → List Hole
  | .allocMem clicks => (allocMem holes clicks).2
  | .freeMem base clicks => freeMem holes base clicks

/-- The hole list together with the blocks handed out and not yet freed. -/
structure Tracked where
  holes : List Hole
  blocks : List Extent
  deriving DecidableEq, Repr

namespace Tracked

def init (n : ℕ) : Tracked := ⟨memInit n, []⟩

def step (s : Tracked) : Op → Tracked
  | .allocMem clicks =>
    { holes := Mm.step s.holes (.allocMem clicks)
      blocks := if Fits s.holes clicks then s.blocks ++ [⟨(allocMem s.holes clicks).1, clicks⟩] else s.blocks }
  | .freeMem base clicks =>
    { holes := Mm.step s.holes (.freeMem base clicks)
      blocks := s.blocks.erase ⟨base, clicks⟩ }

def run (s : Tracked) (ops : List Op) : Tracked := ops.foldl step s

/-- An allocation asks for at least one click; a free returns a block that is
outstanding. -/
def Admissible (s : Tracked) : Op → Prop
  | .allocMem clicks => 0 < clicks
  | .freeMem base clicks => (⟨base, clicks⟩ : Extent) ∈ s.blocks

instance (s : Tracked) : (op : Op) → Decidable (s.Admissible op)
  | .allocMem clicks => inferInstanceAs (Decidable (0 < clicks))
  | .freeMem base clicks => inferInstanceAs (Decidable ((⟨base, clicks⟩ : Extent) ∈ s.blocks))

def AdmissibleRun : Tracked → List Op → Prop
  | _, [] => True
  | s, op :: ops => s.Admissible op ∧ AdmissibleRun (s.step op) ops

instance decidableAdmissibleRun : (s : Tracked) → (ops : List Op) → Decidable (s.AdmissibleRun ops)
  | _, [] => isTrue trivial
  | s, op :: ops =>
    haveI := decidableAdmissibleRun (s.step op) ops
    inferInstanceAs (Decidable (s.Admissible op ∧ (s.step op).AdmissibleRun ops))

/-- The holes and the outstanding blocks cover each click below `n` once and
nothing else, and the hole list is well formed. -/
structure Partitioned (n : ℕ) (s : Tracked) : Prop where
  wellFormed : WellFormed n s.holes
  blocks_positive : ∀ b ∈ s.blocks, 0 < b.len
  cover_eq : ∀ x, cover s.holes x + cover s.blocks x = if x < n then 1 else 0

variable {n : ℕ} {s : Tracked}

theorem Partitioned.cover_le (h : s.Partitioned n) (x : ℕ) : cover s.holes x + cover s.blocks x ≤ 1 := by
  rw [h.cover_eq x]
  split_ifs <;> omega

theorem Partitioned.block_apart (h : s.Partitioned n) {b : Extent} (mem : b ∈ s.blocks) :
    b.stop ≤ n ∧ ∀ hole ∈ s.holes, hole.stop ≤ b.base ∨ b.stop ≤ hole.base := by
  have pos := h.blocks_positive b mem
  constructor
  · have last : b.Contains (b.stop - 1) := by
      unfold Contains stop at *
      omega
    have counted := h.cover_eq (b.stop - 1)
    have once := cover_pos mem last
    split_ifs at counted with below
    · unfold stop at below ⊢
      omega
    · omega
  · intro hole holeMem
    apply Disjoint.apart _ (h.wellFormed.positive hole holeMem) pos
    intro x inHole inBlock
    have twice := h.cover_le x
    have fromHole := cover_pos holeMem inHole
    have fromBlock := cover_pos mem inBlock
    omega

theorem partitioned_init (hn : 0 < n) : (init n).Partitioned n where
  wellFormed := ⟨List.pairwise_singleton _ _, fun h mem => by rw [List.mem_singleton.mp mem]; exact hn,
    fun h mem => by rw [List.mem_singleton.mp mem]; simp⟩
  blocks_positive _ mem := absurd mem List.not_mem_nil
  cover_eq x := by simp [init, memInit, Contains]

theorem partitioned_step (hw : n < wordSize) (h : s.Partitioned n) (op : Op) (hop : s.Admissible op) :
    (s.step op).Partitioned n := by
  cases op with
  | allocMem clicks =>
    by_cases fits : Fits s.holes clicks
    · obtain ⟨wf, -, -, covers⟩ := allocMem_spec hw hop h.wellFormed fits
      refine ⟨wf, fun b mem => ?_, fun x => ?_⟩
      · simp only [step, if_pos fits, List.mem_append, List.mem_singleton] at mem
        rcases mem with mem | rfl
        · exact h.blocks_positive b mem
        · exact hop
      · simp only [step, Mm.step, if_pos fits, cover_append, cover_cons, cover_nil]
        rw [← h.cover_eq x, covers x]
        omega
    · have unchanged := allocMem_of_not_fits fits
      refine ⟨?_, fun b mem => ?_, fun x => ?_⟩
      · simp only [step, Mm.step, unchanged]
        exact h.wellFormed
      · simp only [step, if_neg fits] at mem
        exact h.blocks_positive b mem
      · simp only [step, Mm.step, unchanged, if_neg fits]
        exact h.cover_eq x
  | freeMem base clicks =>
    have pos := h.blocks_positive _ hop
    obtain ⟨inside, apart⟩ := h.block_apart hop
    obtain ⟨wf, covers⟩ := freeMem_spec hw h.wellFormed pos inside apart
    refine ⟨wf, fun b mem => h.blocks_positive b (List.mem_of_mem_erase mem), fun x => ?_⟩
    simp only [step, Mm.step]
    rw [covers x, ← h.cover_eq x, cover_erase hop]
    dsimp only
    omega

theorem partitioned_run (hw : n < wordSize) (ops : List Op) :
    ∀ {s : Tracked}, s.Partitioned n → s.AdmissibleRun ops → (s.run ops).Partitioned n := by
  induction ops with
  | nil => exact fun h _ => h
  | cons op ops ih =>
    intro s h admissible
    exact ih (partitioned_step hw h op admissible.1) admissible.2

end Tracked

/-- From `mem_init(n)` with `0 < n < 2 ^ 64`, along every run whose allocations
ask for at least one click and whose frees return outstanding blocks: the holes
are in strictly increasing order of base, nonempty, apart from each other and
inside `[0, n)`, the outstanding blocks are pairwise disjoint and disjoint from
every hole, and holes and blocks together cover each click of `[0, n)` exactly
once and nothing beyond. -/
theorem holes_and_blocks_partition_memory {n : ℕ} (hn : 0 < n) (hw : n < wordSize) (ops : List Op)
    (admissible : (Tracked.init n).AdmissibleRun ops) :
    ((Tracked.init n).run ops).holes.Pairwise (fun a b => a.base < b.base) ∧
      (∀ h ∈ ((Tracked.init n).run ops).holes, 0 < h.len) ∧
      Separated ((Tracked.init n).run ops).holes ∧
      (∀ h ∈ ((Tracked.init n).run ops).holes, h.stop ≤ n) ∧
      ((Tracked.init n).run ops).blocks.Pairwise Disjoint ∧
      (∀ h ∈ ((Tracked.init n).run ops).holes, ∀ b ∈ ((Tracked.init n).run ops).blocks, Disjoint h b) ∧
      ∀ x, cover ((Tracked.init n).run ops).holes x + cover ((Tracked.init n).run ops).blocks x =
        if x < n then 1 else 0 := by
  have h := Tracked.partitioned_run hw ops (Tracked.partitioned_init hn) admissible
  have blocksOnce : ∀ x, cover ((Tracked.init n).run ops).blocks x ≤ 1 := by
    intro x
    have := h.cover_le x
    omega
  refine ⟨h.wellFormed.separated.base_lt, h.wellFormed.positive, h.wellFormed.separated,
    h.wellFormed.bounded, pairwise_disjoint_of_cover_le blocksOnce, ?_, h.cover_eq⟩
  intro hole holeMem b mem x inHole inBlock
  have twice := h.cover_le x
  have fromHole := cover_pos holeMem inHole
  have fromBlock := cover_pos mem inBlock
  omega

/-- Ten clicks: two allocations, a free that reopens the first, a third
allocation and a free that merges with both neighbours. -/
theorem ten_clicks_partitioned :
    (Tracked.init 10).AdmissibleRun
        [.allocMem 3, .allocMem 4, .freeMem 0 3, .allocMem 2, .freeMem 3 4] ∧
      ∀ x, cover ((Tracked.init 10).run
          [.allocMem 3, .allocMem 4, .freeMem 0 3, .allocMem 2, .freeMem 3 4]).holes x +
        cover ((Tracked.init 10).run
          [.allocMem 3, .allocMem 4, .freeMem 0 3, .allocMem 2, .freeMem 3 4]).blocks x =
        if x < 10 then 1 else 0 :=
  ⟨by decide, (holes_and_blocks_partition_memory (by decide) (by decide) _ (by decide)).2.2.2.2.2.2⟩

/-- `mem_init(0)` puts a hole of length zero on the list. -/
theorem mem_init_zero_has_empty_hole : memInit 0 = [⟨0, 0⟩] ∧ ∃ h ∈ memInit 0, h.len = 0 :=
  ⟨rfl, ⟨0, 0⟩, List.mem_singleton_self _, rfl⟩

/-- From `mem_init(10)`, `alloc_mem(1)` takes click 0 and returns 0, which is
`NO_MEM`: a caller such as `do_fork`, testing the result against `NO_MEM`,
takes the allocation for a failure. -/
theorem first_alloc_returns_no_mem :
    (allocMem (memInit 10) 1).1 = noMem ∧ (allocMem (memInit 10) 1).2 = [⟨1, 9⟩] := by
  decide

end Xinim.Mm
