import Mathlib
import Xinim.Interval.Extent

/-! The hole list of the memory manager (mm/alloc.cpp): the free regions in
clicks, kept by base, allocated first fit and merged with their neighbours
when freed. `phys_clicks` is `uint64_t`, so each sum is taken modulo `2 ^ 64`
as the code computes it; `WellFormed` lists have no sum that wraps. -/

namespace Xinim.Mm
open Extent

def wordSize : ℕ := 2 ^ 64

abbrev Hole := Extent

def noMem : ℕ := 0

/-- `alloc_mem`: the first hole with `len >= clicks` gives up its first
`clicks` clicks and is erased once empty. -/
def allocMem : List Hole → ℕ → ℕ × List Hole
  | [], _ => (noMem, [])
  | hole :: rest, clicks =>
    if hole.len ≥ clicks then
      let shrunk : Hole := ⟨(hole.base + clicks) % wordSize, hole.len - clicks⟩
      (hole.base, if shrunk.len = 0 then rest else shrunk :: rest)
    else
      let result := allocMem rest clicks
      (result.1, hole :: result.2)

/-- The first half of `merge`: the inserted hole takes in its successor when
it ends where the successor begins. -/
def mergeNext (hole : Hole) : List Hole → Hole × List Hole
  | [] => (hole, [])
  | next :: rest =>
    if (hole.base + hole.len) % wordSize = next.base then
      (⟨hole.base, (hole.len + next.len) % wordSize⟩, rest)
    else (hole, next :: rest)

def mergePrev (before : List Hole) (hole : Hole) (after : List Hole) : List Hole :=
  match before.getLast? with
  | none => hole :: after
  | some prev =>
    if (prev.base + prev.len) % wordSize = hole.base then
      before.dropLast ++ ⟨prev.base, (prev.len + hole.len) % wordSize⟩ :: after
    else before ++ hole :: after

def merge (before : List Hole) (hole : Hole) (after : List Hole) : List Hole :=
  mergePrev before (mergeNext hole after).1 (mergeNext hole after).2

/-- `free_mem`: insert the block before the first hole whose base is not
below its own, then merge. -/
def freeMem (holes : List Hole) (base clicks : ℕ) : List Hole :=
  merge (holes.takeWhile fun h => !decide (h.base ≥ base)) ⟨base, clicks⟩
    (holes.dropWhile fun h => !decide (h.base ≥ base))

def maxHole : List Hole → ℕ
  | [] => 0
  | hole :: rest => (rest.map (·.len)).foldl max hole.len

def memInit (clicks : ℕ) : List Hole := [⟨0, clicks⟩]

def Fits (holes : List Hole) (clicks : ℕ) : Prop := ∃ hole ∈ holes, clicks ≤ hole.len

instance (holes : List Hole) (clicks : ℕ) : Decidable (Fits holes clicks) :=
  inferInstanceAs (Decidable (∃ hole ∈ holes, clicks ≤ hole.len))

theorem allocMem_of_not_fits {clicks : ℕ} :
    ∀ {holes : List Hole}, ¬ Fits holes clicks → allocMem holes clicks = (noMem, holes)
  | [], _ => rfl
  | hole :: rest, missing => by
    have small : ¬ hole.len ≥ clicks := fun fits => missing ⟨hole, List.mem_cons_self, fits⟩
    have later : ¬ Fits rest clicks := fun ⟨h, mem, fits⟩ => missing ⟨h, List.mem_cons_of_mem _ mem, fits⟩
    simp only [allocMem, if_neg small, allocMem_of_not_fits later]

theorem le_foldl_max_iff {c : ℕ} (hc : 0 < c) :
    ∀ (l : List ℕ) (a : ℕ), c ≤ l.foldl max a ↔ c ≤ a ∨ ∃ b ∈ l, c ≤ b
  | [], a => by simp
  | b :: rest, a => by
    have either : c ≤ max a b ↔ c ≤ a ∨ c ≤ b := by omega
    rw [List.foldl_cons, le_foldl_max_iff hc rest, either]
    simp only [List.mem_cons, exists_eq_or_imp]
    tauto

/-- The shape the hole list keeps: separated, no empty hole, and every hole
inside the first `n` clicks. -/
structure WellFormed (n : ℕ) (holes : List Hole) : Prop where
  separated : Separated holes
  positive : ∀ h ∈ holes, 0 < h.len
  bounded : ∀ h ∈ holes, h.stop ≤ n

theorem le_base_of_mem_dropWhile {base : ℕ} :
    ∀ {holes : List Hole}, Separated holes →
      ∀ h ∈ holes.dropWhile (fun h => !decide (h.base ≥ base)), base ≤ h.base
  | [], _ => by simp
  | first :: rest, sep => by
    obtain ⟨outside, sepRest⟩ := Separated.cons_iff.mp sep
    rw [List.dropWhile_cons]
    split_ifs with below
    · exact le_base_of_mem_dropWhile sepRest
    · have start : base ≤ first.base := by simpa using below
      intro h mem
      rcases List.mem_cons.mp mem with rfl | mem
      · exact start
      · have later := outside h mem
        unfold stop at later
        omega

section Shape

variable {n : ℕ} (hn : n < wordSize)
include hn

theorem wrap_stop {h : Hole} (bounded : h.stop ≤ n) : (h.base + h.len) % wordSize = h.stop :=
  Nat.mod_eq_of_lt (by unfold stop at bounded; omega)

theorem allocMem_spec {clicks : ℕ} (hc : 0 < clicks) :
    ∀ {holes : List Hole}, WellFormed n holes → Fits holes clicks →
      WellFormed n (allocMem holes clicks).2 ∧
        (∀ h ∈ (allocMem holes clicks).2, ∃ h' ∈ holes, h'.base ≤ h.base ∧ h.stop = h'.stop) ∧
        (allocMem holes clicks).1 + clicks ≤ n ∧
        ∀ x, cover holes x =
          cover (allocMem holes clicks).2 x + if (⟨(allocMem holes clicks).1, clicks⟩ : Extent).Contains x then 1 else 0
  | [], _, ⟨_, mem, _⟩ => absurd mem List.not_mem_nil
  | hole :: rest, wf, fits => by
    obtain ⟨outside, sepRest⟩ := Separated.cons_iff.mp wf.separated
    have restWf : WellFormed n rest :=
      ⟨sepRest, fun h mem => wf.positive h (List.mem_cons_of_mem _ mem),
        fun h mem => wf.bounded h (List.mem_cons_of_mem _ mem)⟩
    have holeStop := wf.bounded hole List.mem_cons_self
    by_cases first : hole.len ≥ clicks
    · have noWrap : (hole.base + clicks) % wordSize = hole.base + clicks :=
        Nat.mod_eq_of_lt (by unfold stop at holeStop; omega)
      simp only [allocMem, if_pos first, noWrap]
      have shrunkStop : (⟨hole.base + clicks, hole.len - clicks⟩ : Hole).stop = hole.stop := by
        rw [stop_mk]
        unfold stop
        omega
      refine ⟨?_, ?_, by unfold stop at holeStop; omega, fun x => ?_⟩
      · split_ifs with used
        · exact restWf
        · refine ⟨Separated.cons_iff.mpr ⟨fun b mem => shrunkStop ▸ outside b mem, sepRest⟩, ?_, ?_⟩
          · exact List.forall_mem_cons.mpr ⟨Nat.pos_of_ne_zero used, restWf.positive⟩
          · exact List.forall_mem_cons.mpr ⟨shrunkStop ▸ holeStop, restWf.bounded⟩
      · intro h mem
        split_ifs at mem with used
        · exact ⟨h, List.mem_cons_of_mem _ mem, Nat.le_refl _, rfl⟩
        · rcases List.mem_cons.mp mem with rfl | mem
          · exact ⟨hole, List.mem_cons_self, Nat.le_add_right _ _, shrunkStop⟩
          · exact ⟨h, List.mem_cons_of_mem _ mem, Nat.le_refl _, rfl⟩
      · rw [cover_cons, contains_split clicks first]
        by_cases used : hole.len - clicks = 0
        · have empty : ¬ (⟨hole.base + clicks, hole.len - clicks⟩ : Extent).Contains x :=
            not_contains_of_len_eq_zero used
          rw [if_pos used, if_neg empty]
          omega
        · rw [if_neg used, cover_cons]
          omega
    · have later : Fits rest clicks := by
        obtain ⟨h, mem, big⟩ := fits
        rcases List.mem_cons.mp mem with rfl | mem
        · exact absurd big first
        · exact ⟨h, mem, big⟩
      obtain ⟨wf', shrinks, block, covers⟩ := allocMem_spec hc restWf later
      simp only [allocMem, if_neg first]
      refine ⟨⟨?_, ?_, ?_⟩, ?_, block, fun x => ?_⟩
      · refine Separated.cons_iff.mpr ⟨fun b mem => ?_, wf'.separated⟩
        obtain ⟨b', mem', below, -⟩ := shrinks b mem
        exact Nat.lt_of_lt_of_le (outside b' mem') below
      · exact List.forall_mem_cons.mpr ⟨wf.positive _ List.mem_cons_self, wf'.positive⟩
      · exact List.forall_mem_cons.mpr ⟨holeStop, wf'.bounded⟩
      · intro h mem
        rcases List.mem_cons.mp mem with rfl | mem
        · exact ⟨h, List.mem_cons_self, Nat.le_refl _, rfl⟩
        · obtain ⟨h', mem', below, same⟩ := shrinks h mem
          exact ⟨h', List.mem_cons_of_mem _ mem', below, same⟩
      · rw [cover_cons, cover_cons, covers x]
        omega

theorem mergeNext_of_meets {hole next : Hole} (rest : List Hole) (holeStop : hole.stop ≤ n)
    (nextStop : next.stop ≤ n) (meets : hole.stop = next.base) :
    mergeNext hole (next :: rest) = (⟨hole.base, hole.len + next.len⟩, rest) := by
  have noWrap : (hole.len + next.len) % wordSize = hole.len + next.len :=
    Nat.mod_eq_of_lt (by unfold stop at meets nextStop; omega)
  simp only [mergeNext, wrap_stop hn holeStop, if_pos meets, noWrap]

theorem mergeNext_of_gap {hole next : Hole} (rest : List Hole) (holeStop : hole.stop ≤ n)
    (gap : hole.stop ≠ next.base) : mergeNext hole (next :: rest) = (hole, next :: rest) := by
  simp only [mergeNext, wrap_stop hn holeStop, if_neg gap]

theorem mergePrev_of_touching {prev hole : Hole} (front after : List Hole) (prevStop : prev.stop ≤ n)
    (holeStop : hole.stop ≤ n) (touching : prev.stop = hole.base) :
    mergePrev (front ++ [prev]) hole after = front ++ ⟨prev.base, prev.len + hole.len⟩ :: after := by
  have noWrap : (prev.len + hole.len) % wordSize = prev.len + hole.len :=
    Nat.mod_eq_of_lt (by unfold stop at touching holeStop; omega)
  simp only [mergePrev, List.getLast?_concat, wrap_stop hn prevStop, if_pos touching, noWrap,
    List.dropLast_concat]

theorem mergePrev_of_gap {prev hole : Hole} (front after : List Hole) (prevStop : prev.stop ≤ n)
    (gap : prev.stop ≠ hole.base) :
    mergePrev (front ++ [prev]) hole after = front ++ [prev] ++ hole :: after := by
  simp only [mergePrev, List.getLast?_concat, wrap_stop hn prevStop, if_neg gap]

theorem mergeNext_spec {hole : Hole} {after : List Hole} (ordered : Ordered (hole :: after))
    (pos : 0 < hole.len) (holeStop : hole.stop ≤ n) (wf : WellFormed n after) :
    WellFormed n ((mergeNext hole after).1 :: (mergeNext hole after).2) ∧
      (mergeNext hole after).1.base = hole.base ∧
      ∀ x, cover ((mergeNext hole after).1 :: (mergeNext hole after).2) x = cover (hole :: after) x := by
  cases after with
  | nil =>
    exact ⟨⟨Separated.cons_iff.mpr ⟨fun _ mem => absurd mem List.not_mem_nil, List.Pairwise.nil⟩,
      fun h mem => by rw [List.mem_singleton.mp mem]; exact pos,
      fun h mem => by rw [List.mem_singleton.mp mem]; exact holeStop⟩, rfl, fun _ => rfl⟩
  | cons next rest =>
    obtain ⟨beforeNext, -⟩ := List.pairwise_cons.mp ordered
    obtain ⟨outside, sepRest⟩ := Separated.cons_iff.mp wf.separated
    have nextStop := wf.bounded next List.mem_cons_self
    by_cases meets : hole.stop = next.base
    · rw [mergeNext_of_meets hn rest holeStop nextStop meets]
      dsimp only
      have joinedStop : (⟨hole.base, hole.len + next.len⟩ : Hole).stop = next.stop := by
        rw [stop_mk]
        unfold stop at meets ⊢
        omega
      refine ⟨⟨Separated.cons_iff.mpr ⟨fun b mem => joinedStop ▸ outside b mem, sepRest⟩, ?_, ?_⟩,
        rfl, fun x => ?_⟩
      · exact List.forall_mem_cons.mpr ⟨Nat.add_pos_left pos _,
          fun h mem => wf.positive h (List.mem_cons_of_mem _ mem)⟩
      · exact List.forall_mem_cons.mpr ⟨joinedStop ▸ nextStop,
          fun h mem => wf.bounded h (List.mem_cons_of_mem _ mem)⟩
      · rw [cover_cons, cover_cons, cover_cons, contains_join meets]
        omega
    · rw [mergeNext_of_gap hn rest holeStop meets]
      dsimp only
      have gap : hole.stop < next.base := Nat.lt_of_le_of_ne (beforeNext next List.mem_cons_self) meets
      refine ⟨⟨Separated.cons_iff.mpr ⟨fun b mem => ?_, wf.separated⟩, ?_, ?_⟩, rfl, fun _ => rfl⟩
      · rcases List.mem_cons.mp mem with rfl | mem
        · exact gap
        · have nextBefore := outside b mem
          unfold stop at nextBefore gap ⊢
          omega
      · exact List.forall_mem_cons.mpr ⟨pos, wf.positive⟩
      · exact List.forall_mem_cons.mpr ⟨holeStop, wf.bounded⟩

theorem mergePrev_spec {before : List Hole} {hole : Hole} {after : List Hole}
    (wfBefore : WellFormed n before) (wfAfter : WellFormed n (hole :: after))
    (meets : ∀ a ∈ before, a.stop ≤ hole.base) :
    WellFormed n (mergePrev before hole after) ∧
      ∀ x, cover (mergePrev before hole after) x = cover before x + cover (hole :: after) x := by
  obtain ⟨outside, sepAfter⟩ := Separated.cons_iff.mp wfAfter.separated
  have holeStop := wfAfter.bounded hole List.mem_cons_self
  rcases List.eq_nil_or_concat before with rfl | ⟨front, prev, rfl⟩
  · exact ⟨wfAfter, fun x => by simp [mergePrev]⟩
  rw [List.concat_eq_append] at wfBefore meets ⊢
  obtain ⟨sepFront, -, frontPrev⟩ := Separated.append_iff.mp wfBefore.separated
  have prevStop := wfBefore.bounded prev (by simp)
  have prevMeets := meets prev (by simp)
  have frontBefore : ∀ a ∈ front, a.stop < prev.base := fun a mem => frontPrev a mem prev (by simp)
  by_cases touching : prev.stop = hole.base
  · rw [mergePrev_of_touching hn front after prevStop holeStop touching]
    have joinedStop : (⟨prev.base, prev.len + hole.len⟩ : Hole).stop = hole.stop := by
      rw [stop_mk]
      unfold stop at touching ⊢
      omega
    refine ⟨⟨?_, ?_, ?_⟩, fun x => ?_⟩
    · refine Separated.append_iff.mpr ⟨sepFront,
        Separated.cons_iff.mpr ⟨fun b mem => joinedStop ▸ outside b mem, sepAfter⟩, ?_⟩
      intro a mem b mem'
      rcases List.mem_cons.mp mem' with rfl | mem'
      · exact frontBefore a mem
      · have aBefore := frontBefore a mem
        have bAfter := outside b mem'
        unfold stop at aBefore bAfter touching ⊢
        omega
    · refine List.forall_mem_append.mpr ⟨fun h mem => wfBefore.positive h (List.mem_append_left _ mem), ?_⟩
      exact List.forall_mem_cons.mpr ⟨Nat.add_pos_left (wfBefore.positive prev (by simp)) _,
        fun h mem => wfAfter.positive h (List.mem_cons_of_mem _ mem)⟩
    · refine List.forall_mem_append.mpr ⟨fun h mem => wfBefore.bounded h (List.mem_append_left _ mem), ?_⟩
      exact List.forall_mem_cons.mpr ⟨joinedStop ▸ holeStop,
        fun h mem => wfAfter.bounded h (List.mem_cons_of_mem _ mem)⟩
    · simp only [cover_append, cover_cons, cover_nil, contains_join touching]
      omega
  · rw [mergePrev_of_gap hn front after prevStop touching]
    have gap : prev.stop < hole.base := Nat.lt_of_le_of_ne prevMeets touching
    refine ⟨⟨?_, ?_, ?_⟩, fun x => by simp only [cover_append]⟩
    · apply Separated.insert _ _ outside
      · refine Separated.append_iff.mpr ⟨wfBefore.separated, sepAfter, fun a mem b mem' => ?_⟩
        have aBefore := meets a mem
        have bAfter := outside b mem'
        unfold stop at aBefore bAfter ⊢
        omega
      · intro a mem
        rcases List.mem_append.mp mem with mem | mem
        · have aBefore := frontBefore a mem
          unfold stop at aBefore gap ⊢
          omega
        · rw [List.mem_singleton.mp mem]
          exact gap
    · exact List.forall_mem_append.mpr ⟨wfBefore.positive, wfAfter.positive⟩
    · exact List.forall_mem_append.mpr ⟨wfBefore.bounded, wfAfter.bounded⟩

theorem freeMem_spec {holes : List Hole} {base clicks : ℕ} (wf : WellFormed n holes)
    (hc : 0 < clicks) (blockStop : base + clicks ≤ n)
    (gap : ∀ h ∈ holes, h.stop ≤ base ∨ base + clicks ≤ h.base) :
    WellFormed n (freeMem holes base clicks) ∧
      ∀ x, cover (freeMem holes base clicks) x =
        cover holes x + if (⟨base, clicks⟩ : Extent).Contains x then 1 else 0 := by
  have whole := List.takeWhile_append_dropWhile (p := fun h : Hole => !decide (h.base ≥ base)) (l := holes)
  set before := holes.takeWhile fun h => !decide (h.base ≥ base)
  set after := holes.dropWhile fun h => !decide (h.base ≥ base)
  have inBefore : ∀ h ∈ before, h ∈ holes := fun h mem => whole ▸ List.mem_append_left _ mem
  have inAfter : ∀ h ∈ after, h ∈ holes := fun h mem => whole ▸ List.mem_append_right _ mem
  obtain ⟨sepBefore, sepAfter, -⟩ := Separated.append_iff.mp (whole ▸ wf.separated)
  have wfBefore : WellFormed n before :=
    ⟨sepBefore, fun h mem => wf.positive h (inBefore h mem), fun h mem => wf.bounded h (inBefore h mem)⟩
  have wfAfter : WellFormed n after :=
    ⟨sepAfter, fun h mem => wf.positive h (inAfter h mem), fun h mem => wf.bounded h (inAfter h mem)⟩
  have beforeEnds : ∀ h ∈ before, h.stop ≤ base := by
    intro h mem
    have below : h.base < base := by simpa using List.mem_takeWhile_imp mem
    rcases gap h (inBefore h mem) with ends | starts
    · exact ends
    · omega
  have afterStarts : ∀ h ∈ after, base + clicks ≤ h.base := by
    intro h mem
    have above := le_base_of_mem_dropWhile wf.separated h mem
    have pos := wf.positive h (inAfter h mem)
    rcases gap h (inAfter h mem) with ends | starts
    · unfold stop at ends
      omega
    · exact starts
  have ordered : Ordered ((⟨base, clicks⟩ : Hole) :: after) :=
    List.pairwise_cons.mpr ⟨fun h mem => by rw [stop_mk]; exact afterStarts h mem, sepAfter.ordered⟩
  obtain ⟨wfMerged, sameBase, coverMerged⟩ := mergeNext_spec hn ordered hc blockStop wfAfter
  obtain ⟨wfFreed, coverFreed⟩ := mergePrev_spec hn wfBefore wfMerged fun h mem => sameBase ▸ beforeEnds h mem
  refine ⟨wfFreed, fun x => ?_⟩
  have split := congrArg (cover · x) whole
  simp only [cover_append] at split
  unfold freeMem merge
  rw [coverFreed, coverMerged, cover_cons, ← split]
  omega

end Shape

end Xinim.Mm
