import Mathlib.Data.List.Infix

/-! Texts made of segments, each after a separator (`/a/b` for `[a, b]`): how
`List.splitOn` takes them apart, and why a prefix of the text that ends at a
separator is a prefix of the segment list. -/

namespace Segments

variable {α : Type*} (sep : α)

def join (segs : List (List α)) : List α := segs.flatMap (sep :: ·)

def BoundaryPrefix (a b : List α) : Prop := ∃ t, b = a ++ t ∧ (t = [] ∨ t.head? = some sep)

@[simp] theorem join_nil : join sep ([] : List (List α)) = [] := rfl

@[simp] theorem join_cons (seg : List α) (segs : List (List α)) :
    join sep (seg :: segs) = sep :: (seg ++ join sep segs) := rfl

theorem join_append (xs ys : List (List α)) : join sep (xs ++ ys) = join sep xs ++ join sep ys := by
  simp [join]

theorem join_starts (segs : List (List α)) : join sep segs = [] ∨ (join sep segs).head? = some sep := by
  cases segs with
  | nil => exact Or.inl rfl
  | cons seg segs => exact Or.inr rfl

theorem join_eq_intercalate (segs : List (List α)) : join sep segs = [sep].intercalate ([] :: segs) := by
  induction segs with
  | nil => rfl
  | cons seg segs ih =>
    cases segs with
    | nil => simp
    | cons next rest =>
      rw [join_cons, ih]
      simp [List.intercalate_cons_cons]

section Split

variable [DecidableEq α]

theorem not_mem_of_mem_splitOn : ∀ (xs : List α), ∀ piece ∈ xs.splitOn sep, sep ∉ piece := by
  intro xs
  induction xs with
  | nil => simp [List.splitOn, List.splitOnP_nil]
  | cons x xs ih =>
    intro piece mem
    simp only [List.splitOn, List.splitOnP_cons_eq_if_modifyHead] at mem ih
    split at mem
    · rename_i atSep
      rcases List.mem_cons.mp mem with rfl | later
      · exact List.not_mem_nil
      · exact ih piece later
    · rename_i other
      have apart : x ≠ sep := fun same => other (by simp [same])
      cases pieces : List.splitOnP (fun c => c == sep) xs with
      | nil => simp [pieces] at mem
      | cons first rest =>
        rw [pieces] at mem ih
        simp only [List.modifyHead_cons, List.mem_cons] at mem
        rcases mem with rfl | later
        · simp only [List.mem_cons, not_or]
          exact ⟨Ne.symm apart, ih first (List.mem_cons_self)⟩
        · exact ih piece (List.mem_cons_of_mem _ later)

theorem splitOn_join {segs : List (List α)} (clean : ∀ seg ∈ segs, sep ∉ seg) :
    (join sep segs).splitOn sep = [] :: segs := by
  rw [join_eq_intercalate]
  apply List.splitOn_intercalate
  · intro seg mem
    rcases List.mem_cons.mp mem with rfl | later
    · exact List.not_mem_nil
    · exact clean seg later
  · exact List.cons_ne_nil _ _

end Split

theorem eq_of_append_eq : ∀ {x y u v : List α}, x ++ v = y ++ u → sep ∉ x → sep ∉ y →
    (v = [] ∨ v.head? = some sep) → (u = [] ∨ u.head? = some sep) → x = y ∧ v = u
  | [], [], _, _, same, _, _, _, _ => ⟨rfl, same⟩
  | [], d :: y, u, v, same, _, cleanY, tailV, _ => by
    subst same
    simp only [List.cons_append, reduceCtorEq, List.head?_cons, Option.some.injEq, false_or] at tailV
    exact absurd (tailV ▸ List.mem_cons_self) cleanY
  | c :: x, [], u, v, same, cleanX, _, _, tailU => by
    subst same
    simp only [List.cons_append, reduceCtorEq, List.head?_cons, Option.some.injEq, false_or] at tailU
    exact absurd (tailU ▸ List.mem_cons_self) cleanX
  | c :: x, d :: y, u, v, same, cleanX, cleanY, tailV, tailU => by
    simp only [List.cons_append, List.cons.injEq] at same
    obtain ⟨rfl, rest⟩ := same
    obtain ⟨segs, tails⟩ := eq_of_append_eq rest (fun h => cleanX (List.mem_cons_of_mem _ h))
      (fun h => cleanY (List.mem_cons_of_mem _ h)) tailV tailU
    exact ⟨by rw [segs], tails⟩

theorem boundaryPrefix_join_iff : ∀ {xs ys : List (List α)}, (∀ seg ∈ xs, sep ∉ seg) →
    (∀ seg ∈ ys, sep ∉ seg) → (BoundaryPrefix sep (join sep xs) (join sep ys) ↔ xs <+: ys)
  | [], ys, _, _ => by
    simp only [join_nil, List.nil_prefix, iff_true]
    exact ⟨join sep ys, rfl, join_starts sep ys⟩
  | x :: xs, [], _, _ => by
    simp only [join_cons, join_nil, List.prefix_nil, reduceCtorEq, iff_false]
    rintro ⟨t, empty, -⟩
    exact List.cons_ne_nil _ _ (List.append_eq_nil_iff.mp empty.symm).1
  | x :: xs, y :: ys, cleanX, cleanY => by
    have restX : ∀ seg ∈ xs, sep ∉ seg := fun seg mem => cleanX seg (List.mem_cons_of_mem _ mem)
    have restY : ∀ seg ∈ ys, sep ∉ seg := fun seg mem => cleanY seg (List.mem_cons_of_mem _ mem)
    rw [List.cons_prefix_cons, ← boundaryPrefix_join_iff restX restY]
    constructor
    · rintro ⟨t, text, tail⟩
      simp only [join_cons, List.cons_append, List.cons.injEq, true_and, List.append_assoc] at text
      have tailX : join sep xs ++ t = [] ∨ (join sep xs ++ t).head? = some sep := by
        rcases join_starts sep xs with empty | starts
        · rw [empty, List.nil_append]
          exact tail
        · right
          rw [List.head?_append, starts]
          rfl
      obtain ⟨rfl, rest⟩ := eq_of_append_eq sep text.symm (cleanX x List.mem_cons_self)
        (cleanY y List.mem_cons_self) tailX (join_starts sep ys)
      exact ⟨rfl, t, rest.symm, tail⟩
    · rintro ⟨rfl, t, text, tail⟩
      exact ⟨t, by simp [text], tail⟩

theorem boundaryPrefix_iff (a b : List α) (pad : α) :
    BoundaryPrefix sep a b ↔
      a.length ≤ b.length ∧ b.take a.length = a ∧ (a.length < b.length → b.getD a.length pad = sep) := by
  constructor
  · rintro ⟨t, rfl, tail⟩
    refine ⟨by simp, by simp, fun longer => ?_⟩
    rcases tail with rfl | starts
    · simp at longer
    · cases t with
      | nil => simp at longer
      | cons c t =>
        simp only [List.head?_cons, Option.some.injEq] at starts
        simp [starts]
  · rintro ⟨short, front, next⟩
    have whole := List.take_append_drop a.length b
    rw [front] at whole
    refine ⟨b.drop a.length, whole.symm, ?_⟩
    by_cases longer : a.length < b.length
    · right
      rw [List.head?_drop, List.getElem?_eq_getElem longer]
      have value := next longer
      rw [List.getD_eq_getElem?_getD, List.getElem?_eq_getElem longer, Option.getD_some] at value
      rw [value]
    · left
      exact List.drop_eq_nil_of_le (by omega)

end Segments
