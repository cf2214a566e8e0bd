import Xinim.Vfs.Ramfs
import Xinim.Data.Segments

/-! The two path normalizers, `normalize_path` of vfs/path_util.hpp beside the
`split_path` of the ramfs, and `VFSSecurity::normalize_path` of
vfs/vfs_security.cpp, with the containment check and path validation built on
the second. Both are the same fold of one step over the `'/'`-separated pieces,
rendered as `/c1/c2…` or `/`; the containment check is a prefix test on the
component lists. -/

namespace Xinim.Ramfs

def pushComponent (components : List (List UInt8)) (piece : List UInt8) : List (List UInt8) :=
  if piece = [] ∨ piece = dot then components
  else if piece = dotDot then components.dropLast
  else components ++ [piece]

theorem splitPath_eq_foldl (path : List UInt8) : splitPath path = (path.splitOn slash).foldl pushComponent [] :=
  rfl

/-- `normalize_path`: `"/" + comp` for each component of `split_path`, or `/`. -/
def normalizePath (path : List UInt8) : List UInt8 :=
  if path = [] ∨ path = [slash] then [slash] else
  let components := splitPath path
  if components = [] then [slash] else
  let result := Segments.join slash components
  if result = [] then [slash] else result

def Good (component : List UInt8) : Prop :=
  component ≠ [] ∧ component ≠ dot ∧ component ≠ dotDot ∧ slash ∉ component

def render (components : List (List UInt8)) : List UInt8 :=
  if components = [] then [slash] else Segments.join slash components

end Xinim.Ramfs

namespace Xinim.Vfs.VFSSecurity

open Ramfs

/-- The pieces `std::getline(ss, component, '/')` reads: those of `splitOn`,
but no last empty piece, since a read that meets the end at once fails. -/
def getlinePieces (path : List UInt8) : List (List UInt8) :=
  let pieces := path.splitOn slash
  if pieces.getLast? = some [] then pieces.dropLast else pieces

def normalizePath (path : List UInt8) : List UInt8 :=
  if path = [] then [slash] else
  let components := (getlinePieces path).foldl pushComponent []
  if components = [] then [slash] else Segments.join slash components

/-- `check_path_containment`: the root's normalized text must start the
path's, and end there or at a `'/'`. -/
def checkPathContainment (path root : List UInt8) : Bool :=
  let normPath := normalizePath path
  let normRoot := normalizePath root
  if normPath.length < normRoot.length then false
  else if normRoot = [slash] then true
  else if normPath.take normRoot.length ≠ normRoot then false
  else if normRoot.length < normPath.length ∧ normPath.getD normRoot.length 0 ≠ slash then false
  else true

def containsNullByte (path : List UInt8) : Bool := path.contains 0

/-- `validate_path`: the sanitized path, or `none` where it returns false. -/
def validatePath (path : List UInt8) : Option (List UInt8) :=
  if containsNullByte path then none
  else if path = [] then none
  else
    let sanitized := normalizePath path
    if [0x2E, 0x2E] <:+: sanitized then none else some sanitized

end Xinim.Vfs.VFSSecurity

namespace Xinim.Ramfs

/-- The components both normalizers keep: the fold over the non-empty pieces. -/
def components (path : List UInt8) : List (List UInt8) :=
  ((path.splitOn slash).filter (· ≠ [])).foldl pushComponent []

@[simp] theorem pushComponent_nil (components : List (List UInt8)) : pushComponent components [] = components := by
  simp [pushComponent]

theorem foldl_filter (pieces : List (List UInt8)) (start : List (List UInt8)) :
    (pieces.filter (· ≠ [])).foldl pushComponent start = pieces.foldl pushComponent start := by
  induction pieces generalizing start with
  | nil => rfl
  | cons piece pieces ih =>
    rw [List.filter_cons]
    by_cases empty : piece = []
    · subst empty
      rw [if_neg (by simp), List.foldl_cons, pushComponent_nil, ih]
    · rw [if_pos (by simpa using empty), List.foldl_cons, List.foldl_cons, ih]

theorem splitPath_eq_components (path : List UInt8) : splitPath path = components path := by
  rw [splitPath_eq_foldl, components, foldl_filter]

theorem getlinePieces_foldl (path : List UInt8) :
    (Vfs.VFSSecurity.getlinePieces path).foldl pushComponent [] = components path := by
  rw [Vfs.VFSSecurity.getlinePieces, components, foldl_filter]
  split
  · rename_i last
    have nonempty : path.splitOn slash ≠ [] := by
      intro none
      rw [none] at last
      cases last
    have lastEq : (path.splitOn slash).getLast nonempty = [] := by
      rw [List.getLast?_eq_some_getLast nonempty] at last
      exact Option.some.inj last
    conv_rhs => rw [← List.dropLast_concat_getLast nonempty, lastEq]
    rw [List.foldl_append]
    rfl
  · rfl

theorem render_cons_ne (components : List (List UInt8)) (nonempty : components ≠ []) :
    render components = Segments.join slash components := if_neg nonempty

theorem normalizePath_eq (path : List UInt8) : normalizePath path = render (components path) := by
  unfold normalizePath render
  by_cases short : path = [] ∨ path = [slash]
  · rw [if_pos short]
    have none : components path = [] := by
      rcases short with rfl | rfl <;> rfl
    rw [if_pos none]
  · rw [if_neg short]
    simp only [splitPath_eq_components]
    split
    · rfl
    · rename_i kept
      obtain ⟨first, rest, split⟩ := List.exists_cons_of_ne_nil kept
      rw [split, Segments.join_cons, if_neg (List.cons_ne_nil _ _)]

theorem security_normalizePath_eq (path : List UInt8) :
    Vfs.VFSSecurity.normalizePath path = render (components path) := by
  unfold Vfs.VFSSecurity.normalizePath render
  rw [getlinePieces_foldl]
  split
  · rename_i empty
    subst empty
    rfl
  · rfl

theorem foldl_good {pieces : List (List UInt8)} (clean : ∀ piece ∈ pieces, slash ∉ piece) :
    ∀ start : List (List UInt8), (∀ c ∈ start, Good c) → ∀ c ∈ pieces.foldl pushComponent start, Good c := by
  induction pieces with
  | nil => exact fun start good => good
  | cons piece pieces ih =>
    intro start good
    apply ih (fun p mem => clean p (List.mem_cons_of_mem _ mem))
    intro c mem
    unfold pushComponent at mem
    split_ifs at mem with skipped popped
    · exact good c mem
    · exact good c (List.mem_of_mem_dropLast mem)
    · rcases List.mem_append.mp mem with old | new
      · exact good c old
      · rw [List.mem_singleton.mp new]
        exact ⟨fun h => skipped (Or.inl h), fun h => skipped (Or.inr h), popped, clean piece List.mem_cons_self⟩

theorem components_good (path : List UInt8) : ∀ c ∈ components path, Good c :=
  foldl_good (fun piece mem => Segments.not_mem_of_mem_splitOn slash path piece (List.mem_of_mem_filter mem)) []
    (fun _ mem => absurd mem List.not_mem_nil)

theorem foldl_of_good : ∀ {cs : List (List UInt8)}, (∀ c ∈ cs, Good c) →
    ∀ start, cs.foldl pushComponent start = start ++ cs
  | [], _, start => by simp
  | c :: cs, good, start => by
    obtain ⟨full, notDot, notDotDot, -⟩ := good c List.mem_cons_self
    rw [List.foldl_cons, pushComponent, if_neg (by tauto), if_neg notDotDot,
      foldl_of_good (fun d mem => good d (List.mem_cons_of_mem _ mem)), List.append_assoc, List.singleton_append]

theorem components_render {cs : List (List UInt8)} (good : ∀ c ∈ cs, Good c) : components (render cs) = cs := by
  unfold render
  split
  · rename_i empty
    subst empty
    rfl
  · have clean : ∀ c ∈ cs, slash ∉ c := fun c mem => (good c mem).2.2.2
    have nonempty : cs.filter (· ≠ []) = cs := List.filter_eq_self.mpr fun c mem => by simpa using (good c mem).1
    rw [components, Segments.splitOn_join slash clean, List.filter_cons_of_neg (by simp), nonempty,
      foldl_of_good good, List.nil_append]

theorem normalizePath_idem (path : List UInt8) : normalizePath (normalizePath path) = normalizePath path := by
  rw [normalizePath_eq, normalizePath_eq, components_render (components_good path)]

theorem one_lt_length_join {cs : List (List UInt8)} (nonempty : cs ≠ []) (good : ∀ c ∈ cs, Good c) :
    1 < (Segments.join slash cs).length := by
  obtain ⟨c, rest, rfl⟩ := List.exists_cons_of_ne_nil nonempty
  have full : c ≠ [] := (good c List.mem_cons_self).1
  have size : 0 < c.length := List.length_pos_of_ne_nil full
  simp only [Segments.join_cons, List.length_cons, List.length_append]
  omega

theorem render_ne_nil (cs : List (List UInt8)) : render cs ≠ [] := by
  unfold render
  split
  · exact List.cons_ne_nil _ _
  · rename_i kept
    obtain ⟨c, rest, rfl⟩ := List.exists_cons_of_ne_nil kept
    exact List.cons_ne_nil _ _

theorem checkPathContainment_eq (path root : List UInt8) :
    Vfs.VFSSecurity.checkPathContainment path root = true ↔
      (components root = [] ∨ Segments.BoundaryPrefix slash (render (components root)) (render (components path))) := by
  unfold Vfs.VFSSecurity.checkPathContainment
  simp only [security_normalizePath_eq]
  by_cases top : components root = []
  · have some : 0 < (render (components path)).length := List.length_pos_of_ne_nil (render_ne_nil _)
    rw [top, show render [] = [slash] from rfl]
    simp only [List.length_singleton, if_neg (show ¬ (render (components path)).length < 1 by omega),
      if_true, true_or]
  · have notTop : render (components root) ≠ [slash] := by
      intro same
      have longer := one_lt_length_join top (components_good root)
      rw [← render_cons_ne _ top, same] at longer
      simp at longer
    rw [Segments.boundaryPrefix_iff slash _ _ 0]
    simp only [top, false_or, if_neg notTop]
    split_ifs with shorter differs badNext
    · simp only [false_iff, not_and]
      intro fits
      omega
    · simp only [false_iff, not_and]
      intro _ same
      exact absurd same differs
    · simp only [false_iff, not_and]
      intro _ _ next
      exact badNext.2 (next badNext.1)
    · simp only [true_iff]
      refine ⟨by omega, not_not.mp differs, fun longer => ?_⟩
      by_contra bad
      exact badNext ⟨longer, bad⟩

theorem checkPathContainment_iff_prefix (path root : List UInt8) :
    Vfs.VFSSecurity.checkPathContainment path root = true ↔ components root <+: components path := by
  rw [checkPathContainment_eq]
  have clean : ∀ cs : List (List UInt8), (∀ c ∈ cs, Good c) → ∀ c ∈ cs, slash ∉ c :=
    fun cs good c mem => (good c mem).2.2.2
  by_cases top : components root = []
  · simp only [top, true_or, List.nil_prefix]
  · rw [render_cons_ne _ top]
    by_cases bare : components path = []
    · rw [bare, show render [] = [slash] from rfl]
      simp only [top, false_or, List.prefix_nil, iff_false]
      rintro ⟨t, text, -⟩
      have longer := one_lt_length_join top (components_good root)
      have size := congrArg List.length text
      simp only [List.length_singleton, List.length_append] at size
      omega
    · rw [render_cons_ne _ bare, Segments.boundaryPrefix_join_iff slash (clean _ (components_good root))
        (clean _ (components_good path))]
      simp only [top, false_or]

example : Vfs.VFSSecurity.checkPathContainment
    [0x2F, 0x73, 0x72, 0x76, 0x2F, 0x77, 0x77, 0x77, 0x32] [0x2F, 0x73, 0x72, 0x76, 0x2F, 0x77, 0x77, 0x77] = false := by
  decide

theorem splitPath_normalizePath (path : List UInt8) : splitPath (normalizePath path) = components path := by
  rw [splitPath_eq_components, normalizePath_eq, components_render (components_good path)]

/-- The two normalizers agree; their result is `/` or good components each
after a `'/'`, and a fixed point; containment is a prefix test on the
component lists of the normalized paths. -/
theorem normalize_path_agrees_and_contains_by_components (p r : List UInt8) :
    Vfs.VFSSecurity.normalizePath p = normalizePath p ∧
    (normalizePath p = [slash] ∨
      ∃ cs, cs ≠ [] ∧ (∀ c ∈ cs, Good c) ∧ normalizePath p = Segments.join slash cs) ∧
    normalizePath (normalizePath p) = normalizePath p ∧
    (Vfs.VFSSecurity.checkPathContainment p r = true ↔
      splitPath (normalizePath r) <+: splitPath (normalizePath p)) := by
  refine ⟨?same, ?shape, normalizePath_idem p, ?contained⟩
  case same => rw [security_normalizePath_eq, normalizePath_eq]
  case shape =>
    rw [normalizePath_eq]
    by_cases bare : components p = []
    · left
      rw [bare]
      rfl
    · right
      exact ⟨components p, bare, components_good p, render_cons_ne _ bare⟩
  case contained =>
    rw [splitPath_normalizePath, splitPath_normalizePath]
    exact checkPathContainment_iff_prefix p r

end Xinim.Ramfs
