import Mathlib.Data.List.TakeWhile
import Xinim.Data.Bytes

/-! Path names in the file system server (fs/path.cpp): `get_name`, which
copies the next component of the path in `user_path` into a `NAME_SIZE`
array, and `last_dir` and `eat_path`, which walk a path one component at a
time through `advance`.

A pointer into `user_path` is an index, and a read at or past `MAX_PATH` is an
`outOfBounds` fault. `advance` (the lookup of one component in a directory,
with its mount crossings) and the process's root and working directories are
parameters; the inode reference counts of `dup_inode` and `put_inode` are not
modelled. Each loop moves its pointer forward and a read at `MAX_PATH`
faults, so `MAX_PATH + 1` turns are enough. -/

namespace Xinim.Fs

def maxPath : ℕ := 128

def nameSize : ℕ := 14

def nul : Char := Char.ofNat 0

section GetName

variable (userPath : ℕ → Char)

def charAt (rnp : ℕ) : Except Fault Char :=
  if rnp < maxPath then .ok (userPath rnp) else .error .outOfBounds

def skipLeading : ℕ → ℕ → Except Fault (ℕ × Char)
  | 0, rnp => return (rnp, '/')
  | fuel + 1, rnp => do
    let c ← charAt userPath rnp
    if c = '/' then skipLeading fuel (rnp + 1) else return (rnp, c)

/-- The copy loop: the characters up to a '/' or NUL go to `string`, which
keeps the first `NAME_SIZE`. -/
def copyName : ℕ → ℕ → Char → List Char → Except Fault (ℕ × Char × List Char)
  | 0, rnp, c, string => return (rnp, c, string)
  | fuel + 1, rnp, c, string => do
    if rnp < maxPath ∧ c ≠ '/' ∧ c ≠ nul then
      let string := if string.length < nameSize then string ++ [c] else string
      copyName fuel (rnp + 1) (← charAt userPath (rnp + 1)) string
    else return (rnp, c, string)

def skipTrailing : ℕ → ℕ → Char → Except Fault ℕ
  | 0, rnp, _ => return rnp
  | fuel + 1, rnp, c => do
    if c = '/' ∧ rnp < maxPath then skipTrailing fuel (rnp + 1) (← charAt userPath (rnp + 1))
    else return rnp

/-- `get_name(old_name, string)`: the next component padded with NULs to
`NAME_SIZE`, and the pointer past it and the slashes after it; `none` is the
null pointer returned with `E_LONG_STRING`. -/
def getName (oldName : ℕ) : Except Fault (Option (List Char × ℕ)) := do
  let (rnp, c) ← skipLeading userPath (maxPath + 1) oldName
  let (rnp, c, string) ← copyName userPath (maxPath + 1) rnp c []
  let rnp ← skipTrailing userPath (maxPath + 1) rnp c
  let string := string ++ List.replicate (nameSize - string.length) nul
  if maxPath ≤ rnp then return none
  return some (string, rnp)

variable {Inode : Type} (advance : Inode → List Char → Option Inode)

/-- The loop of `last_dir` from `path` in directory `rip`. `get_name` returns
a pointer below `MAX_PATH`, so `*new_name` reads inside `user_path`. -/
def lastDirLoop : ℕ → Inode → ℕ → Except Fault (Option (Inode × List Char))
  | 0, _, _ => return none
  | fuel + 1, rip, path => do
    let some (string, newName) ← getName userPath path | return none
    if userPath newName = nul then return some (rip, string)
    let some newIp := advance rip string | return none
    lastDirLoop fuel newIp newName

def lastDir (rootDir workDir : Inode) : Except Fault (Option (Inode × List Char)) :=
  lastDirLoop userPath advance (maxPath + 1) (if userPath 0 = '/' then rootDir else workDir) 0

/-- `eat_path(user_path)`; a path whose final component is empty is its last
directory. -/
def eatPath (rootDir workDir : Inode) : Except Fault (Option Inode) := do
  let some (ldip, string) ← lastDir userPath advance rootDir workDir | return none
  if string.headD nul = nul then return some ldip
  return advance ldip string

end GetName

/-! What a path names: the runs of characters between its slashes, each
looked up in the directory the runs before it lead to. -/

section Spec

variable {Inode : Type} (advance : Inode → List Char → Option Inode)

def pathChars (userPath : ℕ → Char) : List Char := ((List.range maxPath).map userPath).takeWhile (· != nul)

def components (path : List Char) : List (List Char) := (path.splitOn '/').filter (· != [])

def padName (name : List Char) : List Char := name.take nameSize ++ List.replicate (nameSize - name.length) nul

/-- The components of a path resolved from `rip`: each one but the last
looked up with `advance`, the last one (an empty one for a path with none)
returned with the directory it is in. -/
def resolve (rip : Inode) : List (List Char) → Option (Inode × List Char)
  | [] => some (rip, padName [])
  | [name] => some (rip, padName name)
  | name :: next :: rest => (advance rip (padName name)).bind fun ip => resolve ip (next :: rest)

end Spec

section Walk

variable {userPath : ℕ → Char}

structure Holds (userPath : ℕ → Char) (i : ℕ) (t : List Char) : Prop where
  chars : ∀ k (h : k < t.length), userPath (i + k) = t[k]
  ends : userPath (i + t.length) = nul
  inside : i + t.length < maxPath
  noNul : nul ∉ t

theorem Holds.at_start {i : ℕ} {t : List Char} (h : Holds userPath i t) : userPath i = t.headD nul := by
  cases t with
  | nil => simpa using h.ends
  | cons a t =>
    have first := h.chars 0 (by simp)
    rw [Nat.add_zero, List.getElem_cons_zero] at first
    exact first

theorem Holds.tail {i : ℕ} {a : Char} {t : List Char} (h : Holds userPath i (a :: t)) : Holds userPath (i + 1) t where
  chars k hk := by
    rw [Nat.add_assoc, Nat.add_comm 1 k]
    exact h.chars (k + 1) (by simpa using hk)
  ends := by
    have last := h.ends
    rw [List.length_cons, show i + (t.length + 1) = i + 1 + t.length by omega] at last
    exact last
  inside := by
    have := h.inside
    rw [List.length_cons] at this
    omega
  noNul := fun mem => h.noNul (List.mem_cons_of_mem a mem)

theorem charAt_of_holds {i : ℕ} {t : List Char} (h : Holds userPath i t) : charAt userPath i = .ok (t.headD nul) := by
  rw [charAt, if_pos (by have := h.inside; omega), h.at_start]

theorem skipLeading_spec {fuel i : ℕ} {t : List Char} (h : Holds userPath i t) (enough : t.length < fuel) :
    ∃ j, skipLeading userPath fuel i = .ok (j, (t.dropWhile (· == '/')).headD nul) ∧
      Holds userPath j (t.dropWhile (· == '/')) := by
  induction t generalizing i fuel with
  | nil =>
    cases fuel with
    | zero => exact absurd enough (Nat.not_lt_zero _)
    | succ fuel =>
      refine ⟨i, ?_, h⟩
      have notSlash : nul ≠ '/' := by decide
      simp [skipLeading, charAt_of_holds h, bind, Except.bind, pure, Except.pure, notSlash]
  | cons a t ih =>
    cases fuel with
    | zero => exact absurd enough (Nat.not_lt_zero _)
    | succ fuel =>
      by_cases slash : a = '/'
      · obtain ⟨j, walk, rest⟩ := @ih fuel (i + 1) h.tail (by rw [List.length_cons] at enough; omega)
        refine ⟨j, ?_, by simpa [slash] using rest⟩
        simp only [skipLeading, charAt_of_holds h, List.headD_cons, slash, bind, Except.bind, if_true]
        exact walk
      · refine ⟨i, ?_, by simpa [slash] using h⟩
        simp [skipLeading, charAt_of_holds h, bind, Except.bind, pure, Except.pure, slash]

theorem take_push {acc rest : List Char} (c : Char) (small : acc.length ≤ nameSize) :
    ((if acc.length < nameSize then acc ++ [c] else acc) ++ rest).take nameSize = (acc ++ c :: rest).take nameSize := by
  split
  · simp
  · have full : nameSize ≤ acc.length := by omega
    rw [List.take_append_of_le_length full, List.take_append_of_le_length full]

theorem copyName_spec {fuel i : ℕ} {t acc : List Char} (h : Holds userPath i t) (enough : t.length < fuel)
    (small : acc.length ≤ nameSize) :
    ∃ j, copyName userPath fuel i (t.headD nul) acc =
        .ok (j, (t.dropWhile (· != '/')).headD nul, (acc ++ t.takeWhile (· != '/')).take nameSize) ∧
      Holds userPath j (t.dropWhile (· != '/')) := by
  induction t generalizing i fuel acc with
  | nil =>
    cases fuel with
    | zero => exact absurd enough (Nat.not_lt_zero _)
    | succ fuel =>
      refine ⟨i, ?_, h⟩
      simp [copyName, pure, Except.pure, List.take_of_length_le small]
  | cons a t ih =>
    cases fuel with
    | zero => exact absurd enough (Nat.not_lt_zero _)
    | succ fuel =>
      by_cases slash : a = '/'
      · refine ⟨i, ?_, by simpa [slash] using h⟩
        simp [copyName, pure, Except.pure, slash, List.take_of_length_le small]
      · have named : a ≠ nul := fun same => h.noNul (same ▸ List.mem_cons_self)
        have inside : i < maxPath := by have := h.inside; rw [List.length_cons] at this; omega
        have grown : (if acc.length < nameSize then acc ++ [a] else acc).length ≤ nameSize := by
          split
          · rw [List.length_append, List.length_singleton]
            omega
          · exact small
        obtain ⟨j, walk, rest⟩ := @ih fuel (i + 1) _ h.tail (by rw [List.length_cons] at enough; omega) grown
        refine ⟨j, ?_, by simpa [slash] using rest⟩
        simp only [copyName, List.headD_cons, inside, slash, named, ne_eq, not_false_eq_true, and_self, if_true]
        rw [charAt_of_holds h.tail]
        simp only [bind, Except.bind]
        rw [walk]
        simp [slash, take_push a small]

theorem skipTrailing_spec {fuel i : ℕ} {t : List Char} (h : Holds userPath i t) (enough : t.length < fuel) :
    ∃ j, skipTrailing userPath fuel i (t.headD nul) = .ok j ∧ Holds userPath j (t.dropWhile (· == '/')) := by
  induction t generalizing i fuel with
  | nil =>
    cases fuel with
    | zero => exact absurd enough (Nat.not_lt_zero _)
    | succ fuel =>
      have notSlash : nul ≠ '/' := by decide
      exact ⟨i, by simp [skipTrailing, notSlash, pure, Except.pure], h⟩
  | cons a t ih =>
    cases fuel with
    | zero => exact absurd enough (Nat.not_lt_zero _)
    | succ fuel =>
      by_cases slash : a = '/'
      · have inside : i < maxPath := by have := h.inside; rw [List.length_cons] at this; omega
        obtain ⟨j, walk, rest⟩ := @ih fuel (i + 1) h.tail (by rw [List.length_cons] at enough; omega)
        refine ⟨j, ?_, by simpa [slash] using rest⟩
        simp only [skipTrailing, List.headD_cons, slash, inside, and_self, if_true]
        rw [charAt_of_holds h.tail]
        exact walk
      · exact ⟨i, by simp [skipTrailing, slash, pure, Except.pure], by simpa [slash] using h⟩

/-- What `get_name` splits off the path from its pointer on: the component
it copies, and what follows the slashes after that component. -/
def firstRun (t : List Char) : List Char := (t.dropWhile (· == '/')).takeWhile (· != '/')

def afterRun (t : List Char) : List Char := ((t.dropWhile (· == '/')).dropWhile (· != '/')).dropWhile (· == '/')

theorem length_dropWhile_le (p : Char → Bool) (l : List Char) : (l.dropWhile p).length ≤ l.length :=
  (List.dropWhile_suffix p).length_le

theorem getName_spec {i : ℕ} {t : List Char} (h : Holds userPath i t) :
    ∃ j, getName userPath i = .ok (some (padName (firstRun t), j)) ∧ Holds userPath j (afterRun t) := by
  have short : t.length < maxPath + 1 := by have := h.inside; omega
  obtain ⟨j₁, leading, h₁⟩ := skipLeading_spec h short
  obtain ⟨j₂, copied, h₂⟩ :=
    copyName_spec h₁ (Nat.lt_of_le_of_lt (length_dropWhile_le _ _) short) (by simp : ([] : List Char).length ≤ nameSize)
  obtain ⟨j₃, trailing, h₃⟩ :=
    skipTrailing_spec h₂
      (Nat.lt_of_le_of_lt (length_dropWhile_le _ _) (Nat.lt_of_le_of_lt (length_dropWhile_le _ _) short))
  refine ⟨j₃, ?_, h₃⟩
  have inside : ¬maxPath ≤ j₃ := by have := h₃.inside; omega
  unfold getName
  rw [leading]
  simp only [bind, Except.bind]
  rw [copied]
  simp only
  rw [trailing]
  have cut : ∀ n, nameSize - min nameSize n = nameSize - n := fun n => by omega
  simp only [if_neg inside, pure, Except.pure, padName, firstRun, List.nil_append, List.length_take, cut]

end Walk

section Components

theorem components_cons_slash (t : List Char) : components ('/' :: t) = components t := by
  simp [components, List.splitOn, List.splitOnP_cons_eq_if_modifyHead]

theorem components_dropWhile (t : List Char) : components (t.dropWhile (· == '/')) = components t := by
  induction t with
  | nil => rfl
  | cons a t ih =>
    by_cases slash : a = '/'
    · subst slash
      rw [components_cons_slash, List.dropWhile_cons, if_pos (by decide), ih]
    · rw [List.dropWhile_cons, if_neg (by simpa using slash)]

theorem components_of_run {u : List Char} (start : u.head? ≠ some '/') :
    components u = if u.takeWhile (· != '/') = [] then []
      else u.takeWhile (· != '/') :: components ((u.dropWhile (· != '/')).dropWhile (· == '/')) := by
  have whole := List.takeWhile_append_dropWhile (p := (· != '/')) (l := u)
  have noSlash : ∀ x ∈ u.takeWhile (· != '/'), (x == '/') = false := fun x mem => by
    simpa using List.mem_takeWhile_imp mem
  cases rest : u.dropWhile (· != '/') with
  | nil =>
    rw [rest, List.append_nil] at whole
    have single : u.splitOn '/' = [u] := by
      rw [List.splitOn, List.splitOnP_eq_singleton (whole ▸ noSlash)]
    by_cases empty : u = [] <;> simp [components, single, whole, empty]
  | cons c rest' =>
    rw [rest] at whole
    have sep : (c == '/') = true := by
      have stop := List.head_dropWhile_not (· != '/') (l := u) (by rw [rest]; simp)
      simp only [rest, List.head_cons] at stop
      simpa using stop
    have run : u.takeWhile (· != '/') ≠ [] := fun empty => by
      rw [empty, List.nil_append] at whole
      rw [← whole] at start
      exact start (by simpa using sep)
    have split : u.splitOn '/' = u.takeWhile (· != '/') :: rest'.splitOn '/' := by
      conv_lhs => rw [← whole]
      exact List.splitOnP_append_cons_of_forall_mem noSlash c sep rest'
    have slash : c = '/' := by simpa using sep
    rw [if_neg run, components_dropWhile, slash, components_cons_slash]
    simp [components, split, run]

theorem components_nil : components [] = [] := rfl

theorem head_dropWhile_slash (t : List Char) : (t.dropWhile (· == '/')).head? ≠ some '/' := by
  intro first
  have nonempty : t.dropWhile (· == '/') ≠ [] := fun empty => by simp [empty] at first
  have stop := List.head_dropWhile_not (· == '/') nonempty
  rw [List.head?_eq_some_head nonempty, Option.some_inj] at first
  rw [first] at stop
  exact absurd stop (by decide)

theorem components_eq (t : List Char) :
    components t = if firstRun t = [] then [] else firstRun t :: components (afterRun t) := by
  rw [← components_dropWhile t, components_of_run (head_dropWhile_slash t)]
  rfl

theorem afterRun_of_firstRun {t : List Char} (empty : firstRun t = []) : afterRun t = [] := by
  cases rest : t.dropWhile (· == '/') with
  | nil => simp [afterRun, rest]
  | cons a rest' =>
    have notSlash := head_dropWhile_slash t
    rw [firstRun, rest, List.takeWhile_cons] at empty
    rw [rest] at notSlash
    have slash : a = '/' := by
      by_contra other
      rw [if_pos (by simpa using other)] at empty
      cases empty
    exact absurd (by rw [slash]; rfl) notSlash

theorem components_afterRun {t : List Char} (nonempty : afterRun t ≠ []) : components (afterRun t) ≠ [] := by
  have start := head_dropWhile_slash ((t.dropWhile (· == '/')).dropWhile (· != '/'))
  rw [← afterRun] at start
  rw [components_of_run start]
  obtain ⟨a, rest, first⟩ := List.exists_cons_of_ne_nil nonempty
  rw [first] at start ⊢
  have notSlash : a ≠ '/' := fun same => start (by rw [same]; rfl)
  simp [notSlash]

theorem length_afterRun_lt {t : List Char} (run : firstRun t ≠ []) : (afterRun t).length < t.length := by
  have whole := congrArg List.length
    (List.takeWhile_append_dropWhile (p := (· != '/')) (l := t.dropWhile (· == '/')))
  rw [List.length_append] at whole
  have positive : 0 < (firstRun t).length := List.length_pos_of_ne_nil run
  have first := length_dropWhile_le (· == '/') t
  have last := length_dropWhile_le (· == '/') ((t.dropWhile (· == '/')).dropWhile (· != '/'))
  rw [firstRun] at positive
  rw [afterRun]
  omega

end Components

section LastDir

variable {userPath : ℕ → Char} {Inode : Type} (advance : Inode → List Char → Option Inode)

theorem lastDirLoop_spec {fuel i : ℕ} {t : List Char} {rip : Inode} (h : Holds userPath i t)
    (enough : t.length < fuel) :
    lastDirLoop userPath advance fuel rip i = .ok (resolve advance rip (components t)) := by
  induction fuel generalizing rip i t with
  | zero => omega
  | succ fuel ih =>
    obtain ⟨j, named, next⟩ := getName_spec h
    simp only [lastDirLoop, named, bind, Except.bind]
    by_cases done : afterRun t = []
    · have atNul : userPath j = nul := by simpa [done] using next.ends
      rw [if_pos atNul, components_eq t, done, components_nil]
      by_cases empty : firstRun t = []
      · rw [if_pos empty, empty]
        rfl
      · rw [if_neg empty]
        rfl
    · have run : firstRun t ≠ [] := fun empty => done (afterRun_of_firstRun empty)
      obtain ⟨c, rest, first⟩ := List.exists_cons_of_ne_nil done
      have notNul : userPath j ≠ nul := by
        have start := next.at_start
        rw [first] at start next
        rw [start]
        exact fun same => next.noNul (same ▸ List.mem_cons_self)
      obtain ⟨name, names, parts⟩ := List.exists_cons_of_ne_nil (components_afterRun done)
      rw [if_neg notNul, components_eq t, if_neg run, parts]
      simp only [resolve]
      cases advance rip (padName (firstRun t)) with
      | none => rfl
      | some ip =>
        rw [← parts]
        exact ih next (by have := length_afterRun_lt run; omega)

end LastDir

theorem holds_pathChars {userPath : ℕ → Char} (terminated : ∃ n < maxPath, userPath n = nul) :
    Holds userPath 0 (pathChars userPath) := by
  obtain ⟨n, inPath, atNul⟩ := terminated
  have whole := List.takeWhile_append_dropWhile (p := (· != nul)) (l := (List.range maxPath).map userPath)
  have stopped : ((List.range maxPath).map userPath).dropWhile (· != nul) ≠ [] := fun empty => by
    have all := List.dropWhile_eq_nil_iff.mp empty (userPath n) (List.mem_map.mpr ⟨n, List.mem_range.mpr inPath, rfl⟩)
    simp [atNul] at all
  obtain ⟨c, rest, first⟩ := List.exists_cons_of_ne_nil stopped
  have lengths := congrArg List.length whole
  rw [first, List.length_append, List.length_cons, List.length_map, List.length_range] at lengths
  have inside : (pathChars userPath).length < maxPath := by rw [pathChars]; omega
  have atStop : userPath (pathChars userPath).length = nul := by
    have stop := List.head_dropWhile_not (· != nul) stopped
    simp only [first, List.head_cons, bne_eq_false_iff_eq] at stop
    have index := congrArg (fun l => l[(pathChars userPath).length]?) whole
    simp only [pathChars] at index inside ⊢
    rw [first, List.getElem?_append_right (le_refl _), Nat.sub_self, List.getElem?_map,
      List.getElem?_range inside] at index
    simp only [List.getElem?_cons_zero, Option.map_some, Option.some_inj] at index
    rw [← index, stop]
  refine ⟨fun k hk => ?_, by simpa using atStop, by simpa using inside, fun mem => ?_⟩
  · have front := (List.takeWhile_prefix (· != nul) (l := (List.range maxPath).map userPath)).getElem hk
    rw [Nat.zero_add]
    refine Eq.trans ?_ front.symm
    simp
  · have kept := List.mem_takeWhile_imp mem
    simp at kept
section Resolve

variable {Inode : Type} (advance : Inode → List Char → Option Inode) (rootDir workDir : Inode)

theorem lastDir_resolves {userPath : ℕ → Char} (terminated : ∃ n < maxPath, userPath n = nul) :
    lastDir userPath advance rootDir workDir =
      .ok (resolve advance (if userPath 0 = '/' then rootDir else workDir) (components (pathChars userPath))) :=
  lastDirLoop_spec advance (holds_pathChars terminated) (by have := (holds_pathChars terminated).inside; omega)

theorem paths_with_same_components_resolve_alike {userPath other : ℕ → Char}
    (terminated : ∃ n < maxPath, userPath n = nul) (otherTerminated : ∃ n < maxPath, other n = nul)
    (sameStart : userPath 0 = '/' ↔ other 0 = '/')
    (sameRuns : components (pathChars userPath) = components (pathChars other)) :
    lastDir userPath advance rootDir workDir =
        .ok (resolve advance (if userPath 0 = '/' then rootDir else workDir) (components (pathChars userPath))) ∧
      lastDir userPath advance rootDir workDir = lastDir other advance rootDir workDir ∧
      eatPath userPath advance rootDir workDir = eatPath other advance rootDir workDir := by
  have same : lastDir userPath advance rootDir workDir = lastDir other advance rootDir workDir := by
    rw [lastDir_resolves advance rootDir workDir terminated, lastDir_resolves advance rootDir workDir otherTerminated,
      sameRuns]
    by_cases slash : userPath 0 = '/'
    · rw [if_pos slash, if_pos (sameStart.mp slash)]
    · rw [if_neg slash, if_neg (mt sameStart.mpr slash)]
  refine ⟨lastDir_resolves advance rootDir workDir terminated, same, ?_⟩
  unfold eatPath
  rw [same]

end Resolve

def pathOf (path : String) : ℕ → Char := fun i => path.toList.getD i nul

/-- Each directory of a test tree is named by the lengths of the names that
lead to it. -/
def stepInto (dir : ℕ) (name : List Char) : Option ℕ := some (10 * dir + (name.takeWhile (· != nul)).length)

theorem usr_ast_spellings_resolve_alike :
    (∃ n < maxPath, pathOf "/usr//ast/" n = nul) ∧ (∃ n < maxPath, pathOf "//usr///ast" n = nul) ∧
      (pathOf "/usr//ast/" 0 = '/' ↔ pathOf "//usr///ast" 0 = '/') ∧
      components (pathChars (pathOf "/usr//ast/")) = components (pathChars (pathOf "//usr///ast")) ∧
      eatPath (pathOf "/usr//ast/") stepInto 1 2 = eatPath (pathOf "//usr///ast") stepInto 1 2 := by
  have terminated : ∃ n < maxPath, pathOf "/usr//ast/" n = nul := ⟨10, by decide, by decide⟩
  have otherTerminated : ∃ n < maxPath, pathOf "//usr///ast" n = nul := ⟨11, by decide, by decide⟩
  have sameStart : pathOf "/usr//ast/" 0 = '/' ↔ pathOf "//usr///ast" 0 = '/' := by decide
  have sameRuns : components (pathChars (pathOf "/usr//ast/")) = components (pathChars (pathOf "//usr///ast")) := by
    decide
  exact ⟨terminated, otherTerminated, sameStart, sameRuns,
    (paths_with_same_components_resolve_alike stepInto 1 2 terminated otherTerminated sameStart sameRuns).2.2⟩

/-- `get_name` gives the path "/" one name, an empty one, and a leading '/'
decides where `last_dir` starts. -/
theorem lone_slash_gives_empty_name :
    components (pathChars (pathOf "/")) = [] ∧
      getName (pathOf "/") 0 = .ok (some (List.replicate nameSize nul, 1)) ∧
      lastDir (pathOf "usr/ast") stepInto 1 2 ≠ lastDir (pathOf "/usr/ast") stepInto 1 2 := by
  decide

end Xinim.Fs
