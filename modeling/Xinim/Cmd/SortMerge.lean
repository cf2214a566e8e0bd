import Xinim.Cmd.Sort

/-! `ModernSortEngine::merge_files` (commands/sort.cpp) and the
`LineContainer` it appends to. A file is the list of lines `std::getline`
reads from it, or `none` if it cannot be opened; reads do not fail. The
`std::priority_queue` is taken by what its `top` can be, one of the queued
sources, chosen by a `Queue`. The laws below hold for every such choice. The
`while` loop runs on fuel, one turn per line still to merge. -/

namespace Xinim.Cmd

structure LineContainer where
  lines : List Line
  uniqueLines : List Line
  enforceUnique : Bool

namespace LineContainer

def empty (uniqueOnly : Bool) : LineContainer := ⟨[], [], uniqueOnly⟩

def addLine (c : LineContainer) (line : Line) : LineContainer × Bool :=
  if c.enforceUnique ∧ line ∈ c.uniqueLines then (c, false)
  else (⟨c.lines ++ [line], if c.enforceUnique then line :: c.uniqueLines else c.uniqueLines,
    c.enforceUnique⟩, true)

def addLines (c : LineContainer) (lines : List Line) : LineContainer :=
  lines.foldl (fun c line => (c.addLine line).1) c

theorem addLines_cons (c : LineContainer) (line : Line) (lines : List Line) :
    c.addLines (line :: lines) = (c.addLine line).1.addLines lines := rfl

end LineContainer

/-- An `InputSource`: its buffered line and what `std::getline` will read next. -/
structure InputSource where
  line : Line
  rest : List Line
  deriving DecidableEq

def loadFirstLine : List Line → Option InputSource
  | [] => none
  | line :: rest => some ⟨line, rest⟩

/-- The sources `merge_files` opens: each input file that opens and has a first
line, in order, then standard input if requested. -/
def openSources (config : SortConfig) (files : String → Option (List Line)) (stdin : List Line) :
    List InputSource :=
  config.inputFiles.filterMap (fun path => (files path).bind loadFirstLine) ++
    if config.useStdin then (loadFirstLine stdin).toList else []

/-- What `heap.top()` can be: one of the queued source indices, chosen from
the comparator and each source's buffered line. -/
structure Queue where
  top : (Line → Line → Bool) → (ℕ → Line) → List ℕ → ℕ
  top_mem : ∀ less line heap, heap ≠ [] → top less line heap ∈ heap

structure Merge where
  sources : List InputSource
  heap : List ℕ
  container : LineContainer

namespace Merge

def source (m : Merge) (i : ℕ) : InputSource := m.sources.getD i ⟨[], []⟩

/-- The lines not yet appended: for each queued source its buffered line and
the rest of its file. -/
def pending (m : Merge) : List Line := m.heap.flatMap fun i => (m.source i).line :: (m.source i).rest

variable (queue : Queue) (less : Line → Line → Bool)

def top (m : Merge) : ℕ := queue.top less (fun i => (m.source i).line) m.heap

/-- One turn of the loop: pop the top, append its line, read the source's next
line and queue the source again if there was one. -/
def step (m : Merge) : Merge :=
  let idx := m.top queue less
  let src := m.source idx
  let container := (m.container.addLine src.line).1
  match src.rest with
  | [] => { m with heap := m.heap.erase idx, container := container }
  | line :: rest => ⟨m.sources.set idx ⟨line, rest⟩, idx :: m.heap.erase idx, container⟩

def loop : ℕ → Merge → Merge
  | 0, m => m
  | fuel + 1, m => if m.heap = [] then m else loop fuel (m.step queue less)

theorem pending_eq_nil {m : Merge} : m.pending = [] ↔ m.heap = [] := by
  rw [pending, List.flatMap_eq_nil_iff, List.eq_nil_iff_forall_not_mem]
  simp only [reduceCtorEq, imp_false]

theorem source_set_of_ne (sources : List InputSource) (heap : List ℕ) (container : LineContainer)
    {i j : ℕ} (s : InputSource) (apart : j ≠ i) :
    (⟨sources.set i s, heap, container⟩ : Merge).source j = (⟨sources, heap, container⟩ : Merge).source j := by
  simp only [source, List.getD_eq_getElem?_getD, List.getElem?_set_ne (Ne.symm apart)]

theorem source_set_self (sources : List InputSource) (heap : List ℕ) (container : LineContainer)
    {i : ℕ} (s : InputSource) (inRange : i < sources.length) :
    (⟨sources.set i s, heap, container⟩ : Merge).source i = s := by
  simp only [source, List.getD_eq_getElem?_getD, List.getElem?_set_self inRange, Option.getD_some]

theorem lt_length_of_rest {m : Merge} {i : ℕ} {line : Line} {rest : List Line}
    (next : (m.source i).rest = line :: rest) : i < m.sources.length := by
  by_contra outside
  have blank : m.source i = ⟨[], []⟩ := by
    simp only [source, List.getD_eq_getElem?_getD, List.getElem?_eq_none (not_lt.mp outside), Option.getD_none]
  rw [blank] at next
  cases next

theorem lines_set_of_not_mem (m : Merge) (heap : List ℕ) (container : LineContainer) {i : ℕ}
    (s : InputSource) {others : List ℕ} (apart : i ∉ others) :
    (others.flatMap fun j => ((⟨m.sources.set i s, heap, container⟩ : Merge).source j).line ::
        ((⟨m.sources.set i s, heap, container⟩ : Merge).source j).rest) =
      others.flatMap fun j => (m.source j).line :: (m.source j).rest := by
  rw [List.flatMap_def, List.flatMap_def]
  congr 1
  apply List.map_congr_left
  intro j kept
  rw [source_set_of_ne _ _ _ _ (by rintro rfl; exact apart kept)]
  rfl

theorem step_of_nil {m : Merge} {idx : ℕ} (top : m.top queue less = idx) (ended : (m.source idx).rest = []) :
    m.step queue less = ⟨m.sources, m.heap.erase idx, (m.container.addLine (m.source idx).line).1⟩ := by
  subst top
  simp only [step, ended]

theorem step_of_cons {m : Merge} {idx : ℕ} {line : Line} {rest : List Line} (top : m.top queue less = idx)
    (next : (m.source idx).rest = line :: rest) :
    m.step queue less = ⟨m.sources.set idx ⟨line, rest⟩, idx :: m.heap.erase idx,
      (m.container.addLine (m.source idx).line).1⟩ := by
  subst top
  simp only [step, next]

theorem step_spec (m : Merge) (queued : m.heap ≠ []) (distinct : m.heap.Nodup) :
    m.pending.Perm ((m.source (m.top queue less)).line :: (m.step queue less).pending) ∧
      (m.step queue less).heap.Nodup ∧
      (m.step queue less).container = (m.container.addLine (m.source (m.top queue less)).line).1 := by
  obtain ⟨idx, top⟩ : ∃ idx, m.top queue less = idx := ⟨_, rfl⟩
  have mem : idx ∈ m.heap := top ▸ queue.top_mem _ _ _ queued
  rw [top]
  have notLeft : idx ∉ m.heap.erase idx := distinct.not_mem_erase
  have split : m.pending.Perm (((m.source idx).line :: (m.source idx).rest) ++
      (m.heap.erase idx).flatMap fun i => (m.source i).line :: (m.source i).rest) :=
    (List.perm_cons_erase mem).flatMap_right _
  cases next : (m.source idx).rest with
  | nil =>
    rw [next] at split
    refine ⟨?_, ?_, ?_⟩ <;> rw [step_of_nil queue less top next]
    · exact split
    · exact distinct.erase idx
  | cons line rest =>
    rw [next] at split
    refine ⟨?_, ?_, ?_⟩ <;> rw [step_of_cons queue less top next]
    · simp only [pending, List.flatMap_cons, source_set_self _ _ _ _ (lt_length_of_rest next),
        lines_set_of_not_mem _ _ _ _ notLeft]
      exact split
    · exact List.nodup_cons.mpr ⟨notLeft, distinct.erase idx⟩

theorem loop_spec : ∀ fuel (m : Merge), m.pending.length ≤ fuel → m.heap.Nodup →
    (m.loop queue less fuel).heap = [] ∧
      ∃ lines, lines.Perm m.pending ∧ (m.loop queue less fuel).container = m.container.addLines lines := by
  intro fuel
  induction fuel with
  | zero =>
    intro m short _
    have none : m.pending = [] := List.eq_nil_of_length_eq_zero (Nat.le_zero.mp short)
    exact ⟨pending_eq_nil.mp none, [], by rw [none], rfl⟩
  | succ fuel ih =>
    intro m short distinct
    by_cases empty : m.heap = []
    · simp only [loop, if_pos empty]
      exact ⟨empty, [], by rw [pending_eq_nil.mpr empty], rfl⟩
    · obtain ⟨perm, distinct', appended⟩ := step_spec queue less m empty distinct
      have fewer : (m.step queue less).pending.length ≤ fuel := by
        have := perm.length_eq
        simp only [List.length_cons] at this
        omega
      obtain ⟨ended, lines, lines_perm, result⟩ := ih _ fewer distinct'
      simp only [loop, if_neg empty]
      refine ⟨ended, _ :: lines, ((lines_perm.cons _).trans perm.symm), ?_⟩
      rw [result, appended, LineContainer.addLines_cons]

end Merge

section Files

variable {β : Type*} [LT β] [DecidableRel (fun a b : β => a < b)] (stod : Line → Option β)

/-- `merge_files`: fewer than two sources is an error; otherwise the sources
whose first line is non-empty are queued and the loop runs until the queue is
empty. -/
def mergeFiles (queue : Queue) (config : SortConfig) (files : String → Option (List Line))
    (stdin : List Line) (container : LineContainer) : Except String LineContainer :=
  let sources := openSources config files stdin
  if sources.length < 2 then .error "Merge requires at least two input sources" else
  let heap := (List.range sources.length).filter fun i => (sources.getD i ⟨[], []⟩).line ≠ []
  let start : Merge := ⟨sources, heap, container⟩
  let less := fun lhs rhs => decide (compareLines stod config lhs rhs < 0)
  .ok (start.loop queue less start.pending.length).container

theorem map_getD_range {α : Type*} (l : List α) (d : α) :
    (List.range l.length).map (fun i => l.getD i d) = l := by
  apply List.ext_getElem (by simp)
  intro i inMap inList
  simp [List.getD_eq_getElem?_getD, List.getElem?_eq_getElem inList]

theorem pending_start (sources : List InputSource) (container : LineContainer) :
    (⟨sources, (List.range sources.length).filter (fun i => (sources.getD i ⟨[], []⟩).line ≠ []),
      container⟩ : Merge).pending =
      (sources.filter fun s => s.line ≠ []).flatMap fun s => s.line :: s.rest := by
  conv_rhs => rw [← map_getD_range sources ⟨[], []⟩]
  rw [List.filter_map, List.flatMap_map]
  rfl

theorem mergeFiles_spec (queue : Queue) (config : SortConfig) (files : String → Option (List Line))
    (stdin : List Line) (container : LineContainer) :
    ((openSources config files stdin).length < 2 ∧
      mergeFiles stod queue config files stdin container = .error "Merge requires at least two input sources") ∨
    (2 ≤ (openSources config files stdin).length ∧ ∃ lines,
      lines.Perm (((openSources config files stdin).filter fun s => s.line ≠ []).flatMap
        fun s => s.line :: s.rest) ∧
      mergeFiles stod queue config files stdin container = .ok (container.addLines lines)) := by
  by_cases few : (openSources config files stdin).length < 2
  · exact Or.inl ⟨few, by simp only [mergeFiles, if_pos few]⟩
  · right
    refine ⟨by omega, ?_⟩
    set sources := openSources config files stdin
    let start : Merge := ⟨sources, (List.range sources.length).filter
      (fun i => (sources.getD i ⟨[], []⟩).line ≠ []), container⟩
    have distinct : start.heap.Nodup := List.nodup_range.filter _
    obtain ⟨-, lines, perm, result⟩ := Merge.loop_spec queue
      (fun lhs rhs => decide (compareLines stod config lhs rhs < 0)) _ start le_rfl distinct
    refine ⟨lines, ?_, ?_⟩
    · rw [← pending_start]
      exact perm
    · simp only [mergeFiles]
      rw [result]
      exact if_neg few

end Files

def mergeConfig : SortConfig := ⟨SortFlag.merge, [], '\t', ["left", "right"], false⟩

def mergeInputs (path : String) : Option (List Line) :=
  if path = "left" then some [[], ['b']] else if path = "right" then some [['a']] else none

theorem merge_drops_source_with_empty_first_line {β : Type*} [LT β] [DecidableRel (fun a b : β => a < b)]
    (stod : Line → Option β) (queue : Queue) :
    mergeFiles stod queue mergeConfig mergeInputs [] (LineContainer.empty false) = .ok ⟨[['a']], [], false⟩ := by
  have opened : openSources mergeConfig mergeInputs [] = [⟨[], [['b']]⟩, ⟨['a'], []⟩] := by decide
  rcases mergeFiles_spec stod queue mergeConfig mergeInputs [] (LineContainer.empty false) with
    ⟨few, -⟩ | ⟨-, lines, perm, result⟩
  · rw [opened] at few
    exact absurd few (by decide)
  · have kept : ((openSources mergeConfig mergeInputs []).filter fun s => s.line ≠ []).flatMap
        (fun s => s.line :: s.rest) = [['a']] := by
      rw [opened]
      decide
    rw [kept, List.perm_singleton] at perm
    rw [result, perm]
    rfl

end Xinim.Cmd
