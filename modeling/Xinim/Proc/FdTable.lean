import Mathlib.Data.List.Find
import Mathlib.Data.Fintype.Fin

/-! The file descriptor table of a process (kernel/fd_table.cpp):
`MAX_FDS_PER_PROCESS` entries and the hint `next_fd` where `allocate_fd`
starts to scan. Descriptor numbers come in as `int`s. The hint is a
`uint32_t` that is only ever set to 0, to one past an entry, lowered to an
entry or copied, so it never exceeds `MAX_FDS_PER_PROCESS`; the table carries
that bound. `clone_to` is modelled for a non-null destination, where it
returns 0. -/

namespace Xinim.Proc

def maxFdsPerProcess : ℕ := 1024

def eBadf : ℤ := 9

def eMfile : ℤ := 24

def fdCloexec : ℕ := 1

/-- A `FileDescriptor`; the pointers `inode` and `private_data` are numbers,
0 for `nullptr`. -/
structure FileDescriptor where
  isOpen : Bool
  flags : ℕ
  fileFlags : ℕ
  offset : ℕ
  inode : ℕ
  privateData : ℕ
  deriving DecidableEq

def FileDescriptor.reset : FileDescriptor := ⟨false, 0, 0, 0, 0, 0⟩

/-- `is_open = true; reset(); is_open = true`: a freshly allocated entry. -/
def FileDescriptor.opened : FileDescriptor := { FileDescriptor.reset with isOpen := true }

abbrev Fd := Fin maxFdsPerProcess

structure FileDescriptorTable where
  fds : Fd → FileDescriptor
  nextFd : ℕ
  nextFd_le : nextFd ≤ maxFdsPerProcess

namespace FileDescriptorTable

variable (t : FileDescriptorTable)

def init : FileDescriptorTable := ⟨fun _ => .reset, 0, Nat.zero_le _⟩

def closed (i : Fd) : Bool := !(t.fds i).isOpen

def allocateAt (i : Fd) : FileDescriptorTable :=
  ⟨Function.update t.fds i .opened, i.val + 1, i.isLt⟩

/-- `allocate_fd`: the first closed entry from the hint on, else the first
below it. -/
def allocateFd : FileDescriptorTable × ℤ :=
  match ((List.finRange maxFdsPerProcess).filter fun i => t.nextFd ≤ i.val).find? t.closed with
  | some i => (t.allocateAt i, i.val)
  | none =>
    match ((List.finRange maxFdsPerProcess).filter fun i => i.val < t.nextFd).find? t.closed with
    | some i => (t.allocateAt i, i.val)
    | none => (t, -eMfile)

def fdOf (fd : ℤ) : Option Fd :=
  if h : 0 ≤ fd ∧ fd < maxFdsPerProcess then some ⟨fd.toNat, by omega⟩ else none

def isValidFd (fd : ℤ) : Bool :=
  match fdOf fd with
  | some i => (t.fds i).isOpen
  | none => false

def closeFd (fd : ℤ) : FileDescriptorTable × ℤ :=
  match fdOf fd with
  | none => (t, -eBadf)
  | some i =>
    if (t.fds i).isOpen then
      -- the hint drops to a descriptor closed below it
      (⟨Function.update t.fds i .reset, if i.val < t.nextFd then i.val else t.nextFd, by
        split
        · exact i.isLt.le
        · exact t.nextFd_le⟩, 0)
    else (t, -eBadf)

/-- `allocate_specific_fd`, the `dup2` path: close the entry if it is open,
then allocate it; the hint stays where `close_fd` left it. -/
def allocateSpecificFd (fd : ℤ) : FileDescriptorTable × ℤ :=
  match fdOf fd with
  | none => (t, -eBadf)
  | some i =>
    let t := if (t.fds i).isOpen then (t.closeFd fd).1 else t
    ({ t with fds := Function.update t.fds i .opened }, fd)

/-- `dup_fd`: the entry allocated takes a copy of `oldfd`'s entry, as it is
after the allocation, with its flags cleared. -/
def dupFd (oldfd newfd : ℤ) : FileDescriptorTable × ℤ :=
  match fdOf oldfd with
  | none => (t, -eBadf)
  | some o =>
    if !(t.fds o).isOpen then (t, -eBadf)
    else
      let (t', result) := if newfd < 0 then t.allocateFd else t.allocateSpecificFd newfd
      match fdOf result with
      | none => (t', result)
      | some r => ({ t' with fds := Function.update t'.fds r { t'.fds o with flags := 0 } }, result)

def closeIfCloexec (t : FileDescriptorTable) (i : Fd) : FileDescriptorTable :=
  if (t.fds i).isOpen ∧ (t.fds i).flags &&& fdCloexec ≠ 0 then (t.closeFd i.val).1 else t

def closeOnExec : FileDescriptorTable := (List.finRange maxFdsPerProcess).foldl closeIfCloexec t

/-- The table `clone_to` writes to its destination: a fresh table with the
open entries copied and the hint copied. -/
def cloneTo : FileDescriptorTable :=
  ⟨fun i => if (t.fds i).isOpen then t.fds i else .reset, t.nextFd, t.nextFd_le⟩

/-- What a caller does through `get_fd`: `get_fd(fd)->flags = flags` on an
open entry, as `fcntl(F_SETFD)` does. -/
def setFlags (fd : ℤ) (flags : ℕ) : FileDescriptorTable :=
  match fdOf fd with
  | some i => if (t.fds i).isOpen then { t with fds := Function.update t.fds i { t.fds i with flags } } else t
  | none => t

def lowestClosed : Option Fd := (List.finRange maxFdsPerProcess).find? t.closed

def scanFd : (Fd → FileDescriptor) × ℤ :=
  match t.lowestClosed with
  | some i => (Function.update t.fds i .opened, i.val)
  | none => (t.fds, -eMfile)

end FileDescriptorTable

inductive FdOp
  | allocateFd
  | allocateSpecificFd (fd : ℤ)
  | closeFd (fd : ℤ)
  | dupFd (oldfd newfd : ℤ)
  | closeOnExec
  | setFlags (fd : ℤ) (flags : ℕ)

def FdOp.apply (t : FileDescriptorTable) : FdOp → FileDescriptorTable
  | .allocateFd => t.allocateFd.1
  | .allocateSpecificFd fd => (t.allocateSpecificFd fd).1
  | .closeFd fd => (t.closeFd fd).1
  | .dupFd oldfd newfd => (t.dupFd oldfd newfd).1
  | .closeOnExec => t.closeOnExec
  | .setFlags fd flags => t.setFlags fd flags

/-- The tables of processes: the one `initialize()` sets up, one after a
call, and the copy `clone_to` makes of one at `fork()`. -/
inductive Reachable : FileDescriptorTable → Prop
  | init : Reachable .init
  | step {t : FileDescriptorTable} (op : FdOp) : Reachable t → Reachable (op.apply t)
  | clone {t : FileDescriptorTable} : Reachable t → Reachable t.cloneTo

theorem find?_finRange_eq_some {n : ℕ} {p : Fin n → Bool} {i : Fin n}
    (found : (List.finRange n).find? p = some i) : p i = true ∧ ∀ j < i, p j = false := by
  obtain ⟨hit, k, hk, at_k, before⟩ := List.find?_eq_some_iff_getElem.mp found
  have same : k = i.val := by
    rw [← at_k, List.getElem_finRange]
    rfl
  refine ⟨hit, fun j lt => ?_⟩
  have := before j.val (by rw [same]; exact lt)
  simpa [List.getElem_finRange] using this

namespace FileDescriptorTable

variable {t : FileDescriptorTable}

def Hinted (t : FileDescriptorTable) : Prop := ∀ i : Fd, i.val < t.nextFd → (t.fds i).isOpen = true

theorem closed_eq_false {i : Fd} : t.closed i = false ↔ (t.fds i).isOpen = true := by
  simp [closed]

theorem lowestClosed_spec {i : Fd} (found : t.lowestClosed = some i) :
    (t.fds i).isOpen = false ∧ ∀ j < i, (t.fds j).isOpen = true := by
  obtain ⟨hit, before⟩ := find?_finRange_eq_some found
  exact ⟨by simpa [closed] using hit, fun j lt => closed_eq_false.mp (before j lt)⟩

theorem lowestClosed_eq_none : t.lowestClosed = none ↔ ∀ i, (t.fds i).isOpen = true := by
  rw [lowestClosed, List.find?_eq_none]
  simp [closed]

theorem Hinted.allocateFd_eq (hinted : t.Hinted) :
    t.allocateFd = match t.lowestClosed with
      | some i => (t.allocateAt i, i.val)
      | none => (t, -eMfile) := by
  have past : ∀ i : Fd, t.closed i = true → t.nextFd ≤ i.val := fun i hit =>
    Nat.le_of_not_lt fun lt => by simp [closed, hinted i lt] at hit
  have upper : ((List.finRange maxFdsPerProcess).filter fun i => t.nextFd ≤ i.val).find? t.closed =
      t.lowestClosed := by
    rw [List.find?_filter, lowestClosed]
    exact List.find?_congr fun i _ => by
      by_cases hit : t.closed i = true
      · simp [hit, past i hit]
      · simp [hit]
  have lower : ((List.finRange maxFdsPerProcess).filter fun i => i.val < t.nextFd).find? t.closed = none := by
    rw [List.find?_filter, List.find?_eq_none]
    intro i _ both
    simp only [decide_eq_true_eq] at both
    exact absurd (past i both.2) (Nat.not_le.mpr both.1)
  unfold allocateFd
  rw [upper]
  cases t.lowestClosed with
  | some i => rfl
  | none => simp only [lower]

/-! ### The hint stays sound -/

theorem hinted_init : FileDescriptorTable.init.Hinted := fun _ lt => absurd lt (Nat.not_lt_zero _)

theorem Hinted.update (hinted : t.Hinted) {i : Fd} {e : FileDescriptor}
    (keeps : (t.fds i).isOpen = true → e.isOpen = true) :
    ({ t with fds := Function.update t.fds i e } : FileDescriptorTable).Hinted := by
  intro j lt
  show (Function.update t.fds i e j).isOpen = true
  by_cases same : j = i
  · subst same
    rw [Function.update_self]
    exact keeps (hinted j lt)
  · rw [Function.update_of_ne same]
    exact hinted j lt

theorem Hinted.allocateAt {i : Fd} (found : t.lowestClosed = some i) : (t.allocateAt i).Hinted := by
  intro j lt
  show (Function.update t.fds i .opened j).isOpen = true
  have le : j ≤ i := Fin.le_def.mpr (Nat.lt_succ_iff.mp lt)
  rcases le.lt_or_eq with before | rfl
  · rw [Function.update_of_ne before.ne]
    exact (lowestClosed_spec found).2 j before
  · rw [Function.update_self]
    rfl

theorem Hinted.allocateFd (hinted : t.Hinted) : t.allocateFd.1.Hinted := by
  rw [hinted.allocateFd_eq]
  cases found : t.lowestClosed with
  | some i => exact Hinted.allocateAt found
  | none => exact hinted

theorem Hinted.closeFd (hinted : t.Hinted) (fd : ℤ) : (t.closeFd fd).1.Hinted := by
  unfold FileDescriptorTable.closeFd
  cases fdOf fd with
  | none => exact hinted
  | some i =>
    dsimp only
    by_cases isOpen : (t.fds i).isOpen = true
    · rw [if_pos isOpen]
      intro j lt
      dsimp only at lt
      have below : j.val < t.nextFd := by split at lt <;> omega
      have ne : j ≠ i := by
        rintro rfl
        split at lt <;> omega
      dsimp only
      rw [Function.update_of_ne ne]
      exact hinted j below
    · rw [if_neg isOpen]
      exact hinted

theorem Hinted.allocateSpecificFd (hinted : t.Hinted) (fd : ℤ) : (t.allocateSpecificFd fd).1.Hinted := by
  unfold FileDescriptorTable.allocateSpecificFd
  cases fdOf fd with
  | none => exact hinted
  | some i =>
    have closed : (if (t.fds i).isOpen then (t.closeFd fd).1 else t).Hinted := by
      split
      · exact hinted.closeFd fd
      · exact hinted
    exact closed.update fun _ => rfl

theorem allocateFd_keeps_open {o : Fd} (isOpen : (t.fds o).isOpen = true) :
    (t.allocateFd.1.fds o).isOpen = true := by
  have opened : ∀ i : Fd, ((t.allocateAt i).fds o).isOpen = true := fun i => by
    show (Function.update t.fds i .opened o).isOpen = true
    by_cases same : o = i
    · rw [same, Function.update_self]
      rfl
    · rw [Function.update_of_ne same]
      exact isOpen
  unfold FileDescriptorTable.allocateFd
  split
  · exact opened _
  · split
    · exact opened _
    · exact isOpen

theorem closeFd_fds_of_ne {fd : ℤ} {i o : Fd} (hi : fdOf fd = some i) (ne : o ≠ i) :
    (t.closeFd fd).1.fds o = t.fds o := by
  unfold FileDescriptorTable.closeFd
  rw [hi]
  dsimp only
  split
  · exact Function.update_of_ne ne _ _
  · rfl

theorem allocateSpecificFd_keeps_open {o : Fd} (isOpen : (t.fds o).isOpen = true) (fd : ℤ) :
    ((t.allocateSpecificFd fd).1.fds o).isOpen = true := by
  unfold FileDescriptorTable.allocateSpecificFd
  cases hi : fdOf fd with
  | none => exact isOpen
  | some i =>
    show (Function.update (if (t.fds i).isOpen then (t.closeFd fd).1 else t).fds i .opened o).isOpen = true
    by_cases same : o = i
    · rw [same, Function.update_self]
      rfl
    · rw [Function.update_of_ne same]
      split
      · rw [closeFd_fds_of_ne hi same]
        exact isOpen
      · exact isOpen

theorem Hinted.dupFd (hinted : t.Hinted) (oldfd newfd : ℤ) : (t.dupFd oldfd newfd).1.Hinted := by
  unfold FileDescriptorTable.dupFd
  cases fdOf oldfd with
  | none => exact hinted
  | some o =>
    by_cases isOpen : (t.fds o).isOpen = true
    · simp only [isOpen, Bool.not_true, Bool.false_eq_true, if_false]
      have allocated : (if newfd < 0 then t.allocateFd else t.allocateSpecificFd newfd).1.Hinted ∧
          ((if newfd < 0 then t.allocateFd else t.allocateSpecificFd newfd).1.fds o).isOpen = true := by
        split
        · exact ⟨hinted.allocateFd, allocateFd_keeps_open isOpen⟩
        · exact ⟨hinted.allocateSpecificFd newfd, allocateSpecificFd_keeps_open isOpen newfd⟩
      split
      · exact allocated.1
      · exact allocated.1.update fun _ => allocated.2
    · simp only [isOpen, Bool.not_false, if_true]
      exact hinted

theorem Hinted.closeIfCloexec (hinted : t.Hinted) (i : Fd) : (closeIfCloexec t i).Hinted := by
  unfold FileDescriptorTable.closeIfCloexec
  split
  · exact hinted.closeFd _
  · exact hinted

theorem Hinted.closeOnExec (hinted : t.Hinted) : t.closeOnExec.Hinted := by
  unfold FileDescriptorTable.closeOnExec
  generalize List.finRange maxFdsPerProcess = order
  induction order generalizing t with
  | nil => exact hinted
  | cons i rest ih => exact ih (hinted.closeIfCloexec i)

theorem Hinted.setFlags (hinted : t.Hinted) (fd : ℤ) (flags : ℕ) : (t.setFlags fd flags).Hinted := by
  unfold FileDescriptorTable.setFlags
  cases fdOf fd with
  | none => exact hinted
  | some i =>
    dsimp only
    split
    · exact hinted.update id
    · exact hinted

theorem Hinted.cloneTo (hinted : t.Hinted) : t.cloneTo.Hinted := by
  intro i lt
  have isOpen := hinted i lt
  simp [FileDescriptorTable.cloneTo, isOpen]

theorem Hinted.apply (hinted : t.Hinted) : ∀ op : FdOp, (op.apply t).Hinted
  | .allocateFd => hinted.allocateFd
  | .allocateSpecificFd fd => hinted.allocateSpecificFd fd
  | .closeFd fd => hinted.closeFd fd
  | .dupFd oldfd newfd => hinted.dupFd oldfd newfd
  | .closeOnExec => hinted.closeOnExec
  | .setFlags fd flags => hinted.setFlags fd flags

/-- What a plain scan from descriptor 0 promises of `allocate_fd` on `t`: it
leaves the entries and returns what the scan would, it fails exactly when
every descriptor is open, and what it returns is the lowest closed
descriptor. -/
def AllocatesLowest (t : FileDescriptorTable) : Prop :=
  (t.allocateFd.1.fds, t.allocateFd.2) = t.scanFd ∧
    (t.allocateFd.2 = -eMfile ↔ ∀ i, (t.fds i).isOpen = true) ∧
    ∀ i : Fd, t.allocateFd.2 = i.val → (t.fds i).isOpen = false ∧ ∀ j < i, (t.fds j).isOpen = true

end FileDescriptorTable

open FileDescriptorTable in
theorem Reachable.hinted {t : FileDescriptorTable} (reach : Reachable t) : t.Hinted := by
  induction reach with
  | init => exact hinted_init
  | step op _ ih => exact ih.apply op
  | clone _ ih => exact ih.cloneTo

theorem allocate_fd_returns_lowest_closed {t : FileDescriptorTable} (reach : Reachable t) :
    t.AllocatesLowest := by
  have hinted := reach.hinted
  unfold FileDescriptorTable.AllocatesLowest FileDescriptorTable.scanFd
  rw [hinted.allocateFd_eq]
  have failure : (-eMfile : ℤ) < 0 := by decide
  cases found : t.lowestClosed with
  | none =>
    dsimp only
    have allOpen := FileDescriptorTable.lowestClosed_eq_none.mp found
    exact ⟨rfl, iff_of_true rfl allOpen, fun i returned => by omega⟩
  | some i =>
    dsimp only
    have spec := FileDescriptorTable.lowestClosed_spec found
    refine ⟨rfl, ⟨fun failed => by omega, fun allOpen => ?_⟩, fun j returned => ?_⟩
    · rw [allOpen i] at spec
      exact Bool.noConfusion spec.1
    · have same : j = i := Fin.ext (by omega)
      subst same
      exact spec

def holeAtOne : FileDescriptorTable :=
  (FdOp.closeFd 1).apply (FdOp.allocateFd.apply (FdOp.allocateFd.apply (FdOp.allocateFd.apply .init)))

theorem allocate_fd_fills_closed_hole :
    Reachable holeAtOne ∧ holeAtOne.AllocatesLowest ∧ holeAtOne.allocateFd.2 = 1 :=
  have reach : Reachable holeAtOne := .step _ (.step _ (.step _ (.step _ .init)))
  ⟨reach, allocate_fd_returns_lowest_closed reach, by decide +kernel⟩

/-! ### `dup_fd` -/

namespace FileDescriptorTable

variable (t : FileDescriptorTable)

theorem fdOf_val (i : Fd) : fdOf (i.val : ℤ) = some i := by
  unfold fdOf
  rw [dif_pos ⟨Int.natCast_nonneg _, by exact_mod_cast i.isLt⟩]
  exact congrArg some (Fin.ext (Int.toNat_natCast _))

theorem allocateSpecificFd_val (i : Fd) :
    t.allocateSpecificFd i.val =
      ({ (if (t.fds i).isOpen then (t.closeFd i.val).1 else t) with
          fds := Function.update (if (t.fds i).isOpen then (t.closeFd i.val).1 else t).fds i .opened }, (i.val : ℤ)) := by
  unfold allocateSpecificFd
  rw [fdOf_val]

theorem dup_fd_onto_itself_loses_file (i : Fd) :
    t.dupFd i.val i.val =
      if (t.fds i).isOpen then
        ({ (t.closeFd i.val).1 with fds := Function.update (t.closeFd i.val).1.fds i .opened }, (i.val : ℤ))
      else (t, -eBadf) := by
  unfold dupFd
  rw [fdOf_val]
  by_cases isOpen : (t.fds i).isOpen = true
  · simp only [isOpen, Bool.not_true, Bool.false_eq_true, if_false, if_true]
    rw [if_neg (not_lt.mpr (Int.natCast_nonneg _)), allocateSpecificFd_val, if_pos isOpen]
    dsimp only
    -- the copy reads the entry `allocate_specific_fd` has just blanked
    simp only [fdOf_val, Function.update_self, Function.update_idem]
    rfl
  · simp only [isOpen, Bool.not_false, if_true, Bool.false_eq_true, if_false]

theorem allocateFd_cases :
    (∃ i, (t.fds i).isOpen = false ∧ t.allocateFd = (t.allocateAt i, (i.val : ℤ))) ∨ t.allocateFd = (t, -eMfile) := by
  have closedOf : ∀ {l : List Fd} {i : Fd}, l.find? t.closed = some i → (t.fds i).isOpen = false := fun found => by
    simpa [closed] using List.find?_some found
  unfold allocateFd
  split
  · next i found => exact .inl ⟨i, closedOf found, rfl⟩
  · split
    · next i found => exact .inl ⟨i, closedOf found, rfl⟩
    · exact .inr rfl

def getFd (fd : ℤ) : Option Fd :=
  match fdOf fd with
  | some i => if (t.fds i).isOpen then some i else none
  | none => none

def setEntry (i : Fd) (e : FileDescriptor) : FileDescriptorTable := { t with fds := Function.update t.fds i e }

def Entries (P : FileDescriptor → Prop) : Prop := ∀ i, P (t.fds i)

variable {t} {P : FileDescriptor → Prop}

theorem getFd_eq_some {fd : ℤ} {i : Fd} : t.getFd fd = some i ↔ fdOf fd = some i ∧ (t.fds i).isOpen = true := by
  unfold getFd
  cases fdOf fd with
  | none => simp
  | some j =>
    by_cases isOpen : (t.fds j).isOpen = true
    · simp only [isOpen, if_true, Option.some.injEq]
      constructor
      · rintro rfl
        exact ⟨rfl, isOpen⟩
      · exact fun both => both.1
    · simp only [isOpen, Bool.false_eq_true, if_false, reduceCtorEq, Option.some.injEq, false_iff, not_and]
      rintro rfl
      exact isOpen

theorem getFd_range {fd : ℤ} {i : Fd} (found : t.getFd fd = some i) : 0 ≤ fd ∧ fd < maxFdsPerProcess := by
  have inRange := (getFd_eq_some.mp found).1
  unfold fdOf at inRange
  by_cases range : 0 ≤ fd ∧ fd < maxFdsPerProcess
  · exact range
  · rw [dif_neg range] at inRange
    cases inRange

@[simp] theorem setEntry_fds_self (i : Fd) (e : FileDescriptor) : (t.setEntry i e).fds i = e :=
  Function.update_self _ _ _

@[simp] theorem setEntry_nextFd (i : Fd) (e : FileDescriptor) : (t.setEntry i e).nextFd = t.nextFd := rfl

theorem Hinted.setEntry (hinted : t.Hinted) {i : Fd} {e : FileDescriptor}
    (keeps : (t.fds i).isOpen = true → e.isOpen = true) : (t.setEntry i e).Hinted :=
  hinted.update keeps

theorem Entries.setEntry (h : t.Entries P) {i : Fd} {e : FileDescriptor} (he : P e) : (t.setEntry i e).Entries P := by
  intro j
  by_cases same : j = i
  · subst same
    simpa [FileDescriptorTable.setEntry] using he
  · simpa [FileDescriptorTable.setEntry, same] using h j

theorem Entries.allocateFd (h : t.Entries P) (opened : P .opened) : t.allocateFd.1.Entries P := by
  rcases t.allocateFd_cases with ⟨i, -, allocated⟩ | failed
  · rw [allocated]
    exact h.setEntry (i := i) opened
  · rw [failed]
    exact h

theorem Entries.closeFd (h : t.Entries P) (reset : P .reset) (fd : ℤ) : (t.closeFd fd).1.Entries P := by
  unfold FileDescriptorTable.closeFd
  cases fdOf fd with
  | none => exact h
  | some i =>
    dsimp only
    split
    · exact h.setEntry (i := i) reset
    · exact h

theorem Entries.allocateSpecificFd (h : t.Entries P) (reset : P .reset) (opened : P .opened) (fd : ℤ) :
    (t.allocateSpecificFd fd).1.Entries P := by
  unfold FileDescriptorTable.allocateSpecificFd
  cases fdOf fd with
  | none => exact h
  | some i =>
    dsimp only
    have closed : (if (t.fds i).isOpen then (t.closeFd fd).1 else t).Entries P := by
      split
      · exact h.closeFd reset fd
      · exact h
    exact closed.setEntry (i := i) opened

theorem Entries.dupFd (h : t.Entries P) (reset : P .reset) (opened : P .opened)
    (unflagged : ∀ e, P e → P { e with flags := 0 }) (oldfd newfd : ℤ) : (t.dupFd oldfd newfd).1.Entries P := by
  unfold FileDescriptorTable.dupFd
  cases fdOf oldfd with
  | none => exact h
  | some o =>
    dsimp only
    split
    · exact h
    · have allocated : (if newfd < 0 then t.allocateFd else t.allocateSpecificFd newfd).1.Entries P := by
        split
        · exact h.allocateFd opened
        · exact h.allocateSpecificFd reset opened newfd
      rcases result : (if newfd < 0 then t.allocateFd else t.allocateSpecificFd newfd) with ⟨t', r⟩
      rw [result] at allocated
      dsimp only
      cases fdOf r with
      | none => exact allocated
      | some j => exact allocated.setEntry (i := j) (unflagged _ (allocated o))

theorem Entries.cloneTo (h : t.Entries P) (reset : P .reset) : t.cloneTo.Entries P := by
  intro i
  show P (if (t.fds i).isOpen then t.fds i else .reset)
  split
  · exact h i
  · exact reset

end FileDescriptorTable

/-! ### Closing and allocating again -/

namespace FileDescriptorTable

variable {t : FileDescriptorTable}

theorem ext {t' : FileDescriptorTable} (fds : t.fds = t'.fds) (next : t.nextFd = t'.nextFd) : t = t' := by
  cases t
  cases t'
  simp only at fds next
  subst fds next
  rfl

theorem lowestClosed_eq_some {i : Fd} (closedAt : (t.fds i).isOpen = false)
    (below : ∀ j < i, (t.fds j).isOpen = true) : t.lowestClosed = some i := by
  rw [lowestClosed, List.find?_eq_some_iff_getElem]
  refine ⟨by simp [closed, closedAt], i.val, by simp, by simp [List.getElem_finRange], fun j lt => ?_⟩
  have := below ⟨j, by omega⟩ (Fin.mk_lt_mk.mpr lt)
  simpa [closed, List.getElem_finRange] using this

theorem closeFd_allocateAt (i : Fd) :
    ((t.allocateAt i).closeFd i.val).1 = ⟨Function.update t.fds i .reset, i.val, i.isLt.le⟩ := by
  unfold closeFd
  rw [fdOf_val]
  dsimp only
  have opened : ((t.allocateAt i).fds i).isOpen = true := by
    simp [allocateAt, FileDescriptor.opened]
  rw [if_pos opened]
  simp only [allocateAt, Function.update_idem, Nat.lt_succ_self, if_true]

theorem allocateFd_closeFd_allocateAt {i : Fd} (lowest : t.lowestClosed = some i) :
    ((t.allocateAt i).closeFd i.val).1.allocateFd = (t.allocateAt i, (i.val : ℤ)) := by
  obtain ⟨closedAt, below⟩ := lowestClosed_spec lowest
  have hinted' := (Hinted.allocateAt lowest).closeFd i.val
  rw [closeFd_allocateAt i] at hinted' ⊢
  have lowest' : (⟨Function.update t.fds i .reset, i.val, i.isLt.le⟩ : FileDescriptorTable).lowestClosed = some i :=
    lowestClosed_eq_some (by simp [FileDescriptor.reset]) fun j lt => by
      simpa [Function.update_of_ne lt.ne] using below j lt
  rw [hinted'.allocateFd_eq, lowest']
  exact Prod.ext (ext (Function.update_idem _ _ _) rfl) rfl

end FileDescriptorTable

end Xinim.Proc
