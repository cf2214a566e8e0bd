import Xinim.Fs.Map
import Xinim.Fs.Path

/-! `search_dir` (fs/path.cpp) over a directory of `dir_struct` slots, an
inode number and a `NAME_SIZE` name each, `NR_DIR_ENTRIES` to a block.

The directory is its mode, its size and its blocks as `read_map` and
`get_block` give them; it has no holes, as the file system keeps its
directories. `forbidden` is a parameter, and `new_block` is given by its
outcome: a block `zero_block` cleared at the end of the directory, or
`NIL_BUF` with `err_code` (`ENOSPC` when `alloc_zone` finds no free zone).
`cmp_string` compares the `NAME_SIZE` characters of two names and `copy`
copies them. The slot counters do not wrap: a size is a 32-bit `file_pos`, so a
directory has fewer than `2 ^ 28` slots, and the `EFBIG` test of a wrapped
`new_slots` is left out. `i_modtime`, `b_dirt` and the buffers' reference
counts are not modelled. -/

namespace Xinim.Fs

def dirEntrySize : ℕ := 16

def nrDirEntries : ℕ := blockSize / dirEntrySize

theorem nrDirEntries_eq : nrDirEntries = 64 := rfl

def okCode : ℤ := 0

def eNoEnt : ℤ := -2

def eNotDir : ℤ := -20

def iType : ℕ := 0o170000

def iDirectory : ℕ := 0o040000

def xBit : ℕ := 1

def wBit : ℕ := 2

inductive Flag
  | lookUp
  | enter
  | delete
  deriving DecidableEq, Repr

structure DirSlot where
  dInum : ℕ
  dName : Vector Char nameSize
  deriving DecidableEq, Repr

def DirSlot.zero : DirSlot := ⟨0, Vector.replicate nameSize nul⟩

structure Directory where
  iMode : ℕ
  size : ℕ
  blocks : ℕ → ℕ → DirSlot

namespace Directory

def slotAt (d : Directory) (i : ℕ) : DirSlot := d.blocks (i / nrDirEntries) (i % nrDirEntries)

def setSlot (d : Directory) (b k : ℕ) (slot : DirSlot) : Directory :=
  { d with blocks := Function.update d.blocks b (Function.update (d.blocks b) k slot) }

end Directory

/-- Where the scan of one block stops: at a slot of the name, at a slot for
`ENTER`, or at the block's end. -/
inductive SlotScan
  | found (k : ℕ)
  | hit (k : ℕ)
  | next
  deriving DecidableEq, Repr

def scanSlots (blk : ℕ → DirSlot) (oldSlots : ℕ) (string : Vector Char nameSize) (flag : Flag) :
    ℕ → ℕ → ℕ → SlotScan × ℕ
  | 0, _, newSlots => (.next, newSlots)
  | left + 1, k, newSlots =>
    -- `++new_slots > old_slots`: the slot is past the directory's size
    if oldSlots < newSlots + 1 then (if flag = .enter then .hit k else .next, newSlots + 1)
    else if flag ≠ .enter ∧ (blk k).dInum ≠ 0 ∧ (blk k).dName = string then (.found k, newSlots + 1)
    else if flag = .enter ∧ (blk k).dInum = 0 then (.hit k, newSlots + 1)
    else scanSlots blk oldSlots string flag left (k + 1) (newSlots + 1)

inductive DirScan
  | found (b k : ℕ)
  | hit (b k newSlots : ℕ)
  | done (newSlots : ℕ)
  deriving DecidableEq, Repr

def scanBlocks (d : Directory) (oldSlots : ℕ) (string : Vector Char nameSize) (flag : Flag) :
    ℕ → ℕ → ℕ → DirScan
  | 0, _, newSlots => .done newSlots
  | left + 1, b, newSlots =>
    match scanSlots (d.blocks b) oldSlots string flag nrDirEntries 0 newSlots with
    | (.found k, _) => .found b k
    | (.hit k, newSlots) => .hit b k newSlots
    | (.next, newSlots) => scanBlocks d oldSlots string flag left (b + 1) newSlots

/-- `ENTER`'s write of slot `(b, k)`, and the size grown to `new_slots` slots
if the slot is past the old size. -/
def enterSlot (d : Directory) (b k : ℕ) (string : Vector Char nameSize) (numb oldSlots newSlots : ℕ) : Directory :=
  let d := d.setSlot b k ⟨numb, string⟩
  if oldSlots < newSlots then { d with size := newSlots * dirEntrySize } else d

/-- `search_dir(ldir_ptr, string, &numb, flag)`: its result, the directory,
and `*numb`. -/
def searchDir (newBlock : Except ℤ Unit) (forbidden : ℕ → ℤ) (d : Directory) (string : Vector Char nameSize)
    (numb : ℕ) (flag : Flag) : ℤ × Directory × ℕ :=
  if d.iMode &&& iType ≠ iDirectory then (eNotDir, d, numb) else
  let bits := if flag = .lookUp then xBit else wBit ||| xBit
  if forbidden bits ≠ okCode then (forbidden bits, d, numb) else
  let oldSlots := d.size / dirEntrySize
  match scanBlocks d oldSlots string flag ((d.size + blockSize - 1) / blockSize) 0 0 with
  | .found b k =>
    if flag = .delete then (okCode, d.setSlot b k { d.blocks b k with dInum := 0 }, numb)
    else (okCode, d, (d.blocks b k).dInum)
  | .hit b k newSlots => (okCode, enterSlot d b k string numb oldSlots newSlots, numb)
  | .done newSlots =>
    if flag ≠ .enter then (eNoEnt, d, numb) else
    -- the directory is full and its last block has no room: `new_block` at its end
    match newBlock with
    | .error err => (err, d, numb)
    | .ok () =>
      let grown := { d with blocks := Function.update d.blocks (d.size / blockSize) fun _ => DirSlot.zero }
      (okCode, enterSlot grown (d.size / blockSize) 0 string numb oldSlots (newSlots + 1), numb)

namespace Directory

def probe (t : Vector Char nameSize) (slot : DirSlot) : Option ℕ :=
  if slot.dInum ≠ 0 ∧ slot.dName = t then some slot.dInum else none

/-- The name-to-inode map the directory holds: the first slot in use of the
name among the slots below its size. -/
def entry (d : Directory) (t : Vector Char nameSize) : Option ℕ :=
  (List.range (d.size / dirEntrySize)).findSome? fun i => probe t (d.slotAt i)

def Distinct (d : Directory) : Prop :=
  ∀ i < d.size / dirEntrySize, ∀ j < d.size / dirEntrySize,
    (d.slotAt i).dInum ≠ 0 ∧ (d.slotAt j).dInum ≠ 0 ∧ (d.slotAt i).dName = (d.slotAt j).dName → i = j

def HasFree (d : Directory) : Prop := ∃ i < d.size / dirEntrySize, (d.slotAt i).dInum = 0

@[simp] theorem setSlot_blocks (d : Directory) (b k : ℕ) (slot : DirSlot) :
    (d.setSlot b k slot).blocks = Function.update d.blocks b (Function.update (d.blocks b) k slot) := rfl

@[simp] theorem setSlot_size (d : Directory) (b k : ℕ) (slot : DirSlot) : (d.setSlot b k slot).size = d.size := rfl

@[simp] theorem setSlot_iMode (d : Directory) (b k : ℕ) (slot : DirSlot) : (d.setSlot b k slot).iMode = d.iMode := rfl

theorem slotAt_place (d : Directory) {b k : ℕ} (hk : k < nrDirEntries) :
    d.slotAt (b * nrDirEntries + k) = d.blocks b k := by
  rw [nrDirEntries_eq] at hk ⊢
  unfold slotAt
  rw [nrDirEntries_eq, show (b * 64 + k) / 64 = b by omega, show (b * 64 + k) % 64 = k by omega]

theorem slotAt_setSlot (d : Directory) {b k : ℕ} (hk : k < nrDirEntries) (slot : DirSlot) (i : ℕ) :
    (d.setSlot b k slot).slotAt i = if i = b * nrDirEntries + k then slot else d.slotAt i := by
  rw [nrDirEntries_eq] at hk ⊢
  unfold slotAt
  rw [nrDirEntries_eq, setSlot_blocks]
  by_cases sameBlock : i / 64 = b
  · by_cases sameSlot : i % 64 = k
    · rw [if_pos (by omega), sameBlock, sameSlot, Function.update_self, Function.update_self]
    · rw [if_neg (by omega), sameBlock, Function.update_self, Function.update_of_ne sameSlot]
  · rw [if_neg (by omega), Function.update_of_ne sameBlock]

theorem findSome?_range_succ {β : Type} (f : ℕ → Option β) (n : ℕ) :
    (List.range (n + 1)).findSome? f = ((List.range n).findSome? f).or (f n) := by
  rw [List.range_succ, List.findSome?_append, List.findSome?_singleton]

theorem findSome?_range_congr {β : Type} {f g : ℕ → Option β} :
    ∀ {n}, (∀ i < n, f i = g i) → (List.range n).findSome? f = (List.range n).findSome? g
  | 0, _ => rfl
  | n + 1, same => by
    rw [findSome?_range_succ, findSome?_range_succ, findSome?_range_congr fun i hi => same i (by omega),
      same n (by omega)]

variable {d d' : Directory} {t : Vector Char nameSize}

theorem probe_eq_some {slot : DirSlot} {n : ℕ} : probe t slot = some n ↔ slot.dInum ≠ 0 ∧ slot.dName = t ∧ slot.dInum = n := by
  unfold probe
  split_ifs with live <;> simp_all

theorem probe_eq_none {slot : DirSlot} : probe t slot = none ↔ (slot.dInum ≠ 0 → slot.dName ≠ t) := by
  unfold probe
  split_ifs with live <;> simp_all

theorem entry_eq_of_first {i n : ℕ} (inside : i < d.size / dirEntrySize) (here : probe t (d.slotAt i) = some n)
    (before : ∀ j < i, probe t (d.slotAt j) = none) : d.entry t = some n := by
  obtain ⟨m, hm⟩ := Nat.exists_eq_add_of_lt inside
  rw [entry, hm]
  clear hm inside
  induction m with
  | zero =>
    have none_before : (List.range i).findSome? (fun j => probe t (d.slotAt j)) = none :=
      List.findSome?_eq_none_iff.mpr fun j hj => before j (List.mem_range.mp hj)
    rw [Nat.add_zero, findSome?_range_succ, none_before, here, Option.none_or]
  | succ m ih => rw [← Nat.add_assoc, findSome?_range_succ, ih, Option.some_or]

theorem entry_eq_none (missing : ∀ j < d.size / dirEntrySize, probe t (d.slotAt j) = none) : d.entry t = none :=
  List.findSome?_eq_none_iff.mpr fun j hj => missing j (List.mem_range.mp hj)

theorem probe_of_entry_none (missing : d.entry t = none) {j : ℕ} (hj : j < d.size / dirEntrySize) :
    probe t (d.slotAt j) = none :=
  List.findSome?_eq_none_iff.mp missing j (List.mem_range.mpr hj)

theorem entry_congr (sameSize : d'.size / dirEntrySize = d.size / dirEntrySize)
    (same : ∀ j < d.size / dirEntrySize, probe t (d'.slotAt j) = probe t (d.slotAt j)) : d'.entry t = d.entry t := by
  rw [entry, entry, sameSize]
  exact findSome?_range_congr same

theorem entry_ne_zero {n : ℕ} (held : d.entry t = some n) : n ≠ 0 := by
  obtain ⟨i, -, here⟩ := List.exists_of_findSome?_eq_some held
  obtain ⟨live, -, rfl⟩ := probe_eq_some.mp here
  exact live

theorem entry_setSlot {b k : ℕ} (hk : k < nrDirEntries) {slot : DirSlot}
    (same : probe t slot = probe t (d.slotAt (b * nrDirEntries + k))) : (d.setSlot b k slot).entry t = d.entry t := by
  refine entry_congr rfl fun j _ => ?_
  rw [slotAt_setSlot d hk]
  split_ifs with here
  · rw [here, same]
  · rfl

theorem entry_of_size_succ (grown : d'.size / dirEntrySize = d.size / dirEntrySize + 1)
    (same : ∀ j < d.size / dirEntrySize, probe t (d'.slotAt j) = probe t (d.slotAt j)) :
    d'.entry t = (d.entry t).or (probe t (d'.slotAt (d.size / dirEntrySize))) := by
  rw [entry, grown, findSome?_range_succ, findSome?_range_congr same, entry]

theorem Distinct.of_write {i : ℕ} (distinct : d.Distinct)
    (kept : ∀ j < d'.size / dirEntrySize, j ≠ i → j < d.size / dirEntrySize ∧ d'.slotAt j = d.slotAt j)
    (unique : (d'.slotAt i).dInum ≠ 0 → ∀ j < d.size / dirEntrySize, j ≠ i → (d.slotAt j).dInum ≠ 0 →
      (d.slotAt j).dName ≠ (d'.slotAt i).dName) :
    d'.Distinct := by
  rintro a ha c hc ⟨liveA, liveC, same⟩
  by_cases atA : a = i <;> by_cases atC : c = i
  · exact atA.trans atC.symm
  · subst atA
    obtain ⟨hc', slotC⟩ := kept c hc atC
    rw [slotC] at liveC same
    exact absurd same.symm (unique liveA c hc' atC liveC)
  · subst atC
    obtain ⟨ha', slotA⟩ := kept a ha atA
    rw [slotA] at liveA same
    exact absurd same (unique liveC a ha' atA liveA)
  · obtain ⟨ha', slotA⟩ := kept a ha atA
    obtain ⟨hc', slotC⟩ := kept c hc atC
    rw [slotA] at liveA same
    rw [slotC] at liveC same
    exact distinct a ha' c hc' ⟨liveA, liveC, same⟩

end Directory

/-- A directory as the file system keeps it: a directory inode of whole
slots whose slots in use have distinct names. -/
structure Directory.WellFormed (d : Directory) : Prop where
  isDir : d.iMode &&& iType = iDirectory
  whole : d.size % dirEntrySize = 0
  distinct : d.Distinct

instance (d : Directory) : Decidable d.HasFree :=
  inferInstanceAs (Decidable (∃ i < d.size / dirEntrySize, (d.slotAt i).dInum = 0))

instance (d : Directory) : Decidable d.Distinct :=
  inferInstanceAs (Decidable (∀ i < d.size / dirEntrySize, ∀ j < d.size / dirEntrySize,
    (d.slotAt i).dInum ≠ 0 ∧ (d.slotAt j).dInum ≠ 0 ∧ (d.slotAt i).dName = (d.slotAt j).dName → i = j))

/-- Where `flag`'s scan stops: a slot in use named `string` for `LOOK_UP`
and `DELETE`, a free slot for `ENTER`. -/
def Stops (flag : Flag) (string : Vector Char nameSize) (slot : DirSlot) : Prop :=
  match flag with
  | .enter => slot.dInum = 0
  | _ => slot.dInum ≠ 0 ∧ slot.dName = string

theorem stops_iff {flag : Flag} {string : Vector Char nameSize} {slot : DirSlot} :
    Stops flag string slot ↔
      (flag ≠ .enter ∧ slot.dInum ≠ 0 ∧ slot.dName = string) ∨ (flag = .enter ∧ slot.dInum = 0) := by
  cases flag <;> simp [Stops]

section Scan

variable (d : Directory) (oldSlots : ℕ) (string : Vector Char nameSize) (flag : Flag)

def Missed (n : ℕ) : Prop := ∀ i < n, i < oldSlots → ¬Stops flag string (d.slotAt i)

def FoundAt (i : ℕ) : Prop :=
  flag ≠ .enter ∧ i < oldSlots ∧ Stops flag string (d.slotAt i) ∧ Missed d oldSlots string flag i

def HitAt (i : ℕ) : Prop :=
  flag = .enter ∧ i ≤ oldSlots ∧ (i < oldSlots → Stops flag string (d.slotAt i)) ∧ Missed d oldSlots string flag i

def SlotsMet (b : ℕ) : SlotScan × ℕ → Prop
  | (.found k, _) => k < nrDirEntries ∧ FoundAt d oldSlots string flag (b * nrDirEntries + k)
  | (.hit k, newSlots) =>
    k < nrDirEntries ∧ newSlots = b * nrDirEntries + k + 1 ∧ HitAt d oldSlots string flag (b * nrDirEntries + k)
  | (.next, newSlots) => Missed d oldSlots string flag newSlots ∧
    ((newSlots = (b + 1) * nrDirEntries ∧ newSlots ≤ oldSlots) ∨ (flag ≠ .enter ∧ oldSlots < newSlots))

def BlocksMet (last : ℕ) : DirScan → Prop
  | .found b k => k < nrDirEntries ∧ FoundAt d oldSlots string flag (b * nrDirEntries + k)
  | .hit b k newSlots =>
    b < last ∧ k < nrDirEntries ∧ newSlots = b * nrDirEntries + k + 1 ∧ HitAt d oldSlots string flag (b * nrDirEntries + k)
  | .done newSlots => Missed d oldSlots string flag newSlots ∧
    ((newSlots = last * nrDirEntries ∧ newSlots ≤ oldSlots) ∨ (flag ≠ .enter ∧ oldSlots < newSlots))

variable {d oldSlots string flag}

theorem Missed.succ {n : ℕ} (missed : Missed d oldSlots string flag n)
    (passed : n < oldSlots → ¬Stops flag string (d.slotAt n)) : Missed d oldSlots string flag (n + 1) := by
  intro i hi inside
  rcases Nat.lt_succ_iff_lt_or_eq.mp hi with before | rfl
  · exact missed i before inside
  · exact passed inside

theorem scanSlots_spec {b : ℕ} : ∀ left k n, k + left = nrDirEntries → n = b * nrDirEntries + k → n ≤ oldSlots →
    Missed d oldSlots string flag n →
    SlotsMet d oldSlots string flag b (scanSlots (d.blocks b) oldSlots string flag left k n)
  | 0, k, n, fill, place, inside, missed => ⟨missed, .inl ⟨by rw [Nat.succ_mul]; omega, inside⟩⟩
  | left + 1, k, n, fill, place, inside, missed => by
    subst place
    have here : d.slotAt (b * nrDirEntries + k) = d.blocks b k := d.slotAt_place (by omega)
    rw [scanSlots]
    by_cases beyond : oldSlots < b * nrDirEntries + k + 1
    · rw [if_pos beyond]
      by_cases entering : flag = .enter
      · rw [if_pos entering]
        exact ⟨by omega, rfl, entering, by omega, fun h => absurd h (by omega), missed⟩
      · rw [if_neg entering]
        exact ⟨missed.succ fun h => absurd h (by omega), .inr ⟨entering, beyond⟩⟩
    · rw [if_neg beyond]
      split_ifs with found hit
      · exact ⟨by omega, found.1, by omega, by rw [stops_iff, here]; exact .inl found, missed⟩
      · exact ⟨by omega, rfl, hit.1, by omega, fun _ => by rw [stops_iff, here]; exact .inr hit, missed⟩
      · have passed : ¬Stops flag string (d.slotAt (b * nrDirEntries + k)) := by
          rw [stops_iff, here]
          exact not_or.mpr ⟨found, hit⟩
        exact scanSlots_spec left (k + 1) _ (by omega) (by omega) (by omega) (missed.succ fun _ => passed)

theorem scanBlocks_past (looking : flag ≠ .enter) :
    ∀ left b n, oldSlots < n → scanBlocks d oldSlots string flag left b n = .done (n + left)
  | 0, _, _, _ => rfl
  | left + 1, b, n, past => by
    have first : scanSlots (d.blocks b) oldSlots string flag nrDirEntries 0 n = (.next, n + 1) := by
      rw [nrDirEntries_eq, scanSlots, if_pos (by omega), if_neg looking]
    rw [scanBlocks, first]
    dsimp only
    rw [scanBlocks_past looking left (b + 1) (n + 1) (by omega), Nat.add_right_comm, Nat.add_assoc]

theorem scanBlocks_spec : ∀ left b n, n = b * nrDirEntries → n ≤ oldSlots → Missed d oldSlots string flag n →
    BlocksMet d oldSlots string flag (b + left) (scanBlocks d oldSlots string flag left b n)
  | 0, b, n, place, inside, missed => ⟨missed, .inl ⟨place, inside⟩⟩
  | left + 1, b, n, place, inside, missed => by
    have inner := scanSlots_spec nrDirEntries 0 n (by omega) (by omega) inside missed
    rw [scanBlocks]
    rcases scanned : scanSlots (d.blocks b) oldSlots string flag nrDirEntries 0 n with ⟨_ | _ | _, n'⟩ <;>
      rw [scanned] at inner
    case found k => exact inner
    case hit k => exact ⟨by omega, inner⟩
    case next =>
      dsimp only
      obtain ⟨missed', ⟨full, inside'⟩ | ⟨looking, past⟩⟩ := inner
      · have rest := scanBlocks_spec left (b + 1) n' full inside' missed'
        rwa [Nat.add_right_comm] at rest
      · rw [scanBlocks_past looking left (b + 1) n' past]
        refine ⟨fun i _ inside => missed' i (by omega) inside, .inr ⟨looking, by omega⟩⟩

end Scan

section Search

variable {newBlock : Except ℤ Unit} {forbidden : ℕ → ℤ} {d : Directory} {string : Vector Char nameSize}
  {numb : ℕ} {flag : Flag}

theorem oldSlots_le (size : ℕ) : size / dirEntrySize ≤ (size + blockSize - 1) / blockSize * nrDirEntries := by
  rw [nrDirEntries_eq]
  unfold dirEntrySize blockSize
  omega

theorem scan_met (d : Directory) (string : Vector Char nameSize) (flag : Flag) :
    BlocksMet d (d.size / dirEntrySize) string flag ((d.size + blockSize - 1) / blockSize)
      (scanBlocks d (d.size / dirEntrySize) string flag ((d.size + blockSize - 1) / blockSize) 0 0) := by
  have met := @scanBlocks_spec d (d.size / dirEntrySize) string flag ((d.size + blockSize - 1) / blockSize) 0 0
    (by rw [Nat.zero_mul]) (Nat.zero_le _) (fun i hi => absurd hi (Nat.not_lt_zero i))
  rwa [Nat.zero_add] at met

theorem missed_all {n last : ℕ} (missed : Missed d (d.size / dirEntrySize) string flag n)
    (ended : (n = last * nrDirEntries ∧ n ≤ d.size / dirEntrySize) ∨ (flag ≠ .enter ∧ d.size / dirEntrySize < n))
    (covers : d.size / dirEntrySize ≤ last * nrDirEntries) :
    ∀ i < d.size / dirEntrySize, ¬Stops flag string (d.slotAt i) := by
  intro i hi
  exact missed i (by omega) hi

theorem probe_of_stops (looking : flag ≠ .enter) {slot : DirSlot} (stops : Stops flag string slot) :
    Directory.probe string slot = some slot.dInum := by
  obtain ⟨-, live, named⟩ | ⟨entering, -⟩ := stops_iff.mp stops
  · exact Directory.probe_eq_some.mpr ⟨live, named, rfl⟩
  · exact absurd entering looking

theorem probe_of_not_stops (looking : flag ≠ .enter) {slot : DirSlot} (passed : ¬Stops flag string slot) :
    Directory.probe string slot = none := by
  refine Directory.probe_eq_none.mpr fun live named => passed (stops_iff.mpr (.inl ⟨looking, live, named⟩))

theorem entry_of_foundAt {i : ℕ} (found : FoundAt d (d.size / dirEntrySize) string flag i) :
    d.entry string = some (d.slotAt i).dInum := by
  obtain ⟨looking, inside, stops, missed⟩ := found
  exact Directory.entry_eq_of_first inside (probe_of_stops looking stops)
    fun j hj => probe_of_not_stops looking (missed j hj (by omega))

theorem searchDir_cases (isDir : d.iMode &&& iType = iDirectory) (pass : ∀ bits, forbidden bits = okCode) :
    (∃ b k, k < nrDirEntries ∧ FoundAt d (d.size / dirEntrySize) string flag (b * nrDirEntries + k) ∧
      searchDir newBlock forbidden d string numb flag =
        if flag = .delete then (okCode, d.setSlot b k { d.blocks b k with dInum := 0 }, numb)
        else (okCode, d, (d.blocks b k).dInum)) ∨
    (∃ b k, b < (d.size + blockSize - 1) / blockSize ∧ k < nrDirEntries ∧
      HitAt d (d.size / dirEntrySize) string flag (b * nrDirEntries + k) ∧
      searchDir newBlock forbidden d string numb flag =
        (okCode, enterSlot d b k string numb (d.size / dirEntrySize) (b * nrDirEntries + k + 1), numb)) ∨
    ((∀ i < d.size / dirEntrySize, ¬Stops flag string (d.slotAt i)) ∧
      (flag ≠ .enter → searchDir newBlock forbidden d string numb flag = (eNoEnt, d, numb)) ∧
      (flag = .enter → (d.size + blockSize - 1) / blockSize * nrDirEntries = d.size / dirEntrySize ∧
        searchDir newBlock forbidden d string numb flag =
          match newBlock with
          | .error err => (err, d, numb)
          | .ok () =>
            (okCode, enterSlot { d with blocks := Function.update d.blocks (d.size / blockSize) fun _ => DirSlot.zero }
              (d.size / blockSize) 0 string numb (d.size / dirEntrySize) (d.size / dirEntrySize + 1), numb))) := by
  have met := scan_met d string flag
  rw [searchDir, if_neg (not_not.mpr isDir), if_neg (not_not.mpr (pass _))]
  dsimp only
  cases scanned : scanBlocks d (d.size / dirEntrySize) string flag ((d.size + blockSize - 1) / blockSize) 0 0 with
  | found b k =>
    rw [scanned] at met
    exact .inl ⟨b, k, met.1, met.2, rfl⟩
  | hit b k n =>
    rw [scanned] at met
    obtain ⟨below, hk, rfl, hit⟩ := met
    exact .inr (.inl ⟨b, k, below, hk, hit, rfl⟩)
  | done n =>
    rw [scanned] at met
    obtain ⟨missed, ended⟩ := met
    refine .inr (.inr ⟨missed_all missed ended (oldSlots_le d.size), fun looking => if_pos looking, fun entering => ?_⟩)
    -- `ENTER` has passed every slot of every block: the blocks are full
    obtain ⟨full, inside⟩ := ended.resolve_right fun looking => looking.1 entering
    obtain rfl : n = d.size / dirEntrySize := le_antisymm inside (full ▸ oldSlots_le d.size)
    exact ⟨full.symm, by dsimp only; rw [if_neg (not_not.mpr entering)]⟩

theorem searchDir_lookUp (isDir : d.iMode &&& iType = iDirectory) (pass : ∀ bits, forbidden bits = okCode) :
    searchDir newBlock forbidden d string numb .lookUp =
      match d.entry string with
      | some n => (okCode, d, n)
      | none => (eNoEnt, d, numb) := by
  rcases @searchDir_cases newBlock forbidden d string numb .lookUp isDir pass with
    ⟨b, k, hk, found, ran⟩ | ⟨b, k, -, -, hit, -⟩ | ⟨passed, missing, -⟩
  · rw [ran, if_neg (by decide), entry_of_foundAt found, d.slotAt_place hk]
  · exact absurd hit.1 (by decide)
  · rw [missing (by decide), Directory.entry_eq_none fun j hj => probe_of_not_stops (by decide) (passed j hj)]

theorem blocks_fill {size : ℕ} (whole : size % dirEntrySize = 0) (even : size / dirEntrySize % nrDirEntries = 0) :
    (size + blockSize - 1) / blockSize * nrDirEntries = size / dirEntrySize := by
  rw [nrDirEntries_eq] at even ⊢
  unfold dirEntrySize blockSize at *
  omega

theorem lastBlock_place {size : ℕ} (whole : size % dirEntrySize = 0)
    (full : (size + blockSize - 1) / blockSize * nrDirEntries = size / dirEntrySize) :
    size / blockSize * nrDirEntries + 0 = size / dirEntrySize := by
  rw [nrDirEntries_eq] at full ⊢
  unfold dirEntrySize blockSize at *
  omega

theorem not_hasFree {n : ℕ} (missed : Missed d (d.size / dirEntrySize) string .enter n)
    (covers : d.size / dirEntrySize ≤ n) : ¬d.HasFree := by
  rintro ⟨i, inside, free⟩
  exact missed i (by omega) inside free

theorem slotAt_zeroBlock (full : (d.size + blockSize - 1) / blockSize * nrDirEntries = d.size / dirEntrySize)
    {j : ℕ} (hj : j < d.size / dirEntrySize) :
    Directory.slotAt { d with blocks := Function.update d.blocks (d.size / blockSize) fun _ => DirSlot.zero } j =
      d.slotAt j := by
  have apart : j / nrDirEntries ≠ d.size / blockSize := by
    rw [nrDirEntries_eq] at full ⊢
    unfold dirEntrySize blockSize at *
    omega
  unfold Directory.slotAt
  dsimp only
  rw [Function.update_of_ne apart]

theorem Directory.WellFormed.setSlot (ok : d.WellFormed) {b k : ℕ} (hk : k < nrDirEntries) {slot : DirSlot}
    (unique : slot.dInum ≠ 0 → ∀ j < d.size / dirEntrySize, j ≠ b * nrDirEntries + k → (d.slotAt j).dInum ≠ 0 →
      (d.slotAt j).dName ≠ slot.dName) :
    (d.setSlot b k slot).WellFormed := by
  refine ⟨ok.isDir, ok.whole, ok.distinct.of_write (i := b * nrDirEntries + k) (fun j hj other => ⟨hj, ?_⟩) ?_⟩
  · rw [Directory.slotAt_setSlot d hk, if_neg other]
  · rw [Directory.slotAt_setSlot d hk, if_pos rfl]
    exact unique

theorem Directory.WellFormed.grow (ok : d.WellFormed) {d₁ : Directory} (sameMode : d₁.iMode = d.iMode)
    (same : ∀ j < d.size / dirEntrySize, d₁.slotAt j = d.slotAt j) {b k : ℕ} (hk : k < nrDirEntries)
    (place : b * nrDirEntries + k = d.size / dirEntrySize) {slot : DirSlot}
    (unique : slot.dInum ≠ 0 → ∀ j < d.size / dirEntrySize, (d.slotAt j).dInum ≠ 0 → (d.slotAt j).dName ≠ slot.dName) :
    Directory.WellFormed { d₁.setSlot b k slot with size := (d.size / dirEntrySize + 1) * dirEntrySize } := by
  have slots : (d.size / dirEntrySize + 1) * dirEntrySize / dirEntrySize = d.size / dirEntrySize + 1 :=
    Nat.mul_div_cancel _ (by decide)
  refine ⟨sameMode ▸ ok.isDir, Nat.mul_mod_left _ _, ok.distinct.of_write (i := d.size / dirEntrySize) ?_ ?_⟩
  · intro j hj other
    change j < (d.size / dirEntrySize + 1) * dirEntrySize / dirEntrySize at hj
    rw [slots] at hj
    refine ⟨by omega, ?_⟩
    change (d₁.setSlot b k slot).slotAt j = _
    rw [Directory.slotAt_setSlot d₁ hk, if_neg (by omega), same j (by omega)]
  · have written : Directory.slotAt { d₁.setSlot b k slot with size := (d.size / dirEntrySize + 1) * dirEntrySize }
        (d.size / dirEntrySize) = slot := by
      change (d₁.setSlot b k slot).slotAt _ = _
      rw [Directory.slotAt_setSlot d₁ hk, if_pos place.symm]
    rw [written]
    exact fun live j hj _ => unique live j hj

theorem enter_at_free {b k : ℕ} (fresh : d.entry string = none) (named : numb ≠ 0) (hk : k < nrDirEntries)
    (inside : b * nrDirEntries + k < d.size / dirEntrySize) (free : (d.slotAt (b * nrDirEntries + k)).dInum = 0) :
    (enterSlot d b k string numb (d.size / dirEntrySize) (b * nrDirEntries + k + 1)).size = d.size ∧
    (enterSlot d b k string numb (d.size / dirEntrySize) (b * nrDirEntries + k + 1)).entry =
      Function.update d.entry string (some numb) := by
  rw [enterSlot, if_neg (by omega)]
  refine ⟨rfl, funext fun t => ?_⟩
  by_cases same : t = string
  · subst same
    rw [Function.update_self]
    refine Directory.entry_eq_of_first inside ?_ fun j hj => ?_
    · rw [Directory.slotAt_setSlot d hk, if_pos rfl]
      exact Directory.probe_eq_some.mpr ⟨named, rfl, rfl⟩
    · rw [Directory.slotAt_setSlot d hk, if_neg (by omega)]
      exact Directory.probe_of_entry_none fresh (by omega)
  · rw [Function.update_of_ne same]
    refine Directory.entry_setSlot hk ?_
    rw [Directory.probe_eq_none.mpr fun _ other => same other.symm,
      Directory.probe_eq_none.mpr fun live => absurd free live]

theorem enter_at_end {d₁ : Directory} {b k : ℕ} (whole : d.size % dirEntrySize = 0)
    (same : ∀ j < d.size / dirEntrySize, d₁.slotAt j = d.slotAt j) (fresh : d.entry string = none)
    (named : numb ≠ 0) (hk : k < nrDirEntries) (place : b * nrDirEntries + k = d.size / dirEntrySize) :
    (enterSlot d₁ b k string numb (d.size / dirEntrySize) (d.size / dirEntrySize + 1)).size = d.size + dirEntrySize ∧
    (enterSlot d₁ b k string numb (d.size / dirEntrySize) (d.size / dirEntrySize + 1)).entry =
      Function.update d.entry string (some numb) := by
  rw [enterSlot, if_pos (Nat.lt_succ_self _)]
  have grown : (d.size / dirEntrySize + 1) * dirEntrySize = d.size + dirEntrySize := by
    unfold dirEntrySize at *
    omega
  refine ⟨grown, funext fun t => ?_⟩
  have kept : ∀ j < d.size / dirEntrySize,
      Directory.probe t ((d₁.setSlot b k ⟨numb, string⟩).slotAt j) = Directory.probe t (d.slotAt j) := by
    intro j hj
    rw [Directory.slotAt_setSlot d₁ hk, if_neg (by omega), same j hj]
  have added := @Directory.entry_of_size_succ d
    { d₁.setSlot b k ⟨numb, string⟩ with size := (d.size / dirEntrySize + 1) * dirEntrySize } t
    (Nat.mul_div_cancel _ (by decide)) kept
  rw [added]
  change (d.entry t).or (Directory.probe t ((d₁.setSlot b k ⟨numb, string⟩).slotAt (d.size / dirEntrySize))) = _
  rw [Directory.slotAt_setSlot d₁ hk, if_pos place.symm]
  by_cases named' : t = string
  · subst named'
    rw [Function.update_self, fresh, Option.none_or]
    exact Directory.probe_eq_some.mpr ⟨named, rfl, rfl⟩
  · rw [Function.update_of_ne named', Directory.probe_eq_none.mpr fun _ other => named' other.symm, Option.or_none]

theorem searchDir_delete (ok : d.WellFormed) (pass : ∀ bits, forbidden bits = okCode) :
    (searchDir newBlock forbidden d string numb .delete).1 = (if d.entry string = none then eNoEnt else okCode) ∧
    (searchDir newBlock forbidden d string numb .delete).2.1.size = d.size ∧
    (searchDir newBlock forbidden d string numb .delete).2.1.entry = Function.update d.entry string none := by
  rcases @searchDir_cases newBlock forbidden d string numb .delete ok.isDir pass with
    ⟨b, k, hk, found, ran⟩ | ⟨b, k, -, -, hit, -⟩ | ⟨passed, missing, -⟩
  · rw [ran, if_pos rfl]
    obtain ⟨-, liveHere, named⟩ := (stops_iff.mp found.2.2.1).resolve_right (by simp)
    refine ⟨by rw [entry_of_foundAt found]; rfl, rfl, funext fun t => ?_⟩
    by_cases same : t = string
    · subst same
      rw [Function.update_self]
      refine Directory.entry_eq_none fun j hj => ?_
      rw [Directory.slotAt_setSlot d hk]
      split_ifs with here
      · exact Directory.probe_eq_none.mpr fun live => absurd rfl live
      · refine Directory.probe_eq_none.mpr fun live other => here ?_
        exact ok.distinct j hj _ found.2.1 ⟨live, liveHere, other.trans named.symm⟩
    · rw [Function.update_of_ne same]
      refine Directory.entry_setSlot hk ?_
      rw [Directory.probe_eq_none.mpr fun live => absurd rfl live,
        Directory.probe_eq_none.mpr fun _ other => same (other.symm.trans named)]
  · exact absurd hit.1 (by decide)
  · have absent := Directory.entry_eq_none fun j hj => probe_of_not_stops (by decide) (passed j hj)
    rw [missing (by decide)]
    exact ⟨by rw [if_pos absent], rfl, by rw [← absent, Function.update_eq_self]⟩

theorem searchDir_enter (ok : d.WellFormed) (pass : ∀ bits, forbidden bits = okCode)
    (fresh : d.entry string = none) (named : numb ≠ 0)
    (room : d.HasFree ∨ d.size / dirEntrySize % nrDirEntries ≠ 0 ∨ newBlock = .ok ()) :
    (searchDir newBlock forbidden d string numb .enter).1 = okCode ∧
    (searchDir newBlock forbidden d string numb .enter).2.1.size =
      (if d.HasFree then d.size else d.size + dirEntrySize) ∧
    (searchDir newBlock forbidden d string numb .enter).2.1.entry = Function.update d.entry string (some numb) := by
  rcases @searchDir_cases newBlock forbidden d string numb .enter ok.isDir pass with
    ⟨b, k, -, found, -⟩ | ⟨b, k, -, hk, ⟨-, inside, free, missed⟩, ran⟩ | ⟨passed, -, entering⟩
  · exact absurd rfl found.1
  · rw [ran]
    by_cases within : b * nrDirEntries + k < d.size / dirEntrySize
    · -- a free slot inside the directory
      rw [if_pos ⟨_, within, free within⟩]
      exact ⟨rfl, enter_at_free fresh named hk within (free within)⟩
    · -- the first slot past the size, in the directory's last block
      have place : b * nrDirEntries + k = d.size / dirEntrySize := by omega
      rw [place, if_neg (not_hasFree missed place.ge)]
      exact ⟨rfl, enter_at_end ok.whole (fun _ _ => rfl) fresh named hk place⟩
  · -- every slot is in use and the blocks are full: the slot comes from `new_block`
    obtain ⟨full, ran⟩ := entering rfl
    have noFree : ¬d.HasFree := fun ⟨i, hi, free⟩ => passed i hi free
    have grows : newBlock = .ok () := by
      refine (room.resolve_left noFree).resolve_left ?_
      rw [← full]
      exact not_not.mpr (Nat.mul_mod_left _ _)
    subst grows
    rw [ran, if_neg noFree]
    exact ⟨rfl, enter_at_end ok.whole (fun _ => slotAt_zeroBlock full) fresh named (by decide)
      (lastBlock_place ok.whole full)⟩

theorem searchDir_enter_refused (ok : d.WellFormed) (pass : ∀ bits, forbidden bits = okCode) (full : ¬d.HasFree)
    (even : d.size / dirEntrySize % nrDirEntries = 0) {err : ℤ} (refused : newBlock = .error err) :
    searchDir newBlock forbidden d string numb .enter = (err, d, numb) := by
  rcases @searchDir_cases newBlock forbidden d string numb .enter ok.isDir pass with
    ⟨b, k, -, found, -⟩ | ⟨b, k, below, hk, ⟨-, -, free, -⟩, -⟩ | ⟨-, -, entering⟩
  · exact absurd rfl found.1
  · have within : b * nrDirEntries + k < d.size / dirEntrySize := by
      rw [← blocks_fill ok.whole even]
      calc b * nrDirEntries + k < (b + 1) * nrDirEntries := by rw [Nat.succ_mul]; omega
        _ ≤ (d.size + blockSize - 1) / blockSize * nrDirEntries := Nat.mul_le_mul_right _ below
    exact absurd ⟨_, within, free within⟩ full
  · rw [(entering rfl).2, refused]

theorem search_dir_refines_name_map (ok : d.WellFormed) (pass : ∀ bits, forbidden bits = okCode) :
    (∀ t n, d.entry t = some n → n ≠ 0) ∧
    searchDir newBlock forbidden d string numb .lookUp =
      (match d.entry string with
       | some n => (okCode, d, n)
       | none => (eNoEnt, d, numb)) ∧
    ((searchDir newBlock forbidden d string numb .delete).1 = (if d.entry string = none then eNoEnt else okCode) ∧
      (searchDir newBlock forbidden d string numb .delete).2.1.size = d.size ∧
      (searchDir newBlock forbidden d string numb .delete).2.1.entry = Function.update d.entry string none) ∧
    (d.entry string = none → numb ≠ 0 → (d.HasFree ∨ d.size / dirEntrySize % nrDirEntries ≠ 0 ∨ newBlock = .ok ()) →
      (searchDir newBlock forbidden d string numb .enter).1 = okCode ∧
      (searchDir newBlock forbidden d string numb .enter).2.1.size =
        (if d.HasFree then d.size else d.size + dirEntrySize) ∧
      (searchDir newBlock forbidden d string numb .enter).2.1.entry = Function.update d.entry string (some numb)) ∧
    (¬d.HasFree → d.size / dirEntrySize % nrDirEntries = 0 → ∀ err, newBlock = .error err →
      searchDir newBlock forbidden d string numb .enter = (err, d, numb)) :=
  ⟨fun _ _ held => Directory.entry_ne_zero held, searchDir_lookUp ok.isDir pass, searchDir_delete ok pass,
    fun fresh named room => searchDir_enter ok pass fresh named room,
    fun full even _ refused => searchDir_enter_refused ok pass full even refused⟩

def slotName (c : Char) : Vector Char nameSize := Vector.ofFn fun i => if i.val = 0 then c else nul

def threeSlots : Directory :=
  ⟨0o040755, 48, fun b k =>
    if b = 0 ∧ k = 0 then ⟨1, slotName '.'⟩ else if b = 0 ∧ k = 2 then ⟨7, slotName 'a'⟩ else DirSlot.zero⟩

theorem enter_into_three_slots :
    threeSlots.WellFormed ∧ threeSlots.entry (slotName 'b') = none ∧ threeSlots.HasFree ∧
    (searchDir (.error (-28)) (fun _ => okCode) threeSlots (slotName 'b') 9 .enter).2.1.entry =
      Function.update threeSlots.entry (slotName 'b') (some 9) := by
  have ok : threeSlots.WellFormed := ⟨by decide, by decide, by decide⟩
  have fresh : threeSlots.entry (slotName 'b') = none := by decide
  have free : threeSlots.HasFree := by decide
  have refines := @search_dir_refines_name_map (.error (-28)) (fun _ => okCode) threeSlots (slotName 'b') 9 ok
    fun _ => rfl
  exact ⟨ok, fresh, free, (refines.2.2.2.1 fresh (by decide) (.inl free)).2.2⟩

def fullBlock : Directory := ⟨0o040755, 1024, fun _ k => ⟨k + 1, slotName (Char.ofNat (48 + k))⟩⟩

theorem slotName_inj {c c' : Char} (same : slotName c = slotName c') : c = c' :=
  congrArg (fun name : Vector Char nameSize => name.get ⟨0, by decide⟩) same

theorem fullBlock_name {i : ℕ} (hi : i < 64) {c : Char} (same : slotName (Char.ofNat (48 + i)) = slotName c) :
    c.toNat = 48 + i := by
  rw [← slotName_inj same]
  simp only [Char.ofNat, Char.ofNatAux, Nat.isValidChar]
  rw [dif_pos (Or.inl (by omega))]
  rfl

theorem enter_into_full_block_refused :
    fullBlock.WellFormed ∧ fullBlock.entry (slotName 'z') = none ∧
    (searchDir (.error (-28)) (fun _ => okCode) fullBlock (slotName 'z') 9 .enter).1 = -28 := by
  have slots : fullBlock.size / dirEntrySize = 64 := rfl
  have ok : fullBlock.WellFormed := by
    refine ⟨by decide, by decide, ?_⟩
    rintro i hi j hj ⟨-, -, same⟩
    rw [slots] at hi hj
    have named := fullBlock_name (Nat.mod_lt i (by decide) : i % nrDirEntries < 64) same
    rw [fullBlock_name (Nat.mod_lt j (by decide) : j % nrDirEntries < 64) rfl, nrDirEntries_eq] at named
    omega
  have fresh : fullBlock.entry (slotName 'z') = none := by
    refine Directory.entry_eq_none fun j _ => Directory.probe_eq_none.mpr fun _ same => ?_
    have named := fullBlock_name (Nat.mod_lt j (by decide) : j % nrDirEntries < 64) same
    rw [nrDirEntries_eq, show 'z'.toNat = 122 from rfl] at named
    omega
  have full : ¬fullBlock.HasFree := by
    rintro ⟨i, -, free⟩
    exact Nat.succ_ne_zero _ free
  have refused := @searchDir_enter_refused (.error (-28)) (fun _ => okCode) fullBlock (slotName 'z') 9 ok
    (fun _ => rfl) full (by decide) (-28) rfl
  exact ⟨ok, fresh, by rw [refused]⟩

end Search

/-! ### Runs of calls

A directory serves the file system's calls one after another. While
`new_block` finds room and `ENTER` brings only names the directory does not
hold, every call keeps the directory well formed and moves its name map as
the call means to. -/

structure DirCall where
  flag : Flag
  string : Vector Char nameSize
  numb : ℕ
  deriving DecidableEq, Repr

namespace DirCall

def update (m : Vector Char nameSize → Option ℕ) (call : DirCall) : Vector Char nameSize → Option ℕ :=
  match call.flag with
  | .lookUp => m
  | .enter => Function.update m call.string (some call.numb)
  | .delete => Function.update m call.string none

def Allowed (m : Vector Char nameSize → Option ℕ) (call : DirCall) : Prop :=
  call.flag = .enter → m call.string = none ∧ call.numb ≠ 0

/-- The directory a call leaves when `new_block` finds room. -/
def apply (forbidden : ℕ → ℤ) (d : Directory) (call : DirCall) : Directory :=
  (searchDir (.ok ()) forbidden d call.string call.numb call.flag).2.1

end DirCall

section Run

variable {forbidden : ℕ → ℤ} {d : Directory}

end Run

end Xinim.Fs
