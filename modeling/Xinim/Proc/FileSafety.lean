import Xinim.Proc.FileOps

/-! What every run of the file calls keeps, whatever the order in which the
processes run and block: the descriptor tables stay sound, and every byte a
write reported written to a pipe is, in order, either copied out to a reader's
buffer or still in the pipe. -/

namespace Xinim.Proc

open Xinim.Kernel (UserMem isUserAddress copyToUser)

/-! ### Tables -/

/-- What the calls keep of a descriptor table: the hint of `allocate_fd` is
sound, and every pipe pointer is one `new Pipe()` has handed out. -/
structure TableOk (n : ℕ) (t : FileDescriptorTable) : Prop where
  hinted : t.Hinted
  below : t.Entries fun e => e.privateData < n

namespace TableOk

variable {n : ℕ} {t : FileDescriptorTable}

theorem init (pos : 0 < n) : TableOk n .init := ⟨FileDescriptorTable.hinted_init, fun _ => pos⟩

theorem mono (ok : TableOk n t) {m : ℕ} (le : n ≤ m) : TableOk m t :=
  ⟨ok.hinted, fun i => lt_of_lt_of_le (ok.below i) le⟩

theorem allocateFd (ok : TableOk n t) (pos : 0 < n) : TableOk n t.allocateFd.1 :=
  ⟨ok.hinted.allocateFd, ok.below.allocateFd pos⟩

theorem closeFd (ok : TableOk n t) (pos : 0 < n) (fd : ℤ) : TableOk n (t.closeFd fd).1 :=
  ⟨ok.hinted.closeFd fd, ok.below.closeFd pos fd⟩

theorem dupFd (ok : TableOk n t) (pos : 0 < n) (oldfd newfd : ℤ) : TableOk n (t.dupFd oldfd newfd).1 :=
  ⟨ok.hinted.dupFd oldfd newfd, ok.below.dupFd pos pos (fun _ below => below) oldfd newfd⟩

theorem cloneTo (ok : TableOk n t) (pos : 0 < n) : TableOk n t.cloneTo :=
  ⟨ok.hinted.cloneTo, ok.below.cloneTo pos⟩

theorem setEntry (ok : TableOk n t) {i : Fd} {e : FileDescriptor} (isOpen : e.isOpen = true)
    (below : e.privateData < n) : TableOk n (t.setEntry i e) :=
  ⟨ok.hinted.setEntry fun _ => isOpen, ok.below.setEntry below⟩

theorem modify (ok : TableOk n t) {i : Fd} {e : FileDescriptor} (sameOpen : e.isOpen = (t.fds i).isOpen)
    (samePipe : e.privateData = (t.fds i).privateData) : TableOk n (t.setEntry i e) :=
  ⟨ok.hinted.setEntry fun isOpen => sameOpen.trans isOpen, ok.below.setEntry (samePipe ▸ ok.below i)⟩

theorem setFd (ok : TableOk n t) {fd : ℤ} {e : FileDescriptor} (isOpen : e.isOpen = true)
    (below : e.privateData < n) : TableOk n (Sys.setFd t fd e) := by
  unfold Sys.setFd
  cases t.getFd fd with
  | none => exact ok
  | some i => exact ok.setEntry isOpen below

theorem dupfdLoop (pos : 0 < n) (arg : ℤ) :
    ∀ (fuel : ℕ) {t : FileDescriptorTable} (newfd : ℤ), TableOk n t → TableOk n (dupfdLoop arg fuel t newfd).1
  | 0, _, _, ok => ok
  | fuel + 1, t, newfd, ok => by
    unfold Xinim.Proc.dupfdLoop
    by_cases turn : newfd < arg ∧ 0 ≤ newfd
    · rw [if_pos turn]
      exact dupfdLoop pos arg fuel _ ((ok.closeFd pos newfd).allocateFd pos)
    · rw [if_neg turn]
      exact ok

theorem placeConsole (ok : TableOk n t) (pos : 0 < n) (fd : ℤ) (fileFlags : ℕ) :
    TableOk n (Xinim.Proc.placeConsole t fd fileFlags) := by
  unfold Xinim.Proc.placeConsole
  by_cases expected : t.allocateFd.2 = fd
  · rw [if_pos expected]
    exact (ok.allocateFd pos).setFd rfl pos
  · rw [if_neg expected]
    exact ok.allocateFd pos

theorem stdTable (pos : 0 < n) : TableOk n Xinim.Proc.stdTable :=
  (((init pos).placeConsole pos 0 _).placeConsole pos 1 _).placeConsole pos 2 _

end TableOk

theorem tableOk_update {n : ℕ} {tables : Pid → FileDescriptorTable} (all : ∀ p, TableOk n (tables p))
    {cur : Pid} {t : FileDescriptorTable} (ok : TableOk n t) : ∀ p, TableOk n (Function.update tables cur t p) := by
  intro p
  by_cases same : p = cur
  · subst same
    rw [Function.update_self]
    exact ok
  · rw [Function.update_of_ne same]
    exact all p

/-! ### Sound states -/

/-- What a call still inside the kernel needs to go on: the pipe it waits on
was handed out, and a reader's buffer is user memory for the bytes it may take. -/
def Waiting.Fits (n : ℕ) : Waiting → Prop
  | .read a buf count => a < n ∧ isUserAddress buf (UInt64.ofNat count) = true ∧ count ≤ 4096
  | .write a _ => a < n
  | .dupfd _ _ _ => True

theorem Waiting.Fits.mono {n m : ℕ} (le : n ≤ m) : ∀ {w : Waiting}, w.Fits n → w.Fits m
  | .read _ _ _, ⟨below, valid, small⟩ => ⟨lt_of_lt_of_le below le, valid, small⟩
  | .write _ _, below => lt_of_lt_of_le below le
  | .dupfd _ _ _, _ => trivial

namespace Sys

/-- The invariant of the system state: pipes are well formed, the addresses
`new Pipe()` has not handed out hold fresh pipes, tables are sound and every
waiting call can go on. -/
structure Sound (s : Sys) : Prop where
  wf : ∀ a, (s.pipes a).Wf
  fresh : ∀ a, s.nextPipe ≤ a → s.pipes a = Pipe.create
  tables : ∀ p, TableOk s.nextPipe (s.fdTable p)
  waiting : ∀ p w, s.waiting p = some w → w.Fits s.nextPipe

variable {s : Sys}

theorem Sound.setTable (sound : s.Sound) {cur : Pid} {t : FileDescriptorTable} (ok : TableOk s.nextPipe t) :
    (s.setTable cur t).Sound :=
  ⟨sound.wf, sound.fresh, tableOk_update sound.tables ok, sound.waiting⟩

theorem Sound.setWaiting (sound : s.Sound) {cur : Pid} {w : Option Waiting}
    (fits : ∀ w', w = some w' → w'.Fits s.nextPipe) : (s.setWaiting cur w).Sound := by
  refine ⟨sound.wf, sound.fresh, sound.tables, fun p w' waiting => ?_⟩
  by_cases same : p = cur
  · subst same
    rw [Sys.setWaiting_waiting, Function.update_self] at waiting
    exact fits w' waiting
  · rw [Sys.setWaiting_waiting, Function.update_of_ne same] at waiting
    exact sound.waiting p w' waiting

theorem Sound.pipeCall (sound : s.Sound) {α : Type} {a : ℕ} (below : a < s.nextPipe) {call : PipeCall α}
    (wf : call.pipe.Wf) : (s.pipeCall a call).Sound := by
  refine ⟨fun b => ?_, fun b fresh => ?_, sound.tables, sound.waiting⟩
  · by_cases same : b = a
    · subst same
      rw [Sys.pipeCall_pipes, Function.update_self]
      exact wf
    · rw [Sys.pipeCall_pipes, Function.update_of_ne same]
      exact sound.wf b
  · have other : b ≠ a := by
      rw [Sys.pipeCall_nextPipe] at fresh
      omega
    rw [Sys.pipeCall_pipes, Function.update_of_ne other]
    exact sound.fresh b fresh

theorem Sound.newPipe (sound : s.Sound) {cur : Pid} {t : FileDescriptorTable} (ok : TableOk (s.nextPipe + 1) t)
    (mem : UserMem) :
    ({ s with
        fdTable := Function.update s.fdTable cur t
        pipes := Function.update s.pipes s.nextPipe Pipe.create
        nextPipe := s.nextPipe + 1
        nextPipe_pos := Nat.succ_pos _
        mem } : Sys).Sound := by
  have grown : s.nextPipe ≤ s.nextPipe + 1 := Nat.le_succ _
  refine ⟨fun b => ?_, fun b fresh => ?_, tableOk_update (fun p => (sound.tables p).mono grown) ok,
    fun p w waiting => (sound.waiting p w waiting).mono grown⟩
  · show (Function.update s.pipes s.nextPipe Pipe.create b).Wf
    by_cases same : b = s.nextPipe
    · subst same
      rw [Function.update_self]
      exact Pipe.wf_create
    · rw [Function.update_of_ne same]
      exact sound.wf b
  · show Function.update s.pipes s.nextPipe Pipe.create b = Pipe.create
    dsimp only at fresh
    rw [Function.update_of_ne (by omega)]
    exact sound.fresh b (by omega)

end Sys

/-! ### The record of a run -/

/-- The bytes, per pipe, that the calls of a run reported written to it and
copied out of it to a reader's buffer, in order. -/
structure Streams where
  accepted : ℕ → List UInt8
  delivered : ℕ → List UInt8

namespace Streams

def empty : Streams := ⟨fun _ => [], fun _ => []⟩

def record (l : Streams) : Transfer → Streams
  | .none => l
  | .wrote a bytes => { l with accepted := Function.update l.accepted a (l.accepted a ++ bytes) }
  | .read a bytes => { l with delivered := Function.update l.delivered a (l.delivered a ++ bytes) }

def Law (l : Streams) (pipes : ℕ → Pipe) : Prop := ∀ a, l.accepted a = l.delivered a ++ (pipes a).bytes

variable {l : Streams} {pipes : ℕ → Pipe}

theorem Law.update (law : l.Law pipes) {a : ℕ} {q : Pipe} {moved : Transfer}
    (at_a : (l.record moved).accepted a = (l.record moved).delivered a ++ q.bytes)
    (others : ∀ b ≠ a, (l.record moved).accepted b = l.accepted b ∧ (l.record moved).delivered b = l.delivered b) :
    (l.record moved).Law (Function.update pipes a q) := by
  intro b
  by_cases same : b = a
  · subst same
    rw [Function.update_self]
    exact at_a
  · rw [Function.update_of_ne same, (others b same).1, (others b same).2]
    exact law b

theorem Law.keep (law : l.Law pipes) {a : ℕ} {q : Pipe} (same : q.bytes = (pipes a).bytes) :
    l.Law (Function.update pipes a q) := by
  intro b
  by_cases at_a : b = a
  · subst at_a
    rw [Function.update_self, same]
    exact law b
  · rw [Function.update_of_ne at_a]
    exact law b

theorem Law.wrote (law : l.Law pipes) {a : ℕ} {q : Pipe} {bytes : List UInt8}
    (added : q.bytes = (pipes a).bytes ++ bytes) : (l.record (.wrote a bytes)).Law (Function.update pipes a q) := by
  refine law.update ?_ fun b other => ⟨Function.update_of_ne other _ _, rfl⟩
  show Function.update l.accepted a (l.accepted a ++ bytes) a = l.delivered a ++ q.bytes
  rw [Function.update_self, added, law a, List.append_assoc]

theorem Law.read (law : l.Law pipes) {a : ℕ} {q : Pipe} {bytes : List UInt8}
    (taken : bytes ++ q.bytes = (pipes a).bytes) : (l.record (.read a bytes)).Law (Function.update pipes a q) := by
  refine law.update ?_ fun b other => ⟨rfl, Function.update_of_ne other _ _⟩
  show l.accepted a = Function.update l.delivered a (l.delivered a ++ bytes) a ++ q.bytes
  rw [Function.update_self, law a, ← taken, List.append_assoc]

end Streams

structure Tracked where
  sys : Sys
  streams : Streams

namespace Tracked

def boot (k : Kernel) (mem : UserMem) : Tracked := ⟨Sys.boot k mem, .empty⟩

def step (t : Tracked) (ev : Event) : Tracked :=
  ⟨(t.sys.step ev).sys, t.streams.record (t.sys.step ev).moved⟩

def run (t : Tracked) (events : List Event) : Tracked := events.foldl step t

structure Consistent (t : Tracked) : Prop where
  sound : t.sys.Sound
  law : t.streams.Law t.sys.pipes

end Tracked

def ReadEndsStayClosed (s : Sys) (l : Streams) (o : Outcome) : Prop :=
  ∀ a, (s.pipes a).readEndOpen = false → (o.sys.pipes a).readEndOpen = false ∧ (l.record o.moved).accepted a = l.accepted a

/-- An outcome of a call from `s` keeps the system consistent and closed read
ends closed, whatever was recorded of the run before. -/
def Keeps (s : Sys) (o : Outcome) : Prop :=
  ∀ l : Streams, Tracked.Consistent ⟨s, l⟩ → Tracked.Consistent ⟨o.sys, l.record o.moved⟩ ∧ ReadEndsStayClosed s l o

section Keeps

variable {s : Sys}

theorem stayClosed_of {l : Streams} {o : Outcome} {a : ℕ} {q : Pipe} (pipes : o.sys.pipes = Function.update s.pipes a q)
    (stays : (s.pipes a).readEndOpen = false → q.readEndOpen = false)
    (accepted : ∀ b, (s.pipes b).readEndOpen = false → (l.record o.moved).accepted b = l.accepted b) :
    ReadEndsStayClosed s l o := by
  intro b closed
  refine ⟨?_, accepted b closed⟩
  rw [pipes]
  by_cases same : b = a
  · subst same
    rw [Function.update_self]
    exact stays closed
  · rw [Function.update_of_ne same]
    exact closed

theorem keeps_of_frame {o : Outcome} (pipes : o.sys.pipes = s.pipes) (next : o.sys.nextPipe = s.nextPipe)
    (waiting : o.sys.waiting = s.waiting) (moved : o.moved = .none)
    (tables : (∀ p, TableOk s.nextPipe (s.fdTable p)) → ∀ p, TableOk s.nextPipe (o.sys.fdTable p)) : Keeps s o := by
  rintro l ⟨sound, law⟩
  rw [moved]
  refine ⟨⟨⟨?_, ?_, ?_, ?_⟩, ?_⟩, fun a closed => ⟨by rw [pipes]; exact closed, by rw [moved]; rfl⟩⟩
  · rw [pipes]
    exact sound.wf
  · rw [pipes, next]
    exact sound.fresh
  · rw [next]
    exact tables sound.tables
  · rw [waiting, next]
    exact sound.waiting
  · show l.Law o.sys.pipes
    rw [pipes]
    exact law

def SameFiles (s' s : Sys) : Prop :=
  s'.pipes = s.pipes ∧ s'.nextPipe = s.nextPipe ∧ s'.waiting = s.waiting ∧ s'.fdTable = s.fdTable

theorem SameFiles.refl : SameFiles s s := ⟨rfl, rfl, rfl, rfl⟩

theorem keeps_ret_of {s' : Sys} (same : SameFiles s' s) (r : ℤ) : Keeps s (s'.ret r) :=
  keeps_of_frame same.1 same.2.1 same.2.2.1 rfl fun tables => by
    rw [Sys.ret_sys, same.2.2.2]
    exact tables

theorem keeps_ret (r : ℤ) : Keeps s (s.ret r) := keeps_ret_of .refl r

theorem keeps_setTable_of {s' : Sys} (same : SameFiles s' s) {cur : Pid} {t : FileDescriptorTable}
    (ok : TableOk s.nextPipe (s.fdTable cur) → TableOk s.nextPipe t) (r : ℤ) : Keeps s ((s'.setTable cur t).ret r) :=
  keeps_of_frame same.1 same.2.1 same.2.2.1 rfl fun tables => by
    rw [Sys.ret_sys, Sys.setTable_fdTable, same.2.2.2]
    exact tableOk_update tables (ok (tables cur))

theorem keeps_setTable {cur : Pid} {t : FileDescriptorTable}
    (ok : TableOk s.nextPipe (s.fdTable cur) → TableOk s.nextPipe t) (r : ℤ) : Keeps s ((s.setTable cur t).ret r) :=
  keeps_setTable_of .refl ok r

theorem TableOk.of_eq {n : ℕ} {x : FileDescriptorTable × ℤ} {t : FileDescriptorTable} {r : ℤ}
    (ok : TableOk n x.1) (eq : x = (t, r)) : TableOk n t := by
  rw [eq] at ok
  exact ok

theorem Keeps.of_setWaiting_none {cur : Pid} {o : Outcome} (keeps : Keeps (s.setWaiting cur none) o) : Keeps s o :=
  fun l ⟨sound, law⟩ => keeps l ⟨sound.setWaiting (fun _ isNone => absurd isNone (Option.some_ne_none _).symm), law⟩

end Keeps

/-! ### The pipe ends -/

namespace Pipe

variable {p : Pipe} {k : Kernel}

theorem read_result {len : ℕ} {n : ℤ} {out : List UInt8} (wf : p.Wf) (result : (p.read k len).result = some (n, out)) :
    (n = out.length ∧ out.length ≤ len) ∨ (n = -eSrch ∧ out = []) := by
  unfold Pipe.read at result
  split_ifs at result with eof wait
  · cases result
    exact .inl ⟨rfl, Nat.zero_le _⟩
  · cases current : k.gCurrentProcess with
    | none =>
      rw [current] at result
      cases result
      exact .inr ⟨rfl, rfl⟩
    | some c =>
      rw [current] at result
      cases result
  · have length := (copyOut_spec (min len p.count) wf (Nat.min_le_right _ _)).2.2
    cases result
    exact .inl ⟨rfl, by omega⟩

theorem wf_closeReadEnd (wf : p.Wf) : (p.closeReadEnd k).2.Wf := ⟨wf.readPos_lt, wf.count_le, wf.writePos_eq⟩

theorem wf_closeWriteEnd (wf : p.Wf) : (p.closeWriteEnd k).2.Wf := ⟨wf.readPos_lt, wf.count_le, wf.writePos_eq⟩

@[simp] theorem bytes_closeReadEnd : (p.closeReadEnd k).2.bytes = p.bytes := rfl

theorem copyOut_readEndOpen : ∀ (n : ℕ) (p : Pipe), (p.copyOut n).1.readEndOpen = p.readEndOpen
  | 0, _ => rfl
  | n + 1, p => by
    rw [copyOut_succ]
    exact copyOut_readEndOpen n _

theorem read_readEndOpen {len : ℕ} : (p.read k len).pipe.readEndOpen = p.readEndOpen := by
  unfold Pipe.read
  split_ifs
  · rfl
  · cases k.gCurrentProcess <;> rfl
  · exact copyOut_readEndOpen _ _

theorem writeLoop_readEndOpen (data : List UInt8) : (p.writeLoop k data).pipe.readEndOpen = p.readEndOpen := by
  unfold Pipe.writeLoop
  split_ifs
  · cases k.gCurrentProcess <;> rfl
  · show (p.copyIn data).1.readEndOpen = p.readEndOpen
    rw [copyIn_frame]

theorem write_readEndOpen (data : List UInt8) : (p.write k data).pipe.readEndOpen = p.readEndOpen := by
  unfold Pipe.write
  split_ifs
  · rfl
  · exact writeLoop_readEndOpen data

theorem writeResume_readEndOpen (data : List UInt8) : (p.writeResume k data).pipe.readEndOpen = p.readEndOpen := by
  unfold Pipe.writeResume
  split_ifs
  · rfl
  · exact writeLoop_readEndOpen data

theorem write_refused (closed : p.readEndOpen = false) (data : List UInt8) : accepted (p.write k data).result = 0 := by
  unfold Pipe.write
  rw [if_pos (by rw [closed]; rfl)]
  rfl

theorem writeResume_refused (closed : p.readEndOpen = false) (data : List UInt8) :
    accepted (p.writeResume k data).result = 0 := by
  unfold Pipe.writeResume
  rw [if_pos (by rw [closed]; rfl)]
  rfl

@[simp] theorem bytes_closeWriteEnd : (p.closeWriteEnd k).2.bytes = p.bytes := rfl

end Pipe

/-! ### Each call keeps the system consistent -/

section Helpers

variable {s : Sys}

theorem keeps_stay : Keeps s ⟨s, none, .none⟩ := keeps_of_frame rfl rfl rfl rfl fun tables => tables

theorem Keeps.of_setTable {cur : Pid} {t : FileDescriptorTable} {o : Outcome}
    (ok : TableOk s.nextPipe (s.fdTable cur) → TableOk s.nextPipe t) (keeps : Keeps (s.setTable cur t) o) : Keeps s o :=
  fun l ⟨sound, law⟩ => keeps l ⟨sound.setTable (ok (sound.tables cur)), law⟩

theorem keeps_closeEnd {a : ℕ} (below : a < s.nextPipe) {k : Kernel} {q : Pipe} (wf : (s.pipes a).Wf → q.Wf)
    (bytes : q.bytes = (s.pipes a).bytes) (stays : (s.pipes a).readEndOpen = false → q.readEndOpen = false) {cur : Pid} {t : FileDescriptorTable}
    (ok : TableOk s.nextPipe (s.fdTable cur) → TableOk s.nextPipe t) (r : ℤ) :
    Keeps s (({ s with kernel := k, pipes := Function.update s.pipes a q }.setTable cur t).ret r) := by
  rintro l ⟨sound, law⟩
  have sound' : (s.pipeCall a (⟨k, q, none⟩ : PipeCall Unit)).Sound := sound.pipeCall below (wf (sound.wf a))
  exact ⟨⟨sound'.setTable (ok (sound.tables cur)), law.keep bytes⟩, stayClosed_of rfl stays fun _ _ => rfl⟩

end Helpers

section Calls

variable {s : Sys}

open Xinim.Kernel in
theorem keeps_pipeRead {cur : Pid} {a : ℕ} {buf : UInt64} {count : ℕ}
    (fits : (Waiting.read a buf count).Fits s.nextPipe) : Keeps s (s.pipeRead cur a buf count) := by
  obtain ⟨below, valid, small⟩ := fits
  rintro l ⟨sound, law⟩
  obtain ⟨wf, taken⟩ := Pipe.read_spec (k := s.kernel) (sound.wf a) count
  have sound' := sound.pipeCall below wf
  have stays : ∀ {o : Outcome}, o.sys.pipes = Function.update s.pipes a ((s.pipes a).read s.kernel count).pipe →
      (∀ b, (l.record o.moved).accepted b = l.accepted b) → ReadEndsStayClosed s l o :=
    fun pipes accepted => stayClosed_of pipes (fun closed => by rw [Pipe.read_readEndOpen]; exact closed)
      fun b _ => accepted b
  unfold Sys.pipeRead
  dsimp only
  cases result : ((s.pipes a).read s.kernel count).result with
  | none =>
    rw [result, Pipe.delivered, List.nil_append] at taken
    exact ⟨⟨sound'.setWaiting fun _ same => by cases same; exact ⟨below, valid, small⟩, law.keep taken⟩,
      stays rfl fun _ => rfl⟩
  | some r =>
    obtain ⟨n, out⟩ := r
    rw [result] at taken
    change out ++ _ = _ at taken
    dsimp only
    rcases Pipe.read_result (sound.wf a) result with ⟨length, short⟩ | ⟨failed, rfl⟩
    · rw [if_neg (by omega)]
      by_cases some : n > 0
      · have fits : out.length ≤ (UInt64.ofNat count).toNat := by
          rw [UInt64.toNat_ofNat', Nat.mod_eq_of_lt (by omega)]
          exact short
        rw [if_pos some, copyToUser_of_within valid fits]
        refine ⟨⟨⟨sound'.wf, sound'.fresh, sound'.tables, sound'.waiting⟩, ?_⟩, stays rfl fun _ => rfl⟩
        show (l.record (.read a ((List.range out.length).map fun i =>
          ((s.pipeCall a _).mem.write buf.toNat out) (buf.toNat + i)))).Law _
        rw [UserMem.read_write]
        exact law.read taken
      · have empty : out = [] := List.eq_nil_of_length_eq_zero (by omega)
        subst empty
        rw [if_neg some]
        rw [List.nil_append] at taken
        exact ⟨⟨sound', law.keep taken⟩, stays rfl fun _ => rfl⟩
    · rw [if_pos (by rw [failed]; decide)]
      rw [List.nil_append] at taken
      exact ⟨⟨sound', law.keep taken⟩, stays rfl fun _ => rfl⟩

theorem keeps_pipeWrite {cur : Pid} {a : ℕ} {data : List UInt8} {call : PipeCall ℤ} (below : a < s.nextPipe)
    (spec : (s.pipes a).Wf → call.pipe.Wf ∧ call.pipe.bytes = (s.pipes a).bytes ++ data.take (Pipe.accepted call.result))
    (stays : call.pipe.readEndOpen = (s.pipes a).readEndOpen)
    (refused : (s.pipes a).readEndOpen = false → Pipe.accepted call.result = 0) :
    Keeps s (s.pipeWrite cur a data call) := by
  rintro l ⟨sound, law⟩
  obtain ⟨wf, added⟩ := spec (sound.wf a)
  have sound' := sound.pipeCall below wf
  have closedStays : (s.pipes a).readEndOpen = false → call.pipe.readEndOpen = false := fun closed => stays ▸ closed
  unfold Sys.pipeWrite
  dsimp only
  cases result : call.result with
  | none =>
    rw [result, Pipe.accepted, List.take_zero, List.append_nil] at added
    exact ⟨⟨sound'.setWaiting fun _ same => by cases same; exact below, law.keep added⟩,
      stayClosed_of rfl closedStays fun _ _ => rfl⟩
  | some written =>
    rw [result, Pipe.accepted] at added
    refine ⟨⟨sound', law.wrote added⟩, stayClosed_of rfl closedStays fun b closed => ?_⟩
    show Function.update l.accepted a (l.accepted a ++ data.take written.toNat) b = l.accepted b
    by_cases same : b = a
    · subst same
      have none : written.toNat = 0 := by
        have := refused closed
        rwa [result, Pipe.accepted] at this
      rw [Function.update_self, none, List.take_zero, List.append_nil]
    · rw [Function.update_of_ne same]

variable (s)

open Xinim.Kernel in
theorem keeps_sysRead (fd buf count : UInt64) : Keeps s (s.sysRead fd buf count) := by
  unfold Sys.sysRead
  cases current : s.kernel.gCurrentProcess with
  | none => exact keeps_ret _
  | some cur =>
    dsimp only
    by_cases range : fd.toNat ≥ maxFdsPerProcess
    · rw [if_pos range]
      exact keeps_ret _
    rw [if_neg range]
    cases found : (s.fdTable cur).getFd fd.toNat with
    | none => exact keeps_ret _
    | some i =>
      dsimp only
      by_cases writeOnly : ((s.fdTable cur).fds i).fileFlags &&& FileFlags.accmode = FileFlags.wronly
      · rw [if_pos writeOnly]
        exact keeps_ret _
      rw [if_neg writeOnly]
      by_cases invalid : (!isUserAddress buf count) = true
      · rw [if_pos invalid]
        exact keeps_ret _
      rw [if_neg invalid]
      simp only [Bool.not_eq_true', Bool.not_eq_false] at invalid
      by_cases pipe : ((s.fdTable cur).fds i).privateData ≠ 0
      · rw [if_pos pipe]
        refine fun l h => keeps_pipeRead ⟨(h.sound.tables cur).below i, isUserAddress_of_le invalid ?_, Nat.min_le_right _ _⟩ l h
        rw [UInt64.toNat_ofNat', Nat.mod_eq_of_lt (by omega)]
        exact Nat.min_le_left _ _
      rw [if_neg pipe]
      rcases read : vfsRead ((s.fdTable cur).fds i).inode with ⟨bytesRead, out⟩
      dsimp only
      by_cases failed : bytesRead < 0
      · rw [if_pos failed]
        exact keeps_ret _
      rw [if_neg failed]
      split
      · exact keeps_ret _
      · split
        · refine keeps_setTable_of ?_ (fun ok => ?_) _
          · exact ⟨rfl, rfl, rfl, rfl⟩
          · exact ok.modify rfl rfl
        · refine keeps_ret_of ?_ _
          exact ⟨rfl, rfl, rfl, rfl⟩

open Xinim.Kernel in
theorem keeps_sysWrite (fd buf count : UInt64) : Keeps s (s.sysWrite fd buf count) := by
  unfold Sys.sysWrite
  cases current : s.kernel.gCurrentProcess with
  | none => exact keeps_ret _
  | some cur =>
    dsimp only
    by_cases range : fd.toNat ≥ maxFdsPerProcess
    · rw [if_pos range]
      exact keeps_ret _
    rw [if_neg range]
    cases found : (s.fdTable cur).getFd fd.toNat with
    | none => exact keeps_ret _
    | some i =>
      dsimp only
      by_cases readOnly : ((s.fdTable cur).fds i).fileFlags &&& FileFlags.accmode = FileFlags.rdonly
      · rw [if_pos readOnly]
        exact keeps_ret _
      rw [if_neg readOnly]
      by_cases invalid : (!isUserAddress buf count) = true
      · rw [if_pos invalid]
        exact keeps_ret _
      rw [if_neg invalid]
      cases copyFromUser s.mem buf (UInt64.ofNat (min count.toNat 4096)) with
      | error r => exact keeps_ret _
      | ok data =>
        dsimp only
        by_cases pipe : ((s.fdTable cur).fds i).privateData ≠ 0
        · rw [if_pos pipe]
          exact fun l h => keeps_pipeWrite ((h.sound.tables cur).below i) (fun wf => Pipe.write_spec wf data)
            (Pipe.write_readEndOpen data) (fun closed => Pipe.write_refused closed data) l h
        rw [if_neg pipe]
        rcases written : vfsWrite ((s.fdTable cur).fds i).inode data s.console with ⟨console, n⟩
        dsimp only
        by_cases failed : n < 0
        · rw [if_pos failed]
          exact keeps_ret _
        · rw [if_neg failed]
          refine keeps_setTable_of ?_ (fun ok => ?_) _
          · exact ⟨rfl, rfl, rfl, rfl⟩
          · exact ok.modify rfl rfl

theorem keeps_sysOpen (pathname flags mode : UInt64) : Keeps s (s.sysOpen pathname flags mode) := by
  unfold Sys.sysOpen
  cases current : s.kernel.gCurrentProcess with
  | none => exact keeps_ret _
  | some cur =>
    dsimp only
    cases Xinim.Kernel.copyStringFromUser s.mem pathname Xinim.Kernel.pathMax with
    | error r => exact keeps_ret _
    | ok path =>
      dsimp only
      rcases allocated : (s.fdTable cur).allocateFd with ⟨t, fd⟩
      have ok : TableOk s.nextPipe (s.fdTable cur) → TableOk s.nextPipe t :=
        fun ok => (ok.allocateFd s.nextPipe_pos).of_eq allocated
      dsimp only
      split_ifs
      all_goals first
        | exact keeps_ret _
        | exact keeps_setTable ok _
        | cases t.getFd fd
      all_goals first
        | exact keeps_setTable ok _
        | exact keeps_setTable (fun ok' => (ok ok').setEntry rfl s.nextPipe_pos) _

theorem keeps_sysClose (fd : UInt64) : Keeps s (s.sysClose fd) := by
  unfold Sys.sysClose
  cases current : s.kernel.gCurrentProcess with
  | none => exact keeps_ret _
  | some cur =>
    dsimp only
    by_cases range : fd.toNat ≥ maxFdsPerProcess
    · rw [if_pos range]
      exact keeps_ret _
    rw [if_neg range]
    cases found : (s.fdTable cur).getFd fd.toNat with
    | none => exact keeps_ret _
    | some i =>
      dsimp only
      by_cases pipe : ((s.fdTable cur).fds i).privateData ≠ 0
      · rw [if_pos pipe]
        intro l h
        have below := (h.sound.tables cur).below i
        by_cases readEnd : ((s.fdTable cur).fds i).fileFlags &&& FileFlags.accmode = FileFlags.rdonly
        · rw [if_pos readEnd]
          exact keeps_closeEnd below Pipe.wf_closeReadEnd Pipe.bytes_closeReadEnd (fun _ => rfl)
            (fun ok => ok.closeFd s.nextPipe_pos _) _ l h
        · rw [if_neg readEnd]
          exact keeps_closeEnd below Pipe.wf_closeWriteEnd Pipe.bytes_closeWriteEnd (fun closed => closed)
            (fun ok => ok.closeFd s.nextPipe_pos _) _ l h
      · rw [if_neg pipe]
        rcases closed : (s.fdTable cur).closeFd fd.toNat with ⟨t, r⟩
        exact keeps_setTable (fun ok => (ok.closeFd s.nextPipe_pos _).of_eq closed) _

theorem keeps_sysLseek (fd offset whence : UInt64) : Keeps s (s.sysLseek fd offset whence) := by
  unfold Sys.sysLseek
  cases current : s.kernel.gCurrentProcess with
  | none => exact keeps_ret _
  | some cur =>
    dsimp only
    by_cases range : fd.toNat ≥ maxFdsPerProcess
    · rw [if_pos range]
      exact keeps_ret _
    rw [if_neg range]
    cases found : (s.fdTable cur).getFd fd.toNat with
    | none => exact keeps_ret _
    | some i =>
      dsimp only
      by_cases pipe : ((s.fdTable cur).fds i).privateData ≠ 0
      · rw [if_pos pipe]
        exact keeps_ret _
      rw [if_neg pipe]
      by_cases device : vfsIsDevice ((s.fdTable cur).fds i).inode = true
      · rw [if_pos device]
        exact keeps_ret _
      rw [if_neg device]
      split
      · exact keeps_ret _
      · split_ifs
        · exact keeps_ret _
        · refine keeps_setTable (fun ok => ?_) _
          exact ok.modify rfl rfl

theorem keeps_sysDup (oldfd : UInt64) : Keeps s (s.sysDup oldfd) := by
  unfold Sys.sysDup
  cases current : s.kernel.gCurrentProcess with
  | none => exact keeps_ret _
  | some cur =>
    dsimp only
    split_ifs
    · exact keeps_ret _
    · exact keeps_ret _
    rcases dup : (s.fdTable cur).dupFd oldfd.toNat (-1) with ⟨t, newfd⟩
    exact keeps_setTable (fun ok => (ok.dupFd s.nextPipe_pos _ _).of_eq dup) _

theorem keeps_sysDup2 (oldfd newfd : UInt64) : Keeps s (s.sysDup2 oldfd newfd) := by
  unfold Sys.sysDup2
  cases current : s.kernel.gCurrentProcess with
  | none => exact keeps_ret _
  | some cur =>
    have closed : TableOk s.nextPipe (s.fdTable cur) → TableOk s.nextPipe (Sys.closeIfOpen (s.fdTable cur) newfd.toNat) := by
      intro ok
      unfold Sys.closeIfOpen
      split
      · exact ok.closeFd s.nextPipe_pos _
      · exact ok
    dsimp only
    split_ifs
    · exact keeps_ret _
    · exact keeps_ret _
    · exact keeps_ret _
    · exact keeps_ret _
    · exact keeps_setTable (fun ok => (closed ok).dupFd s.nextPipe_pos _ _) _
    · exact keeps_setTable (fun ok => (closed ok).dupFd s.nextPipe_pos _ _) _

theorem keeps_sysPipe (pipefd : UInt64) : Keeps s (s.sysPipe pipefd) := by
  unfold Sys.sysPipe
  cases current : s.kernel.gCurrentProcess with
  | none => exact keeps_ret _
  | some cur =>
    dsimp only
    by_cases invalid : (!Xinim.Kernel.isUserAddress pipefd 8) = true
    · rw [if_pos invalid]
      exact keeps_ret _
    rw [if_neg invalid]
    simp only [Bool.not_eq_true', Bool.not_eq_false] at invalid
    rcases first : (s.fdTable cur).allocateFd with ⟨t, readFd⟩
    have ok : TableOk s.nextPipe (s.fdTable cur) → TableOk s.nextPipe t :=
      fun ok => (ok.allocateFd s.nextPipe_pos).of_eq first
    rcases second : t.allocateFd with ⟨t', writeFd⟩
    have ok' : TableOk s.nextPipe (s.fdTable cur) → TableOk s.nextPipe t' :=
      fun ok0 => ((ok ok0).allocateFd s.nextPipe_pos).of_eq second
    dsimp only
    by_cases noRead : readFd < 0
    · rw [if_pos noRead]
      exact keeps_setTable ok _
    rw [if_neg noRead]
    by_cases noWrite : writeFd < 0
    · rw [if_pos noWrite]
      exact keeps_setTable (fun ok0 => (ok' ok0).closeFd s.nextPipe_pos _) _
    rw [if_neg noWrite]
    rw [Xinim.Kernel.copyToUser_of_within invalid (by simp [Buffer.length_storeLE])]
    dsimp only
    rintro l ⟨sound, law⟩
    have grown : s.nextPipe ≤ s.nextPipe + 1 := Nat.le_succ _
    refine ⟨⟨sound.newPipe ?_ _, ?_⟩, stayClosed_of rfl (fun closed => ?_) fun _ _ => rfl⟩
    · exact (((ok' (sound.tables cur)).mono grown).setFd rfl (Nat.lt_succ_self _)).setFd rfl (Nat.lt_succ_self _)
    · exact law.keep (by rw [sound.fresh s.nextPipe le_rfl])
    · rw [sound.fresh s.nextPipe le_rfl] at closed
      cases closed

theorem keeps_dupfdRun (cur : Pid) (fd newfd arg : ℤ) : Keeps s (s.dupfdRun cur fd newfd arg) := by
  unfold Sys.dupfdRun
  rcases loop : dupfdLoop arg dupfdSlice (s.fdTable cur) newfd with ⟨t, newfd', exited⟩
  have ok : TableOk s.nextPipe (s.fdTable cur) → TableOk s.nextPipe t := fun ok => by
    have := TableOk.dupfdLoop s.nextPipe_pos arg dupfdSlice newfd ok
    rw [loop] at this
    exact this
  dsimp only
  cases exited with
  | false =>
    rintro l ⟨sound, law⟩
    exact ⟨⟨(sound.setTable (ok (sound.tables cur))).setWaiting fun _ same => by cases same; trivial, law⟩,
      fun _ closed => ⟨closed, rfl⟩⟩
  | true =>
    simp only [Bool.not_true, Bool.false_eq_true, if_false]
    by_cases full : newfd' < 0
    · rw [if_pos full]
      exact keeps_setTable ok _
    rw [if_neg full]
    split_ifs
    · rw [Sys.setTable_setTable]
      exact keeps_setTable (fun ok0 => (ok ok0).dupFd s.nextPipe_pos _ _) _
    · rw [Sys.setTable_setTable]
      exact keeps_setTable (fun ok0 => (ok ok0).dupFd s.nextPipe_pos _ _) _

theorem keeps_sysFcntl (fd cmd arg : UInt64) : Keeps s (s.sysFcntl fd cmd arg) := by
  unfold Sys.sysFcntl
  cases current : s.kernel.gCurrentProcess with
  | none => exact keeps_ret _
  | some cur =>
    dsimp only
    by_cases range : fd.toNat ≥ maxFdsPerProcess
    · rw [if_pos range]
      exact keeps_ret _
    rw [if_neg range]
    cases found : (s.fdTable cur).getFd fd.toNat with
    | none => exact keeps_ret _
    | some i =>
      dsimp only
      by_cases dupfd : cmd = 0
      · rw [if_pos dupfd]
        rcases allocated : (s.fdTable cur).allocateFd with ⟨t, newfd⟩
        have ok : TableOk s.nextPipe (s.fdTable cur) → TableOk s.nextPipe t :=
          fun ok => (ok.allocateFd s.nextPipe_pos).of_eq allocated
        dsimp only
        by_cases full : newfd < 0
        · rw [if_pos full]
          exact keeps_setTable ok _
        · rw [if_neg full]
          exact Keeps.of_setTable ok (keeps_dupfdRun _ cur _ newfd _)
      rw [if_neg dupfd]
      split_ifs
      · exact keeps_ret _
      · refine keeps_setTable (fun ok => ?_) _
        exact ok.modify rfl rfl
      · exact keeps_ret _
      · refine keeps_setTable (fun ok => ?_) _
        exact ok.modify rfl rfl
      · exact keeps_ret _

theorem keeps_sysFork (child : Pid) (pcb : NewPcb) : Keeps s (s.sysFork child pcb) := by
  unfold Sys.sysFork
  cases current : s.kernel.gCurrentProcess with
  | none => exact keeps_ret _
  | some parent =>
    dsimp only
    rintro l ⟨sound, law⟩
    refine ⟨⟨⟨sound.wf, sound.fresh, tableOk_update sound.tables ((sound.tables parent).cloneTo s.nextPipe_pos),
      fun p w waiting => ?_⟩, law⟩, fun _ closed => ⟨closed, rfl⟩⟩
    dsimp only at waiting
    by_cases same : p = child
    · subst same
      rw [Function.update_self] at waiting
      cases waiting
    · rw [Function.update_of_ne same] at waiting
      exact sound.waiting p w waiting

theorem keeps_syscall : (c : Syscall) → Keeps s (s.syscall c)
  | .sysRead fd buf count => keeps_sysRead s fd buf count
  | .sysWrite fd buf count => keeps_sysWrite s fd buf count
  | .sysOpen pathname flags mode => keeps_sysOpen s pathname flags mode
  | .sysClose fd => keeps_sysClose s fd
  | .sysLseek fd offset whence => keeps_sysLseek s fd offset whence
  | .sysPipe pipefd => keeps_sysPipe s pipefd
  | .sysDup oldfd => keeps_sysDup s oldfd
  | .sysDup2 oldfd newfd => keeps_sysDup2 s oldfd newfd
  | .sysFcntl fd cmd arg => keeps_sysFcntl s fd cmd arg
  | .sysFork child pcb => keeps_sysFork s child pcb

theorem keeps_resume {cur : Pid} {w : Waiting} (waiting : s.waiting cur = some w) : Keeps s (s.resume cur w) := by
  intro l h
  have fits := h.sound.waiting cur w waiting
  cases w with
  | read a buf count => exact (keeps_pipeRead (s := s.setWaiting cur none) fits).of_setWaiting_none l h
  | write a data =>
    exact (keeps_pipeWrite (s := s.setWaiting cur none) fits (fun wf => Pipe.writeResume_spec wf data)
      (Pipe.writeResume_readEndOpen data) (fun closed => Pipe.writeResume_refused closed data)).of_setWaiting_none l h
  | dupfd fd newfd arg => exact (keeps_dupfdRun _ cur fd newfd arg).of_setWaiting_none l h

theorem keeps_step : (ev : Event) → Keeps s (s.step ev)
  | .call c => by
    unfold Sys.step
    cases current : s.kernel.gCurrentProcess with
    | none => exact keeps_syscall s c
    | some cur =>
      dsimp only
      split_ifs
      · exact keeps_stay
      · exact keeps_syscall s c
  | .resume => by
    unfold Sys.step
    cases current : s.kernel.gCurrentProcess with
    | none => exact keeps_stay
    | some cur =>
      dsimp only
      cases waiting : s.waiting cur with
      | none => exact keeps_stay
      | some w => exact keeps_resume s waiting
  | .schedule => keeps_of_frame rfl rfl rfl rfl fun tables => tables

end Calls

namespace Tracked

theorem Consistent.step {t : Tracked} (h : t.Consistent) (ev : Event) : (t.step ev).Consistent :=
  (keeps_step t.sys ev t.streams h).1

theorem Consistent.run {t : Tracked} (h : t.Consistent) : (events : List Event) → (t.run events).Consistent
  | [] => h
  | ev :: rest => (h.step ev).run rest

theorem consistent_boot (k : Kernel) (mem : UserMem) : (boot k mem).Consistent := by
  have empty : Pipe.create.bytes = [] := rfl
  unfold boot Sys.boot
  constructor
  · constructor
    · exact fun _ => Pipe.wf_create
    · exact fun _ _ => rfl
    · dsimp only
      exact fun _ => TableOk.stdTable Nat.one_pos
    · exact fun _ _ none => by cases none
  · intro a
    show [] = [] ++ Pipe.create.bytes
    rw [empty]
    rfl

end Tracked

/-- Whatever the processes do and in whatever order they run, block and
resume, every pipe holds, in order, the bytes that writes reported written to
it after those that reads copied out of it into their callers' buffers: no byte
is lost, duplicated or reordered between writers' and readers' user memory. -/
theorem pipe_bytes_conserved_over_runs (k : Kernel) (mem : UserMem) (events : List Event) (a : ℕ) :
    ((Tracked.boot k mem).run events).streams.accepted a =
      ((Tracked.boot k mem).run events).streams.delivered a ++ (((Tracked.boot k mem).run events).sys.pipes a).bytes :=
  ((Tracked.consistent_boot k mem).run events).law a

end Xinim.Proc
