import Xinim.Data.Ring
import Xinim.Proc.Sched

/-! The pipes of the x86_64 kernel (kernel/pipe.cpp): a ring buffer of
`PIPE_BUF` bytes and two lists of blocked PCBs, threaded through the same
`next` field as the ready queue. A call that blocks its caller returns after
its `schedule()`, with no value; what the loop does once `schedule()` returns
is the `resume` of the call. -/

namespace Xinim.Proc
open Intrusive

def pipeBuf : ℕ := 4096

def ePipe : ℤ := 32

structure Pipe where
  buffer : ℕ → UInt8
  readPos : ℕ
  writePos : ℕ
  count : ℕ
  readEndOpen : Bool
  writeEndOpen : Bool
  readersHead : Option Pid
  writersHead : Option Pid

/-- The end of a pipe call: the kernel and the pipe after it, and what it
returned, or `none` when the caller blocked and `schedule()` ran another
process. -/
structure PipeCall (α : Type) where
  kernel : Kernel
  pipe : Pipe
  result : Option α

namespace Pipe

def create : Pipe := ⟨fun _ => 0, 0, 0, 0, true, true, none, none⟩

def available (p : Pipe) : ℕ := pipeBuf - p.count

def bytes (p : Pipe) : List UInt8 := Ring.contents p.buffer pipeBuf p.readPos p.count

def copyIn (p : Pipe) : List UInt8 → Pipe × ℕ
  | [] => (p, 0)
  | b :: rest =>
    if p.count < pipeBuf then
      let p := { p with
        buffer := Function.update p.buffer p.writePos b
        writePos := (p.writePos + 1) % pipeBuf
        count := p.count + 1 }
      let (p, n) := p.copyIn rest
      (p, n + 1)
    else (p, 0)

def copyOut (p : Pipe) : ℕ → Pipe × List UInt8
  | 0 => (p, [])
  | n + 1 =>
    let b := p.buffer p.readPos
    let p := { p with readPos := (p.readPos + 1) % pipeBuf, count := p.count - 1 }
    let (p, bs) := p.copyOut n
    (p, b :: bs)

end Pipe

namespace Kernel

/-- The wake-up loop over a list of blocked PCBs: each one becomes READY with
no block reason and leaves the list, and none is put on the ready queue. The
loop along `next` is bounded by the number of PCBs. -/
def wakeAll (k : Kernel) : ℕ → Option Pid → Kernel
  | 0, _ => k
  | _ + 1, none => k
  | fuel + 1, some pcb =>
    let rest := k.next pcb
    let k := { k with
      state := Function.update k.state pcb .ready
      blockedOn := Function.update k.blockedOn pcb .none
      next := Function.update k.next pcb none }
    k.wakeAll fuel rest

/-- The blocking step of the wait loops: the current process is BLOCKED on
I/O, pushed on the wait list at `head` through its `next`, and `schedule()`
runs another process. -/
def blockOnPipe (k : Kernel) (current : Pid) (head : Option Pid) : Kernel :=
  let k := { k with
    state := Function.update k.state current .blocked
    blockedOn := Function.update k.blockedOn current .io
    next := Function.update k.next current head }
  k.schedule

end Kernel

namespace Pipe

/-- The wait loop of `write` from its test, then the copy and the wake-up of
the readers. -/
def writeLoop (p : Pipe) (k : Kernel) (data : List UInt8) : PipeCall ℤ :=
  if p.available < data.length ∧ p.readEndOpen then
    match k.gCurrentProcess with
    | none => ⟨k, p, some (-eSrch)⟩
    | some current => ⟨k.blockOnPipe current p.writersHead, { p with writersHead := some current }, none⟩
  else
    let (p, written) := p.copyIn data
    ⟨k.wakeAll k.pcbs.length p.readersHead, { p with readersHead := none }, some written⟩

def write (p : Pipe) (k : Kernel) (data : List UInt8) : PipeCall ℤ :=
  if !p.readEndOpen then
    let k := match k.gCurrentProcess with
      | some current => (k.sendSignal current sigPipe).1
      | none => k
    ⟨k, p, some (-ePipe)⟩
  else p.writeLoop k data

def writeResume (p : Pipe) (k : Kernel) (data : List UInt8) : PipeCall ℤ :=
  if !p.readEndOpen then ⟨k, p, some (-ePipe)⟩ else p.writeLoop k data

/-- `read`, returning how many bytes it read and the bytes. The return from
`schedule()` in its wait loop makes the same end-of-file test as the entry, so
a resumed `read` is `read` again. -/
def read (p : Pipe) (k : Kernel) (len : ℕ) : PipeCall (ℤ × List UInt8) :=
  if !p.writeEndOpen ∧ p.count = 0 then ⟨k, p, some (0, [])⟩
  else if p.count = 0 ∧ p.writeEndOpen then
    match k.gCurrentProcess with
    | none => ⟨k, p, some (-eSrch, [])⟩
    | some current => ⟨k.blockOnPipe current p.readersHead, { p with readersHead := some current }, none⟩
  else
    let (p, out) := p.copyOut (min len p.count)
    ⟨k.wakeAll k.pcbs.length p.writersHead, { p with writersHead := none }, some (out.length, out)⟩

def closeReadEnd (p : Pipe) (k : Kernel) : Kernel × Pipe :=
  (k.wakeAll k.pcbs.length p.writersHead, { p with readEndOpen := false, writersHead := none })

def closeWriteEnd (p : Pipe) (k : Kernel) : Kernel × Pipe :=
  (k.wakeAll k.pcbs.length p.readersHead, { p with writeEndOpen := false, readersHead := none })

end Pipe

namespace Kernel

variable {k : Kernel} {l : List Pid}

theorem wakeAll_eq (fuel : ℕ) (head : Option Pid) (nodup : (walk k.next fuel head).Nodup) :
    k.wakeAll fuel head = { k with
      state := fun p => if p ∈ walk k.next fuel head then .ready else k.state p
      blockedOn := fun p => if p ∈ walk k.next fuel head then .none else k.blockedOn p
      next := fun p => if p ∈ walk k.next fuel head then none else k.next p } := by
  induction fuel generalizing k head with
  | zero => simp [wakeAll, walk]
  | succ fuel ih =>
    cases head with
    | none => simp [wakeAll, walk]
    | some x =>
      rw [walk] at nodup ⊢
      obtain ⟨fresh, nodup⟩ := List.nodup_cons.mp nodup
      have walkSame : walk (Function.update k.next x none) fuel (k.next x) = walk k.next fuel (k.next x) :=
        walk_congr fun y mem => Function.update_of_ne (fun (same : y = x) => fresh (same ▸ mem)) _ _
      rw [wakeAll, ih (k := { k with
        state := Function.update k.state x .ready
        blockedOn := Function.update k.blockedOn x .none
        next := Function.update k.next x none }) _ (walkSame ▸ nodup), walkSame]
      congr 1 <;> funext p <;> by_cases same : p = x <;> simp [same]

theorem Queued.wakeAll (h : k.Queued l) {fuel : ℕ} {head : Option Pid} (nodup : (walk k.next fuel head).Nodup)
    (off : ∀ y ∈ walk k.next fuel head, y ∉ l) : (k.wakeAll fuel head).Queued l := by
  rw [wakeAll_eq fuel head nodup]
  refine ⟨h.queue.congr rfl rfl (fun y mem => ?_) (fun _ _ => rfl), h.current_off, h.allocated, h.current_allocated⟩
  have notWoken : y ∉ walk k.next fuel head := fun woken => off y woken mem
  simp [readyQueue, notWoken]

end Kernel

namespace Pipe

/-- What the pipe keeps of its ring: the read position is a cell, at most
`PIPE_BUF` bytes are held, and the write position is the cell after the last. -/
structure Wf (p : Pipe) : Prop where
  readPos_lt : p.readPos < pipeBuf
  count_le : p.count ≤ pipeBuf
  writePos_eq : p.writePos = (p.readPos + p.count) % pipeBuf

theorem wf_create : create.Wf := ⟨by decide, by decide, rfl⟩

theorem copyIn_frame (data : List UInt8) : ∀ (p : Pipe), (p.copyIn data).1 = { p with
    buffer := (p.copyIn data).1.buffer
    writePos := (p.copyIn data).1.writePos
    count := (p.copyIn data).1.count } := by
  induction data with
  | nil => exact fun _ => rfl
  | cons b rest ih =>
    intro p
    unfold copyIn
    split_ifs
    · exact ih _
    · rfl

theorem copyIn_cons (p : Pipe) (b : UInt8) (rest : List UInt8) : p.copyIn (b :: rest) =
    if p.count < pipeBuf then
      let p' := { p with
        buffer := Function.update p.buffer p.writePos b
        writePos := (p.writePos + 1) % pipeBuf
        count := p.count + 1 }
      ((p'.copyIn rest).1, (p'.copyIn rest).2 + 1)
    else (p, 0) := rfl

theorem copyIn_spec (data : List UInt8) : ∀ {p : Pipe}, p.Wf →
    (p.copyIn data).1.Wf ∧ (p.copyIn data).1.bytes = p.bytes ++ data.take p.available ∧
      (p.copyIn data).2 = min data.length p.available := by
  induction data with
  | nil => exact fun wf => ⟨wf, by simp [copyIn], by simp [copyIn]⟩
  | cons b rest ih =>
    intro p wf
    rw [copyIn_cons]
    split_ifs with room
    · dsimp only
      set p' : Pipe := { p with
        buffer := Function.update p.buffer p.writePos b
        writePos := (p.writePos + 1) % pipeBuf
        count := p.count + 1 }
      have wf' : p'.Wf := ⟨wf.readPos_lt, room, by
        simp only [p', wf.writePos_eq, Nat.mod_add_mod, Nat.add_assoc]⟩
      have pushed : p'.bytes = p.bytes ++ [b] := by
        simp only [bytes, p', wf.writePos_eq]
        exact Ring.contents_push room b
      have avail : p.available = p'.available + 1 := by
        simp only [available, p']
        omega
      obtain ⟨wf'', bytes'', count''⟩ := ih wf'
      refine ⟨wf'', ?_, ?_⟩
      · rw [bytes'', pushed, avail, List.take_succ_cons, List.append_assoc, List.singleton_append]
      · rw [count'', avail, List.length_cons]
        omega
    · have full : p.available = 0 := by
        simp only [available]
        omega
      simp [full, wf]

theorem copyOut_succ (p : Pipe) (n : ℕ) : p.copyOut (n + 1) =
    let p' := { p with readPos := (p.readPos + 1) % pipeBuf, count := p.count - 1 }
    ((p'.copyOut n).1, p.buffer p.readPos :: (p'.copyOut n).2) := rfl

theorem copyOut_spec (n : ℕ) : ∀ {p : Pipe}, p.Wf → n ≤ p.count →
    (p.copyOut n).1.Wf ∧ (p.copyOut n).2 ++ (p.copyOut n).1.bytes = p.bytes ∧
      (p.copyOut n).2.length = n := by
  induction n with
  | zero => exact fun wf _ => ⟨wf, rfl, rfl⟩
  | succ n ih =>
    intro p wf enough
    set p' : Pipe := { p with readPos := (p.readPos + 1) % pipeBuf, count := p.count - 1 }
    have bounded := wf.count_le
    have wf' : p'.Wf := ⟨Nat.mod_lt _ (by decide), by simp only [p']; omega, by
      simp only [p', wf.writePos_eq, Nat.mod_add_mod]
      congr 1
      omega⟩
    have popped : p.bytes = p.buffer p.readPos :: p'.bytes := by
      obtain ⟨c, count⟩ : ∃ c, p.count = c + 1 := ⟨p.count - 1, by omega⟩
      simp only [bytes, p', count, Ring.contents_pop, Ring.contents_mod, Nat.mod_eq_of_lt wf.readPos_lt,
        Nat.add_sub_cancel]
    obtain ⟨wf'', bytes'', length''⟩ := ih wf' (by simp only [p']; omega)
    rw [copyOut_succ]
    exact ⟨wf'', by rw [popped, ← bytes'', List.cons_append], by rw [List.length_cons, length'']⟩

def accepted : Option ℤ → ℕ
  | some n => n.toNat
  | none => 0

def delivered : Option (ℤ × List UInt8) → List UInt8
  | some (_, out) => out
  | none => []

variable {p : Pipe} {k : Kernel}

theorem writeLoop_spec (wf : p.Wf) (data : List UInt8) :
    (p.writeLoop k data).pipe.Wf ∧ (p.writeLoop k data).pipe.bytes = p.bytes ++ data.take (accepted (p.writeLoop k data).result) := by
  unfold writeLoop
  split_ifs with wait
  · cases k.gCurrentProcess with
    | none => exact ⟨wf, by simp [accepted, eSrch]⟩
    | some current => exact ⟨⟨wf.readPos_lt, wf.count_le, wf.writePos_eq⟩, by simp [accepted, bytes]⟩
  · obtain ⟨wf', bytes', count'⟩ := copyIn_spec data wf
    rcases copied : p.copyIn data with ⟨q, written⟩
    rw [copied] at wf' bytes' count'
    dsimp only at wf' bytes' count'
    refine ⟨⟨wf'.readPos_lt, wf'.count_le, wf'.writePos_eq⟩, ?_⟩
    show q.bytes = p.bytes ++ data.take (accepted (some (written : ℤ)))
    rw [bytes', accepted, Int.toNat_natCast, count']
    rcases le_total data.length p.available with room | short
    · rw [Nat.min_eq_left room, List.take_length, List.take_of_length_le room]
    · rw [Nat.min_eq_right short]

theorem write_spec (wf : p.Wf) (data : List UInt8) :
    (p.write k data).pipe.Wf ∧ (p.write k data).pipe.bytes = p.bytes ++ data.take (accepted (p.write k data).result) := by
  unfold write
  split_ifs
  · exact ⟨wf, by simp [accepted, ePipe]⟩
  · exact writeLoop_spec wf data

theorem writeResume_spec (wf : p.Wf) (data : List UInt8) :
    (p.writeResume k data).pipe.Wf ∧
      (p.writeResume k data).pipe.bytes = p.bytes ++ data.take (accepted (p.writeResume k data).result) := by
  unfold writeResume
  split_ifs
  · exact ⟨wf, by simp [accepted, ePipe]⟩
  · exact writeLoop_spec wf data

theorem read_spec (wf : p.Wf) (len : ℕ) :
    (p.read k len).pipe.Wf ∧ delivered (p.read k len).result ++ (p.read k len).pipe.bytes = p.bytes := by
  unfold read
  split_ifs with eof wait
  · exact ⟨wf, rfl⟩
  · cases k.gCurrentProcess with
    | none => exact ⟨wf, rfl⟩
    | some current => exact ⟨⟨wf.readPos_lt, wf.count_le, wf.writePos_eq⟩, rfl⟩
  · obtain ⟨wf', bytes', -⟩ := copyOut_spec (min len p.count) wf (Nat.min_le_right _ _)
    rcases copied : p.copyOut (min len p.count) with ⟨q, out⟩
    rw [copied] at wf' bytes'
    dsimp only at wf' bytes'
    exact ⟨⟨wf'.readPos_lt, wf'.count_le, wf'.writePos_eq⟩, bytes'⟩

end Pipe

inductive PipeOp
  | write (data : List UInt8)
  | writeResume (data : List UInt8)
  | read (len : ℕ)
  | closeReadEnd
  | closeWriteEnd

/-- A pipe in use, with a log of the bytes the writes reported written and of
the bytes the reads returned, each in call order. -/
structure PipeLog where
  kernel : Kernel
  pipe : Pipe
  written : List UInt8
  readOut : List UInt8

namespace PipeLog

def start (k : Kernel) : PipeLog := ⟨k, Pipe.create, [], []⟩

def step (s : PipeLog) : PipeOp → PipeLog
  | .write data =>
    let c := s.pipe.write s.kernel data
    ⟨c.kernel, c.pipe, s.written ++ data.take (Pipe.accepted c.result), s.readOut⟩
  | .writeResume data =>
    let c := s.pipe.writeResume s.kernel data
    ⟨c.kernel, c.pipe, s.written ++ data.take (Pipe.accepted c.result), s.readOut⟩
  | .read len =>
    let c := s.pipe.read s.kernel len
    ⟨c.kernel, c.pipe, s.written, s.readOut ++ Pipe.delivered c.result⟩
  | .closeReadEnd =>
    ⟨(s.pipe.closeReadEnd s.kernel).1, (s.pipe.closeReadEnd s.kernel).2, s.written, s.readOut⟩
  | .closeWriteEnd =>
    ⟨(s.pipe.closeWriteEnd s.kernel).1, (s.pipe.closeWriteEnd s.kernel).2, s.written, s.readOut⟩

def run (s : PipeLog) (ops : List PipeOp) : PipeLog := ops.foldl step s

/-- The pipe's ring is well formed and holds the bytes written and not yet
read. -/
structure Fifo (s : PipeLog) : Prop where
  wf : s.pipe.Wf
  conserved : s.written = s.readOut ++ s.pipe.bytes

variable {s : PipeLog}

theorem Fifo.step (h : s.Fifo) : (op : PipeOp) → (s.step op).Fifo
  | .write data => by
    obtain ⟨wf, bytes⟩ := Pipe.write_spec h.wf (k := s.kernel) data
    exact ⟨wf, by simp only [PipeLog.step, bytes, h.conserved, List.append_assoc]⟩
  | .writeResume data => by
    obtain ⟨wf, bytes⟩ := Pipe.writeResume_spec h.wf (k := s.kernel) data
    exact ⟨wf, by simp only [PipeLog.step, bytes, h.conserved, List.append_assoc]⟩
  | .read len => by
    obtain ⟨wf, bytes⟩ := Pipe.read_spec h.wf (k := s.kernel) len
    exact ⟨wf, by simp only [PipeLog.step, h.conserved, ← bytes, List.append_assoc]⟩
  | .closeReadEnd => ⟨⟨h.wf.readPos_lt, h.wf.count_le, h.wf.writePos_eq⟩, h.conserved⟩
  | .closeWriteEnd => ⟨⟨h.wf.readPos_lt, h.wf.count_le, h.wf.writePos_eq⟩, h.conserved⟩

theorem Fifo.run (ops : List PipeOp) : ∀ {s : PipeLog}, s.Fifo → (s.run ops).Fifo := by
  induction ops with
  | nil => exact fun h => h
  | cons op ops ih => exact fun h => ih (h.step op)

theorem step_prepend (w : List UInt8) (s : PipeLog) (op : PipeOp) :
    ({ s with written := w ++ s.written } : PipeLog).step op =
      { s.step op with written := w ++ (s.step op).written } := by
  cases op <;> simp [step, List.append_assoc]

theorem run_prepend (w : List UInt8) (ops : List PipeOp) : ∀ s : PipeLog,
    ({ s with written := w ++ s.written } : PipeLog).run ops = { s.run ops with written := w ++ (s.run ops).written } := by
  induction ops with
  | nil => exact fun _ => rfl
  | cons op ops ih =>
    intro s
    rw [run, List.foldl_cons, ← run, step_prepend, ih]
    rfl

end PipeLog

theorem Pipe.length_bytes (p : Pipe) : p.bytes.length = p.count := Ring.length_contents _ _ _ _

/-- From any well-formed ring, whatever it holds, every interleaving of
writes, resumed writes, reads and closes keeps the ring well formed; the reads
return a prefix of the bytes held at the start followed by the bytes the
writes reported written, the ring holds the rest, and `count` is their
number. -/
theorem pipe_ring_fifo_from_any_state (k : Kernel) {p : Pipe} (wf : p.Wf) (ops : List PipeOp) :
    let s := (⟨k, p, [], []⟩ : PipeLog).run ops
    s.pipe.Wf ∧ s.readOut ++ s.pipe.bytes = p.bytes ++ s.written ∧ s.readOut <+: p.bytes ++ s.written ∧
      s.pipe.count + s.readOut.length = p.count + s.written.length := by
  intro s
  have start : (⟨k, p, p.bytes ++ [], []⟩ : PipeLog).Fifo := ⟨wf, by simp⟩
  have fifo := start.run ops
  rw [show (⟨k, p, p.bytes ++ [], []⟩ : PipeLog) = { (⟨k, p, [], []⟩ : PipeLog) with written := p.bytes ++ [] } from rfl,
    PipeLog.run_prepend] at fifo
  have conserved : s.readOut ++ s.pipe.bytes = p.bytes ++ s.written := fifo.conserved.symm
  have lengths := congrArg List.length conserved
  simp only [List.length_append, Pipe.length_bytes] at lengths
  exact ⟨fifo.wf, conserved, ⟨_, conserved⟩, by omega⟩

theorem pipe_ring_fifo_from_any_state_create :
    Pipe.create.Wf ∧
      let s := (⟨Kernel.init, Pipe.create, [], []⟩ : PipeLog).run [.write [1, 2, 3], .read 2]
      s.pipe.Wf ∧ s.readOut ++ s.pipe.bytes = Pipe.create.bytes ++ s.written ∧
        s.readOut <+: Pipe.create.bytes ++ s.written ∧
        s.pipe.count + s.readOut.length = Pipe.create.count + s.written.length :=
  ⟨Pipe.wf_create, pipe_ring_fifo_from_any_state Kernel.init Pipe.wf_create _⟩

def holdingSeven : Pipe := { Pipe.create with buffer := Function.update (fun _ => 0) 0 7, writePos := 1, count := 1 }

/-- Started on a ring that already holds a byte, a read returns a byte that
no write of the run wrote, and `count` ends below the bytes written less the
bytes read. -/
theorem read_returns_byte_held_before_the_run :
    holdingSeven.Wf ∧
      let s := (⟨Kernel.init, holdingSeven, [], []⟩ : PipeLog).run [.read 1]
      s.readOut = [7] ∧ s.written = [] ∧ ¬ s.readOut <+: s.written :=
  ⟨⟨by decide, by decide, by decide⟩, by decide⟩

namespace Pipe

variable {k : Kernel} {l : List Pid}

theorem write_wakes_off_queue (h : k.Queued l) (p : Pipe) (data : List UInt8)
    (opened : p.readEndOpen = true) (room : data.length ≤ p.available)
    (nodup : (walk k.next k.pcbs.length p.readersHead).Nodup)
    (off : ∀ y ∈ walk k.next k.pcbs.length p.readersHead, y ∉ l) :
    (p.write k data).kernel.Queued l ∧ (p.write k data).kernel.gCurrentProcess = k.gCurrentProcess ∧
      ∀ y ∈ walk k.next k.pcbs.length p.readersHead, (p.write k data).kernel.state y = .ready := by
  have noWait : ¬ (p.available < data.length ∧ p.readEndOpen = true) := fun ⟨short, _⟩ => by omega
  have readers : (p.copyIn data).1.readersHead = p.readersHead := by
    rw [copyIn_frame]
  have eq : (p.write k data).kernel = k.wakeAll k.pcbs.length p.readersHead := by
    unfold write writeLoop
    rw [if_neg (by simp [opened]), if_neg noWait]
    exact congrArg (k.wakeAll k.pcbs.length) readers
  rw [eq, Kernel.wakeAll_eq _ _ nodup]
  refine ⟨?_, rfl, fun y woken => by simp [woken]⟩
  rw [← Kernel.wakeAll_eq _ _ nodup]
  exact h.wakeAll nodup off

end Pipe

def spawnedThree : Kernel := ((Kernel.init.spawnServer 1 0 0).spawnServer 2 0 0).spawnServer 3 0 0

def blockedRead : PipeCall (ℤ × List UInt8) := Pipe.create.read spawnedThree.schedule 1

def wakingWrite : PipeCall ℤ := blockedRead.pipe.write blockedRead.kernel [42]

/-- The write wakes the blocked reader: it is READY, but the ready queue holds
only the third server, and no number of `schedule` calls ever runs the reader
again. -/
theorem woken_reader_never_runs :
    blockedRead.result = none ∧ wakingWrite.result = some 1 ∧ wakingWrite.kernel.state 1 = .ready ∧
      walk wakingWrite.kernel.next wakingWrite.kernel.pcbs.length wakingWrite.kernel.gReadyQueueHead = [3] ∧
      ∀ n, (Nat.iterate Kernel.schedule n wakingWrite.kernel).gCurrentProcess ≠ some 1 := by
  have current : blockedRead.kernel.gCurrentProcess = some 2 := by decide
  have queued : blockedRead.kernel.Queued [3] := by
    refine ⟨by decide, fun c hc => ?_, by decide, fun c hc => ?_⟩ <;>
      rw [current, Option.some.injEq] at hc <;> subst hc <;> decide
  obtain ⟨queued', current', -⟩ := Pipe.write_wakes_off_queue queued blockedRead.pipe [42]
    (by decide) (by decide) (by decide) (by decide)
  have notCurrent : wakingWrite.kernel.gCurrentProcess ≠ some 1 := by
    rw [wakingWrite, current', current]
    decide
  refine ⟨by decide, by decide, by decide, by decide, fun n => ?_⟩
  exact (queued'.never_picked n (by decide) notCurrent).1

end Xinim.Proc
