import Xinim.Data.Bytes

/-! The initial user stack of execve (kernel/exec_stack.cpp): `count_strings`,
`calculate_string_size`, `calculate_stack_size` and `setup_exec_stack`. The
frame is the kernel buffer of `calculate_stack_size` bytes, zeroed; a store or
`memcpy` outside it is a fault. `size_t` and `uint64_t` sums are `UInt64`; the
buffer positions are naturals, which they equal on every run that does not
fault. The reading a process makes of the frame is `decodeFrame`. -/

namespace Xinim.Kernel

open Buffer

structure CStr where
  bytes : List UInt8
  noNul : 0 ∉ bytes

def intMax : ℕ := 2 ^ 31 - 1

/-- `count_strings`: the entries before the NULL pointer, counted in an `int`
whose `count++` past `INT_MAX` overflows; a NULL array has none. -/
def countStrings (strings : List CStr) : Except Fault ℕ :=
  if strings.length ≤ intMax then .ok strings.length else .error .overflow

/-- `calculate_string_size`: `strlen + 1` of each entry, summed in a `size_t`,
over an `int` index that overflows past `INT_MAX`. -/
def calculateStringSize (strings : List CStr) : Except Fault UInt64 :=
  if strings.length ≤ intMax then .ok (strings.foldl (fun total s => total + (UInt64.ofNat s.bytes.length + 1)) 0)
  else .error .overflow

/-- `calculate_stack_size`; `argc + 1` and `envc + 1` are `int` sums. -/
def calculateStackSize (argc envc : ℕ) (argvStrSize envpStrSize : UInt64) : Except Fault UInt64 :=
  if intMax < argc + 1 ∨ intMax < envc + 1 then .error .overflow else
  let totalSize : UInt64 := 8
  let totalSize := totalSize + UInt64.ofNat (argc + 1) * 8
  let totalSize := totalSize + UInt64.ofNat (envc + 1) * 8
  let totalSize := totalSize + argvStrSize
  let totalSize := totalSize + envpStrSize
  .ok ((totalSize + 15) &&& ~~~15)

structure Frame where
  buffer : List UInt8
  currentPos : ℕ
  stringPos : ℕ

/-- One turn of the argv or the envp loop: the address `stack_ptr + string_pos`
into the next pointer slot, then the string and its NUL at `string_pos`. -/
def copyString (stackPtr : UInt64) (frame : Frame) (s : CStr) : Except Fault Frame := do
  let strAddr := stackPtr + UInt64.ofNat frame.stringPos
  let buffer ← copyIn frame.buffer frame.currentPos (storeLE 8 strAddr.toNat)
  let strLen := s.bytes.length + 1
  let buffer ← copyIn buffer frame.stringPos (s.bytes ++ [0])
  return ⟨buffer, frame.currentPos + 8, frame.stringPos + strLen⟩

def copyStrings (stackPtr : UInt64) : Frame → List CStr → Except Fault Frame
  | frame, [] => .ok frame
  | frame, s :: strings => do
    let frame ← copyString stackPtr frame s
    copyStrings stackPtr frame strings

/-- `setup_exec_stack`: the stack pointer it returns, with the buffer it fills. -/
def setupExecStack (stackTop : UInt64) (argv envp : List CStr) : Except Fault (UInt64 × List UInt8) := do
  let argc ← countStrings argv
  let envc ← countStrings envp
  let argvStrSize ← calculateStringSize argv
  let envpStrSize ← calculateStringSize envp
  let totalSize ← calculateStackSize argc envc argvStrSize envpStrSize
  let stackPtr := (stackTop - totalSize) &&& ~~~15
  let stackBuffer := List.replicate totalSize.toNat (0 : UInt8)
  let stringAreaOffset := 8 + (argc + 1) * 8 + (envc + 1) * 8
  let buffer ← copyIn stackBuffer 0 (storeLE 8 argc)
  let frame ← copyStrings stackPtr ⟨buffer, 8, stringAreaOffset⟩ argv
  let buffer ← copyIn frame.buffer frame.currentPos (storeLE 8 0)
  let frame ← copyStrings stackPtr ⟨buffer, frame.currentPos + 8, frame.stringPos⟩ envp
  let buffer ← copyIn frame.buffer frame.currentPos (storeLE 8 0)
  return (stackPtr, buffer)

/-! ### The frame as a process reads it -/

def loadWord (buffer : List UInt8) (off : ℕ) : UInt64 := UInt64.ofNat (loadLE (readAt buffer off 8))

/-- `n` pointer words from `off` and the NULL word after them, each pointer
read as the C string at its distance from `sp`. -/
def readStrings (sp : UInt64) (buffer : List UInt8) : ℕ → ℕ → Option (List (List UInt8))
  | off, 0 => if loadWord buffer off = 0 then some [] else none
  | off, n + 1 => do
    let s ← cStringAt buffer (loadWord buffer off - sp).toNat
    let strings ← readStrings sp buffer (off + 8) n
    return s :: strings

/-- argc in the first word, then argc strings through the pointers after it,
then `envc` strings through the pointers after argv's NULL. -/
def decodeFrame (sp : UInt64) (buffer : List UInt8) (envc : ℕ) : Option (List (List UInt8) × List (List UInt8)) := do
  let argc := (loadWord buffer 0).toNat
  let args ← readStrings sp buffer 8 argc
  let envs ← readStrings sp buffer (8 + (argc + 1) * 8) envc
  return (args, envs)

def stringsSize (strings : List CStr) : ℕ := (strings.map fun s => s.bytes.length + 1).sum

def frameBytes (argv envp : List CStr) : ℕ :=
  8 + (argv.length + 1) * 8 + (envp.length + 1) * 8 + stringsSize argv + stringsSize envp

@[simp] theorem stringsSize_nil : stringsSize [] = 0 := rfl

@[simp] theorem stringsSize_cons (s : CStr) (strings : List CStr) :
    stringsSize (s :: strings) = s.bytes.length + 1 + stringsSize strings := by
  simp [stringsSize]

/-! ### Sizes -/

theorem toNat_foldl_size (strings : List CStr) (total : UInt64) :
    (strings.foldl (fun total s => total + (UInt64.ofNat s.bytes.length + 1)) total).toNat =
      (total.toNat + stringsSize strings) % 2 ^ 64 := by
  induction strings generalizing total with
  | nil => simp [Nat.mod_eq_of_lt total.toNat_lt]
  | cons s strings ih =>
    rw [List.foldl_cons, ih, stringsSize_cons, UInt64.toNat_add, UInt64.toNat_add, UInt64.toNat_ofNat',
      UInt64.toNat_one]
    omega

theorem countStrings_of_le {strings : List CStr} (small : strings.length ≤ intMax) :
    countStrings strings = .ok strings.length :=
  if_pos small

theorem calculateStringSize_of_le {strings : List CStr} (small : strings.length ≤ intMax) :
    ∃ size, calculateStringSize strings = .ok size ∧ size.toNat = stringsSize strings % 2 ^ 64 :=
  ⟨_, if_pos small, by rw [toNat_foldl_size, UInt64.toNat_zero, Nat.zero_add]⟩

theorem toNat_and_not_low_bits (y : UInt64) (k : ℕ) (hk : k ≤ 64) :
    (y &&& ~~~(UInt64.ofNat (2 ^ k - 1))).toNat = y.toNat / 2 ^ k * 2 ^ k := by
  have pos : 1 ≤ 2 ^ k := Nat.one_le_two_pow
  have bounded : 2 ^ k ≤ 2 ^ 64 := Nat.pow_le_pow_right (by decide) hk
  have mask : (~~~(UInt64.ofNat (2 ^ k - 1))).toNat = (2 ^ (64 - k) - 1) <<< k := by
    rw [UInt64.toNat_not, UInt64.toNat_ofNat', Nat.mod_eq_of_lt (by omega), Nat.shiftLeft_eq, Nat.sub_mul,
      Nat.one_mul, ← Nat.pow_add, Nat.sub_add_cancel hk]
    change 2 ^ 64 - 1 - (2 ^ k - 1) = 2 ^ 64 - 2 ^ k
    omega
  have shifted : y.toNat / 2 ^ k * 2 ^ k = (y.toNat >>> k) <<< k := by
    rw [Nat.shiftLeft_eq, Nat.shiftRight_eq_div_pow]
  rw [UInt64.toNat_and, mask, shifted]
  apply Nat.eq_of_testBit_eq
  intro i
  rw [Nat.testBit_and, Nat.testBit_shiftLeft, Nat.testBit_shiftLeft, Nat.testBit_two_pow_sub_one,
    Nat.testBit_shiftRight]
  by_cases low : k ≤ i
  · rw [Nat.add_sub_cancel' low]
    by_cases high : i < 64
    · simp [low, show i - k < 64 - k by omega]
    · have past : y.toNat < 2 ^ i := Nat.lt_of_lt_of_le y.toNat_lt (Nat.pow_le_pow_right (by decide) (by omega))
      simp [Nat.testBit_lt_two_pow past]
  · simp [low]

theorem toNat_and_not_fifteen (y : UInt64) : (y &&& ~~~15).toNat = y.toNat / 16 * 16 :=
  toNat_and_not_low_bits y 4 (by decide)

theorem calculateStackSize_of_lt {argc envc : ℕ} {argvStrSize envpStrSize : UInt64}
    (argcSmall : argc < intMax) (envcSmall : envc < intMax)
    (fits : 8 + (argc + 1) * 8 + (envc + 1) * 8 + argvStrSize.toNat + envpStrSize.toNat + 15 < 2 ^ 64) :
    ∃ totalSize, calculateStackSize argc envc argvStrSize envpStrSize = .ok totalSize ∧
      totalSize.toNat = (8 + (argc + 1) * 8 + (envc + 1) * 8 + argvStrSize.toNat + envpStrSize.toNat + 15) / 16 * 16 := by
  refine ⟨_, if_neg (by omega), ?_⟩
  rw [toNat_and_not_fifteen]
  simp only [UInt64.toNat_add, UInt64.toNat_mul, UInt64.toNat_ofNat', UInt64.reduceToNat]
  congr 2
  omega

/-! ### The copy loops -/

def Laid (sp : UInt64) (buffer : List UInt8) : ℕ → ℕ → List CStr → Prop
  | _, _, [] => True
  | slot, pos, s :: strings =>
    Placed buffer slot (storeLE 8 (sp + UInt64.ofNat pos).toNat) ∧ Placed buffer pos (s.bytes ++ [0]) ∧
      Laid sp buffer (slot + 8) (pos + s.bytes.length + 1) strings

def Covered (slot pos : ℕ) (strings : List CStr) (i : ℕ) : Prop :=
  slot ≤ i ∧ i < slot + 8 * strings.length ∨ pos ≤ i ∧ i < pos + stringsSize strings

theorem copyString_spec {sp : UInt64} {buffer : List UInt8} {slot pos : ℕ} (s : CStr)
    (room : slot + 8 ≤ pos) (fits : pos + s.bytes.length + 1 ≤ buffer.length) :
    ∃ buffer', copyString sp ⟨buffer, slot, pos⟩ s = .ok ⟨buffer', slot + 8, pos + s.bytes.length + 1⟩ ∧
      buffer'.length = buffer.length ∧
      Placed buffer' slot (storeLE 8 (sp + UInt64.ofNat pos).toNat) ∧ Placed buffer' pos (s.bytes ++ [0]) ∧
      Unchanged buffer buffer' (Covered slot pos [s]) := by
  obtain ⟨pointed, slotted⟩ : ∃ b, copyIn buffer slot (storeLE 8 (sp + UInt64.ofNat pos).toNat) = .ok b :=
    ⟨_, copyIn_of_le (by rw [length_storeLE]; omega)⟩
  have pointedLength := length_of_copyIn slotted
  obtain ⟨copied, stored⟩ : ∃ b, copyIn pointed pos (s.bytes ++ [0]) = .ok b :=
    ⟨_, copyIn_of_le (by simp only [List.length_append, List.length_singleton]; omega)⟩
  refine ⟨copied, ?run, (length_of_copyIn stored).trans pointedLength, ?pointer, placed_copyIn stored, ?kept⟩
  case run =>
    simp only [copyString, slotted, stored, bind, Except.bind, pure, Except.pure]
    rfl
  case pointer =>
    refine (placed_copyIn slotted).of_unchanged (unchanged_copyIn stored) fun i _ below => ?_
    simp only [length_storeLE] at below
    omega
  case kept =>
    refine ((unchanged_copyIn slotted).trans (unchanged_copyIn stored)).mono fun i written => ?_
    simp only [length_storeLE, List.length_append, List.length_singleton] at written
    simp only [Covered, List.length_singleton, stringsSize_cons, stringsSize_nil]
    omega

theorem copyStrings_spec (sp : UInt64) (strings : List CStr) :
    ∀ (buffer : List UInt8) (slot pos : ℕ), slot + 8 * strings.length ≤ pos →
      pos + stringsSize strings ≤ buffer.length →
      ∃ buffer', copyStrings sp ⟨buffer, slot, pos⟩ strings =
          .ok ⟨buffer', slot + 8 * strings.length, pos + stringsSize strings⟩ ∧
        buffer'.length = buffer.length ∧ Laid sp buffer' slot pos strings ∧
        Unchanged buffer buffer' (Covered slot pos strings) := by
  induction strings with
  | nil =>
    intro buffer slot pos _ _
    exact ⟨buffer, rfl, rfl, trivial, Unchanged.refl _ _⟩
  | cons s strings ih =>
    intro buffer slot pos room fits
    simp only [List.length_cons, stringsSize_cons] at room fits
    obtain ⟨mid, step, midLength, pointer, string, keptStep⟩ := @copyString_spec sp buffer slot pos s (by omega) (by omega)
    obtain ⟨final, run, finalLength, laid, keptRun⟩ :=
      ih mid (slot + 8) (pos + s.bytes.length + 1) (by omega) (by omega)
    have nextSlot : slot + 8 + 8 * strings.length = slot + 8 * (s :: strings).length := by
      simp only [List.length_cons]
      omega
    have nextPos : pos + s.bytes.length + 1 + stringsSize strings = pos + stringsSize (s :: strings) := by
      simp only [stringsSize_cons]
      omega
    refine ⟨final, ?run, finalLength.trans midLength, ⟨?pointer, ?string, laid⟩, ?kept⟩
    case run =>
      rw [copyStrings, step, ← nextSlot, ← nextPos]
      exact run
    case pointer =>
      refine pointer.of_unchanged keptRun fun i _ below => ?_
      simp only [length_storeLE] at below
      simp only [Covered]
      omega
    case string =>
      refine string.of_unchanged keptRun fun i _ below => ?_
      simp only [List.length_append, List.length_singleton] at below
      simp only [Covered]
      omega
    case kept =>
      refine (keptStep.trans keptRun).mono fun i written => ?_
      simp only [Covered, List.length_cons, List.length_nil, stringsSize_cons, stringsSize_nil] at written ⊢
      omega

theorem Laid.of_unchanged {sp : UInt64} {buffer buffer' : List UInt8} {written : ℕ → Prop}
    (same : Unchanged buffer buffer' written) :
    ∀ {strings : List CStr} {slot pos : ℕ}, Laid sp buffer slot pos strings →
      (∀ i, Covered slot pos strings i → ¬ written i) → Laid sp buffer' slot pos strings
  | [], _, _, _, _ => trivial
  | s :: strings, slot, pos, ⟨pointer, string, rest⟩, apart => by
    refine ⟨pointer.of_unchanged same fun i low high => apart i ?_,
      string.of_unchanged same fun i low high => apart i ?_, Laid.of_unchanged same rest fun i inside => apart i ?_⟩
    · simp only [length_storeLE] at high
      simp only [Covered, List.length_cons]
      omega
    · simp only [List.length_append, List.length_singleton] at high
      simp only [Covered, stringsSize_cons]
      omega
    · simp only [Covered, List.length_cons, stringsSize_cons] at inside ⊢
      omega

/-! ### Reading the frame back -/

theorem loadWord_of_placed {buffer : List UInt8} {off v : ℕ} (placed : Placed buffer off (storeLE 8 v)) :
    loadWord buffer off = UInt64.ofNat v := by
  rw [Placed, length_storeLE] at placed
  rw [loadWord, placed, loadLE_storeLE]
  apply UInt64.toNat_inj.mp
  simp only [UInt64.toNat_ofNat']
  omega

theorem pointer_offset {buffer : List UInt8} {slot pos : ℕ} (sp : UInt64) (small : pos < 2 ^ 64)
    (placed : Placed buffer slot (storeLE 8 (sp + UInt64.ofNat pos).toNat)) :
    (loadWord buffer slot - sp).toNat = pos := by
  rw [loadWord_of_placed placed, UInt64.ofNat_toNat, UInt64.add_comm, UInt64.add_sub_cancel,
    UInt64.toNat_ofNat', Nat.mod_eq_of_lt small]

theorem readStrings_of_laid {sp : UInt64} {buffer : List UInt8} :
    ∀ {strings : List CStr} {slot pos : ℕ}, Laid sp buffer slot pos strings →
      Placed buffer (slot + 8 * strings.length) (storeLE 8 0) → pos + stringsSize strings < 2 ^ 64 →
      readStrings sp buffer slot strings.length = some (strings.map CStr.bytes)
  | [], slot, pos, _, null, _ => by
    rw [List.length_nil, Nat.mul_zero, Nat.add_zero] at null
    simp [readStrings, loadWord_of_placed null]
  | s :: strings, slot, pos, ⟨pointer, string, rest⟩, null, small => by
    simp only [List.length_cons, stringsSize_cons] at null small
    have restNull : Placed buffer (slot + 8 + 8 * strings.length) (storeLE 8 0) := by
      rw [show slot + 8 + 8 * strings.length = slot + 8 * (strings.length + 1) by omega]
      exact null
    rw [List.length_cons, readStrings, pointer_offset sp (by omega) pointer, cStringAt_of_placed string s.noNul,
      readStrings_of_laid rest restNull (by omega)]
    rfl

/-! ### The whole frame -/

/-- The frame at `sp` as the System V ABI lays it out: argc, argv's pointers and
NULL, envp's pointers and NULL, then argv's strings and envp's. -/
structure Layout (sp : UInt64) (buffer : List UInt8) (argv envp : List CStr) : Prop where
  argc : Placed buffer 0 (storeLE 8 argv.length)
  args : Laid sp buffer 8 (8 + (argv.length + 1) * 8 + (envp.length + 1) * 8) argv
  argsEnd : Placed buffer (8 + 8 * argv.length) (storeLE 8 0)
  envs : Laid sp buffer (8 + 8 * argv.length + 8)
    (8 + (argv.length + 1) * 8 + (envp.length + 1) * 8 + stringsSize argv) envp
  envsEnd : Placed buffer (8 + 8 * argv.length + 8 + 8 * envp.length) (storeLE 8 0)

theorem decodeFrame_of_layout {sp : UInt64} {buffer : List UInt8} {argv envp : List CStr}
    (layout : Layout sp buffer argv envp) (small : frameBytes argv envp < 2 ^ 64) :
    decodeFrame sp buffer envp.length = some (argv.map CStr.bytes, envp.map CStr.bytes) := by
  unfold frameBytes at small
  have count : (loadWord buffer 0).toNat = argv.length := by
    rw [loadWord_of_placed layout.argc, UInt64.toNat_ofNat', Nat.mod_eq_of_lt (by omega)]
  have args := readStrings_of_laid layout.args layout.argsEnd (by omega)
  have envs := readStrings_of_laid layout.envs layout.envsEnd (by omega)
  rw [show 8 + 8 * argv.length + 8 = 8 + (argv.length + 1) * 8 by omega] at envs
  simp only [decodeFrame, count, args, envs]
  rfl

theorem toNat_and_not_fifteen_mod (y : UInt64) : (y &&& ~~~15).toNat % 16 = 0 := by
  rw [toNat_and_not_fifteen, Nat.mul_mod_left]

theorem setupExecStack_layout (stackTop : UInt64) (argv envp : List CStr)
    (argcFits : argv.length < intMax) (envcFits : envp.length < intMax) (fits : frameBytes argv envp + 15 < 2 ^ 64) :
    ∃ sp buffer, setupExecStack stackTop argv envp = .ok (sp, buffer) ∧
      buffer.length = (frameBytes argv envp + 15) / 16 * 16 ∧ sp.toNat % 16 = 0 ∧ Layout sp buffer argv envp := by
  unfold frameBytes at fits ⊢
  obtain ⟨argvSize, argvSized, sizeA⟩ := calculateStringSize_of_le (show argv.length ≤ intMax by omega)
  obtain ⟨envpSize, envpSized, sizeE⟩ := calculateStringSize_of_le (show envp.length ≤ intMax by omega)
  rw [Nat.mod_eq_of_lt (by omega)] at sizeA sizeE
  obtain ⟨totalSize, totalSized, totalEq⟩ := calculateStackSize_of_lt argcFits envcFits
    (show 8 + (argv.length + 1) * 8 + (envp.length + 1) * 8 + argvSize.toNat + envpSize.toNat + 15 < 2 ^ 64 by
      rw [sizeA, sizeE]; exact fits)
  rw [sizeA, sizeE] at totalEq
  obtain ⟨sp, spEq⟩ : ∃ sp, (stackTop - totalSize) &&& ~~~15 = sp := ⟨_, rfl⟩
  have total : 8 + (argv.length + 1) * 8 + (envp.length + 1) * 8 + stringsSize argv + stringsSize envp ≤
      totalSize.toNat := by
    rw [totalEq]
    omega
  obtain ⟨b₁, w₁⟩ : ∃ b, copyIn (List.replicate totalSize.toNat 0) 0 (storeLE 8 argv.length) = .ok b :=
    ⟨_, copyIn_of_le (by simp only [List.length_replicate, length_storeLE]; omega)⟩
  have len₁ : b₁.length = totalSize.toNat := (length_of_copyIn w₁).trans (List.length_replicate ..)
  obtain ⟨b₂, run₁, len₂, laid₁, kept₁⟩ := copyStrings_spec sp argv b₁ 8
    (8 + (argv.length + 1) * 8 + (envp.length + 1) * 8) (by omega) (by omega)
  obtain ⟨b₃, w₃⟩ : ∃ b, copyIn b₂ (8 + 8 * argv.length) (storeLE 8 0) = .ok b :=
    ⟨_, copyIn_of_le (by rw [length_storeLE]; omega)⟩
  have len₃ := length_of_copyIn w₃
  obtain ⟨b₄, run₂, len₄, laid₂, kept₂⟩ := copyStrings_spec sp envp b₃ (8 + 8 * argv.length + 8)
    (8 + (argv.length + 1) * 8 + (envp.length + 1) * 8 + stringsSize argv) (by omega) (by omega)
  obtain ⟨b₅, w₅⟩ : ∃ b, copyIn b₄ (8 + 8 * argv.length + 8 + 8 * envp.length) (storeLE 8 0) = .ok b :=
    ⟨_, copyIn_of_le (by rw [length_storeLE]; omega)⟩
  have len₅ := length_of_copyIn w₅
  refine ⟨sp, b₅, ?run, by omega, spEq ▸ toNat_and_not_fifteen_mod _, ⟨?argc, ?args, ?argsEnd, ?envs, ?envsEnd⟩⟩
  case run =>
    simp only [setupExecStack, countStrings_of_le (Nat.le_of_lt argcFits), countStrings_of_le (Nat.le_of_lt envcFits),
      argvSized, envpSized, totalSized, spEq, w₁, run₁, w₃, run₂, w₅, bind, Except.bind, pure, Except.pure]
  case argc =>
    refine (placed_copyIn w₁).of_unchanged
      (((kept₁.trans (unchanged_copyIn w₃)).trans kept₂).trans (unchanged_copyIn w₅)) fun i _ below => ?_
    simp only [length_storeLE] at below ⊢
    simp only [Covered]
    omega
  case args =>
    refine Laid.of_unchanged (((unchanged_copyIn w₃).trans kept₂).trans (unchanged_copyIn w₅)) laid₁
      fun i inside => ?_
    simp only [Covered, length_storeLE] at inside ⊢
    omega
  case argsEnd =>
    refine (placed_copyIn w₃).of_unchanged (kept₂.trans (unchanged_copyIn w₅)) fun i _ below => ?_
    simp only [length_storeLE] at below ⊢
    simp only [Covered]
    omega
  case envs =>
    refine Laid.of_unchanged (unchanged_copyIn w₅) laid₂ fun i inside => ?_
    simp only [Covered, length_storeLE] at inside ⊢
    omega
  case envsEnd => exact placed_copyIn w₅

/-- With fewer than `INT_MAX` strings in argv and in envp, and the frame's
size fitting in 64 bits, `setup_exec_stack` fills a buffer of the frame's size
rounded up to 16 without a store outside it, returns a 16-byte aligned stack
pointer, and the frame reads back as argc, argv and envp. -/
theorem exec_stack_round_trip_when_size_fits (stackTop : UInt64) (argv envp : List CStr)
    (argcFits : argv.length < intMax) (envcFits : envp.length < intMax) (fits : frameBytes argv envp + 15 < 2 ^ 64) :
    ∃ sp buffer, setupExecStack stackTop argv envp = .ok (sp, buffer) ∧
      buffer.length = (frameBytes argv envp + 15) / 16 * 16 ∧
      sp.toNat % 16 = 0 ∧
      decodeFrame sp buffer envp.length = some (argv.map CStr.bytes, envp.map CStr.bytes) := by
  obtain ⟨sp, buffer, run, length, aligned, layout⟩ := setupExecStack_layout stackTop argv envp argcFits envcFits fits
  exact ⟨sp, buffer, run, length, aligned, decodeFrame_of_layout layout (by omega)⟩

theorem exec_stack_round_trip_for_ls :
    [(⟨[0x6C, 0x73], by decide⟩ : CStr)].length < intMax ∧
    [(⟨[0x48, 0x4F, 0x4D, 0x45, 0x3D, 0x2F], by decide⟩ : CStr)].length < intMax ∧
    frameBytes [⟨[0x6C, 0x73], by decide⟩] [⟨[0x48, 0x4F, 0x4D, 0x45, 0x3D, 0x2F], by decide⟩] + 15 < 2 ^ 64 ∧
    ∃ sp buffer, setupExecStack 0x7FFFFFFFF000 [⟨[0x6C, 0x73], by decide⟩]
        [⟨[0x48, 0x4F, 0x4D, 0x45, 0x3D, 0x2F], by decide⟩] = .ok (sp, buffer) ∧
      buffer.length = (frameBytes [⟨[0x6C, 0x73], by decide⟩]
        [⟨[0x48, 0x4F, 0x4D, 0x45, 0x3D, 0x2F], by decide⟩] + 15) / 16 * 16 ∧
      sp.toNat % 16 = 0 ∧
      decodeFrame sp buffer 1 = some ([[0x6C, 0x73]], [[0x48, 0x4F, 0x4D, 0x45, 0x3D, 0x2F]]) :=
  ⟨by decide, by decide, by decide,
    exec_stack_round_trip_when_size_fits 0x7FFFFFFFF000 _ _ (by decide) (by decide) (by decide)⟩

/-! ### Past 64 bits -/

theorem stringsSize_replicate (n : ℕ) (s : CStr) :
    stringsSize (List.replicate n s) = n * (s.bytes.length + 1) := by
  induction n with
  | zero => rw [List.replicate_zero, stringsSize_nil, Nat.zero_mul]
  | succ n ih =>
    rw [List.replicate_succ, stringsSize_cons, ih, Nat.succ_mul]
    omega

theorem copyString_of_past {sp : UInt64} {buffer : List UInt8} {slot pos : ℕ} (s : CStr)
    (past : buffer.length < pos + s.bytes.length + 1) :
    copyString sp ⟨buffer, slot, pos⟩ s = .error .outOfBounds := by
  by_cases room : slot + 8 ≤ buffer.length
  · obtain ⟨pointed, slotted⟩ : ∃ b, copyIn buffer slot (storeLE 8 (sp + UInt64.ofNat pos).toNat) = .ok b :=
      ⟨_, copyIn_of_le (by rw [length_storeLE]; omega)⟩
    have overrun : copyIn pointed pos (s.bytes ++ [0]) = .error .outOfBounds := by
      apply copyIn_of_lt
      rw [length_of_copyIn slotted, List.length_append, List.length_singleton]
      omega
    simp only [copyString, slotted, overrun, bind, Except.bind]
  · have overrun : copyIn buffer slot (storeLE 8 (sp + UInt64.ofNat pos).toNat) = .error .outOfBounds :=
      copyIn_of_lt (by rw [length_storeLE]; omega)
    simp only [copyString, overrun, bind, Except.bind]

theorem setupExecStack_of_first_past (stackTop : UInt64) (s : CStr) (argv envp : List CStr)
    (argcFits : argv.length + 1 < intMax) (envcFits : envp.length < intMax) {argvSize envpSize totalSize : UInt64}
    (argvSized : calculateStringSize (s :: argv) = .ok argvSize) (envpSized : calculateStringSize envp = .ok envpSize)
    (totalSized : calculateStackSize (argv.length + 1) envp.length argvSize envpSize = .ok totalSize)
    (past : totalSize.toNat < 8 + (argv.length + 2) * 8 + (envp.length + 1) * 8 + s.bytes.length + 1) :
    setupExecStack stackTop (s :: argv) envp = .error .outOfBounds := by
  have counted : countStrings (s :: argv) = .ok (argv.length + 1) := countStrings_of_le (by simp only [List.length_cons]; omega)
  have countedE := countStrings_of_le (Nat.le_of_lt envcFits)
  by_cases room : 8 ≤ totalSize.toNat
  · obtain ⟨b₁, w₁⟩ : ∃ b, copyIn (List.replicate totalSize.toNat 0) 0 (storeLE 8 (argv.length + 1)) = .ok b :=
      ⟨_, copyIn_of_le (by simp only [length_storeLE, List.length_replicate]; omega)⟩
    have len₁ : b₁.length = totalSize.toNat := (length_of_copyIn w₁).trans (List.length_replicate ..)
    have overrun : copyStrings ((stackTop - totalSize) &&& ~~~15)
        ⟨b₁, 8, 8 + (argv.length + 1 + 1) * 8 + (envp.length + 1) * 8⟩ (s :: argv) = .error .outOfBounds := by
      rw [copyStrings, copyString_of_past s (by omega)]
      rfl
    simp only [setupExecStack, counted, countedE, argvSized, envpSized, totalSized, w₁, overrun, bind, Except.bind]
  · have overrun : copyIn (List.replicate totalSize.toNat 0) 0 (storeLE 8 (argv.length + 1)) = .error .outOfBounds :=
      copyIn_of_lt (by simp only [length_storeLE, List.length_replicate]; omega)
    simp only [setupExecStack, counted, countedE, argvSized, envpSized, totalSized, overrun, bind, Except.bind]

def hugeArg : CStr := ⟨List.replicate (2 ^ 40) 0x41, fun zero => absurd (List.eq_of_mem_replicate zero) (by decide)⟩

/-- 2^24 argv entries that all point at one string of 2^40 bytes: their sizes
sum to 2^64 + 2^24, which `calculate_string_size` wraps to 2^24, and the first
`memcpy` runs past the buffer. -/
theorem aliased_argv_overruns_stack_buffer :
    setupExecStack 0 (List.replicate (2 ^ 24) hugeArg) [] = .error .outOfBounds := by
  obtain ⟨m, count⟩ : ∃ m, 2 ^ 24 = m + 1 := ⟨_, rfl⟩
  have length : hugeArg.bytes.length = 2 ^ 40 := List.length_replicate ..
  have many : (List.replicate (m + 1) hugeArg).length = m + 1 := List.length_replicate ..
  obtain ⟨argvSize, argvSized, wrapped⟩ := calculateStringSize_of_le (show (List.replicate (m + 1) hugeArg).length ≤ intMax by
    rw [many, intMax]; omega)
  rw [stringsSize_replicate, length] at wrapped
  have strings : argvSize.toNat = 2 ^ 24 := by omega
  obtain ⟨totalSize, totalSized, totalEq⟩ := calculateStackSize_of_lt (show m + 1 < intMax by rw [intMax]; omega)
    (show ([] : List CStr).length < intMax by decide)
    (show 8 + (m + 1 + 1) * 8 + ([] : List CStr).length.succ * 8 + argvSize.toNat + (0 : UInt64).toNat + 15 < 2 ^ 64 by
      rw [strings, List.length_nil, UInt64.toNat_zero]; omega)
  rw [count, List.replicate_succ]
  refine setupExecStack_of_first_past 0 hugeArg _ [] (by rw [List.length_replicate, intMax]; omega) (by decide)
    (by rw [← List.replicate_succ]; exact argvSized) rfl (by rw [List.length_replicate]; exact totalSized) ?_
  rw [totalEq, strings, List.length_replicate, length, List.length_nil, UInt64.toNat_zero]
  omega

end Xinim.Kernel
