import Xinim.Kernel.ExecStack

/-! User memory as the system calls reach it (kernel/uaccess.cpp):
`is_user_address` on 64-bit addresses, `copy_from_user`, `copy_to_user`,
`copy_string_from_user` and `strnlen_user`. There are no per-process page
tables yet, so user memory is one map from addresses to bytes, and a copy is
a `memcpy` once the range is checked. -/

namespace Xinim.Kernel

def eIo : ℤ := 5

def eInval : ℤ := 22

def eFault : ℤ := 14

def eNametoolong : ℤ := 36

def userSpaceStart : UInt64 := 0x0000000000001000

def userSpaceEnd : UInt64 := 0x0000800000000000

def pathMax : UInt64 := 4096

def ssize (x : UInt64) : ℤ := if x.toNat < 2 ^ 63 then x.toNat else x.toNat - 2 ^ 64

abbrev UserMem := ℕ → UInt8

def isUserAddress (addr size : UInt64) : Bool :=
  if addr < userSpaceStart then false
  else if addr ≥ userSpaceEnd then false
  else
    let stop := addr + size
    -- the sum of two `uintptr_t`s wraps
    if stop < addr then false
    else if stop > userSpaceEnd then false
    else true

def copyFromUser (mem : UserMem) (src size : UInt64) : Except ℤ (List UInt8) :=
  if !isUserAddress src size then .error (-eFault)
  else .ok ((List.range size.toNat).map fun i => mem (src.toNat + i))

def UserMem.write (mem : UserMem) (dest : ℕ) (bytes : List UInt8) : UserMem := fun a =>
  if dest ≤ a ∧ a < dest + bytes.length then bytes.getD (a - dest) 0 else mem a

def copyToUser (mem : UserMem) (dest : UInt64) (bytes : List UInt8) : Except ℤ UserMem :=
  if !isUserAddress dest (UInt64.ofNat bytes.length) then .error (-eFault)
  else .ok (mem.write dest.toNat bytes)

/-- The loop of `copy_string_from_user` from offset `copied`, with `remaining`
turns left: the bytes before the NUL it stops at. -/
def copyStringLoop (mem : UserMem) (src : UInt64) : ℕ → ℕ → Except ℤ (List UInt8)
  | _, 0 => .error (-eNametoolong)
  | copied, remaining + 1 =>
    let addr := src + UInt64.ofNat copied
    if !isUserAddress addr 1 then .error (-eFault)
    else
      let c := mem addr.toNat
      if c = 0 then .ok []
      else (c :: ·) <$> copyStringLoop mem src (copied + 1) remaining

def copyStringFromUser (mem : UserMem) (src maxLen : UInt64) : Except ℤ (List UInt8) :=
  if maxLen = 0 then .error (-eInval)
  else if !isUserAddress src 1 then .error (-eFault)
  else copyStringLoop mem src 0 maxLen.toNat

def strnlenLoop (mem : UserMem) (src : UInt64) : ℕ → ℕ → ℤ
  | len, 0 => ssize (UInt64.ofNat len)
  | len, remaining + 1 =>
    let addr := src + UInt64.ofNat len
    if !isUserAddress addr 1 then -eFault
    else if mem addr.toNat = 0 then ssize (UInt64.ofNat len)
    else strnlenLoop mem src (len + 1) remaining

def strnlenUser (mem : UserMem) (src maxLen : UInt64) : ℤ :=
  if !isUserAddress src 1 then -eFault else strnlenLoop mem src 0 maxLen.toNat

/-! ### The range test -/

theorem isUserAddress_iff (addr size : UInt64) :
    isUserAddress addr size = true ↔
      0x1000 ≤ addr.toNat ∧ addr.toNat < 2 ^ 47 ∧ addr.toNat + size.toNat ≤ 2 ^ 47 := by
  have lo : addr < userSpaceStart ↔ addr.toNat < 0x1000 := by
    rw [UInt64.lt_iff_toNat_lt]
    rfl
  have hi : addr ≥ userSpaceEnd ↔ 2 ^ 47 ≤ addr.toNat := by
    rw [ge_iff_le, UInt64.le_iff_toNat_le]
    rfl
  have sum := UInt64.toNat_add addr size
  have wrap : addr + size < addr ↔ 2 ^ 64 ≤ addr.toNat + size.toNat := by
    rw [UInt64.lt_iff_toNat_lt, sum]
    have := addr.toNat_lt
    have := size.toNat_lt
    constructor
    · intro below
      by_contra fits
      rw [Nat.mod_eq_of_lt (by omega)] at below
      omega
    · intro beyond
      have : (addr.toNat + size.toNat) % 2 ^ 64 = addr.toNat + size.toNat - 2 ^ 64 := by
        rw [Nat.mod_eq_sub_mod beyond, Nat.mod_eq_of_lt (by omega)]
      omega
  unfold isUserAddress
  dsimp only
  by_cases below : addr < userSpaceStart
  · rw [if_pos below]
    simp only [Bool.false_eq_true, false_iff]
    rw [lo] at below
    omega
  rw [if_neg below]
  rw [lo] at below
  by_cases above : addr ≥ userSpaceEnd
  · rw [if_pos above]
    simp only [Bool.false_eq_true, false_iff]
    rw [hi] at above
    omega
  rw [if_neg above]
  rw [hi] at above
  by_cases wrapped : addr + size < addr
  · rw [if_pos wrapped]
    simp only [Bool.false_eq_true, false_iff]
    rw [wrap] at wrapped
    omega
  rw [if_neg wrapped]
  rw [wrap] at wrapped
  have fits : (addr + size).toNat = addr.toNat + size.toNat := by
    rw [sum, Nat.mod_eq_of_lt (by omega)]
  have past : addr + size > userSpaceEnd ↔ 2 ^ 47 < addr.toNat + size.toNat := by
    rw [gt_iff_lt, UInt64.lt_iff_toNat_lt, fits]
    rfl
  by_cases beyond : addr + size > userSpaceEnd
  · rw [if_pos beyond]
    simp only [Bool.false_eq_true, false_iff]
    rw [past] at beyond
    omega
  · rw [if_neg beyond]
    simp only [true_iff]
    rw [past] at beyond
    omega

theorem isUserAddress_of_le {addr size size' : UInt64} (valid : isUserAddress addr size = true)
    (le : size'.toNat ≤ size.toNat) : isUserAddress addr size' = true := by
  rw [isUserAddress_iff] at valid ⊢
  omega

/-! ### Copies -/

@[simp] theorem length_copyFromUser {mem : UserMem} {src size : UInt64} {bytes : List UInt8}
    (copied : copyFromUser mem src size = .ok bytes) : bytes.length = size.toNat := by
  unfold copyFromUser at copied
  split_ifs at copied
  cases copied
  simp

theorem copyToUser_of_within {mem : UserMem} {dest size : UInt64} (valid : isUserAddress dest size = true)
    {bytes : List UInt8} (within : bytes.length ≤ size.toNat) :
    copyToUser mem dest bytes = .ok (mem.write dest.toNat bytes) := by
  have fits : isUserAddress dest (UInt64.ofNat bytes.length) = true := by
    refine isUserAddress_of_le valid ?_
    rw [isUserAddress_iff] at valid
    rw [UInt64.toNat_ofNat', Nat.mod_eq_of_lt (by omega)]
    exact within
  simp [copyToUser, fits]

theorem UserMem.write_apply (mem : UserMem) (dest : ℕ) (bytes : List UInt8) (a : ℕ) :
    mem.write dest bytes a = if dest ≤ a ∧ a < dest + bytes.length then bytes.getD (a - dest) 0 else mem a :=
  rfl

theorem UserMem.read_write (mem : UserMem) (dest : ℕ) (bytes : List UInt8) :
    (List.range bytes.length).map (fun i => mem.write dest bytes (dest + i)) = bytes := by
  apply List.ext_getElem (by simp)
  intro i inRange _
  simp only [List.getElem_map, List.getElem_range, UserMem.write_apply]
  rw [List.length_map, List.length_range] at inRange
  rw [if_pos ⟨Nat.le_add_right _ _, by omega⟩, Nat.add_sub_cancel_left, List.getD_eq_getElem _ _ inRange]

/-! ### Strings -/

/-- The user string at `src`: its bytes are non-NUL user bytes, and a user NUL
follows them. -/
def UserString (mem : UserMem) (src : UInt64) (s : List UInt8) : Prop :=
  (∀ i (inside : i < s.length), isUserAddress (src + UInt64.ofNat i) 1 = true ∧
      mem (src + UInt64.ofNat i).toNat = s[i] ∧ s[i] ≠ 0) ∧
    isUserAddress (src + UInt64.ofNat s.length) 1 = true ∧ mem (src + UInt64.ofNat s.length).toNat = 0

theorem copyStringLoop_eq_ok {mem : UserMem} {src : UInt64} :
    ∀ (remaining copied : ℕ) (s : List UInt8), copyStringLoop mem src copied remaining = .ok s ↔
      s.length < remaining ∧
        (∀ i (inside : i < s.length), isUserAddress (src + UInt64.ofNat (copied + i)) 1 = true ∧
          mem (src + UInt64.ofNat (copied + i)).toNat = s[i] ∧ s[i] ≠ 0) ∧
        isUserAddress (src + UInt64.ofNat (copied + s.length)) 1 = true ∧
          mem (src + UInt64.ofNat (copied + s.length)).toNat = 0
  | 0, copied, s => by
    simp only [copyStringLoop, reduceCtorEq, false_iff, not_and]
    intro short
    omega
  | remaining + 1, copied, s => by
    unfold copyStringLoop
    dsimp only
    by_cases valid : isUserAddress (src + UInt64.ofNat copied) 1 = true
    · simp only [valid, Bool.not_true, Bool.false_eq_true, if_false]
      by_cases nul : mem (src + UInt64.ofNat copied).toNat = 0
      · rw [if_pos nul, Except.ok.injEq]
        constructor
        · rintro rfl
          exact ⟨by simp, fun i inside => absurd inside (by simp), by simpa using valid, by simpa using nul⟩
        · rintro ⟨-, bytes, -, -⟩
          cases s with
          | nil => rfl
          | cons b rest =>
            have := (bytes 0 (by simp)).2
            simp only [Nat.add_zero, List.getElem_cons_zero] at this
            exact absurd (this.1.symm.trans nul) this.2
      · rw [if_neg nul]
        cases s with
        | nil =>
          simp only [Functor.map, Except.map]
          constructor
          · intro mapped
            split at mapped <;> cases mapped
          · rintro ⟨-, -, -, zero⟩
            exact absurd (by simpa using zero) nul
        | cons b rest =>
          have step := @copyStringLoop_eq_ok mem src remaining (copied + 1) rest
          constructor
          · intro mapped
            cases inner : copyStringLoop mem src (copied + 1) remaining with
            | error e =>
              rw [inner] at mapped
              cases mapped
            | ok rest' =>
              rw [inner] at mapped
              simp only [Functor.map, Except.map, Except.ok.injEq, List.cons.injEq] at mapped
              obtain ⟨rfl, rfl⟩ := mapped
              obtain ⟨short, bytes, last, zero⟩ := step.mp inner
              refine ⟨by simp only [List.length_cons]; omega, fun i inside => ?_, ?_, ?_⟩
              · cases i with
                | zero => exact ⟨by simpa using valid, by simp, by simpa using nul⟩
                | succ i =>
                  have := bytes i (by simpa using inside)
                  simpa [Nat.add_assoc, Nat.add_comm 1 i] using this
              · simpa [Nat.add_assoc, Nat.add_comm 1] using last
              · simpa [Nat.add_assoc, Nat.add_comm 1] using zero
          · rintro ⟨short, bytes, last, zero⟩
            have head := bytes 0 (by simp)
            simp only [Nat.add_zero, List.getElem_cons_zero] at head
            have rest_ok : copyStringLoop mem src (copied + 1) remaining = .ok rest := by
              refine step.mpr ⟨by simp only [List.length_cons] at short; omega, fun i inside => ?_, ?_, ?_⟩
              · have := bytes (i + 1) (by simp; omega)
                simpa [Nat.add_assoc, Nat.add_comm 1 i] using this
              · simpa [Nat.add_assoc, Nat.add_comm 1] using last
              · simpa [Nat.add_assoc, Nat.add_comm 1] using zero
            rw [rest_ok, ← head.2.1]
            rfl
    · simp only [Bool.not_eq_true] at valid
      simp only [valid, Bool.not_false, if_true, reduceCtorEq, false_iff, not_and]
      intro _ bytes last
      cases s with
      | nil => simp [valid] at last
      | cons b rest => simpa [valid] using (bytes 0 (by simp)).1

theorem strnlenLoop_eq {mem : UserMem} {src : UInt64} :
    ∀ (remaining copied : ℕ), strnlenLoop mem src copied remaining =
      match copyStringLoop mem src copied remaining with
      | .ok s => ssize (UInt64.ofNat (copied + s.length))
      | .error e => if e = -eNametoolong then ssize (UInt64.ofNat (copied + remaining)) else e
  | 0, copied => by simp [strnlenLoop, copyStringLoop]
  | remaining + 1, copied => by
    unfold strnlenLoop copyStringLoop
    dsimp only
    by_cases valid : isUserAddress (src + UInt64.ofNat copied) 1 = true
    · simp only [valid, Bool.not_true, Bool.false_eq_true, if_false]
      by_cases nul : mem (src + UInt64.ofNat copied).toNat = 0
      · rw [if_pos nul, if_pos nul]
        rfl
      · rw [if_neg nul, if_neg nul, @strnlenLoop_eq mem src remaining (copied + 1)]
        cases copyStringLoop mem src (copied + 1) remaining with
        | ok s => simp only [Functor.map, Except.map, List.length_cons, Nat.add_assoc, Nat.add_comm 1]
        | error e => simp only [Functor.map, Except.map, Nat.add_assoc, Nat.add_comm 1]
    · simp only [Bool.not_eq_true] at valid
      simp [valid, eFault, eNametoolong]

@[simp] theorem add_ofNat_zero (a : UInt64) : a + UInt64.ofNat 0 = a :=
  UInt64.add_zero a

theorem UserString.valid_at {mem : UserMem} {src : UInt64} {s : List UInt8} (str : UserString mem src s)
    {i : ℕ} (upTo : i ≤ s.length) : isUserAddress (src + UInt64.ofNat i) 1 = true := by
  rcases Nat.lt_or_eq_of_le upTo with inside | rfl
  · exact (str.1 i inside).1
  · exact str.2.1

theorem UserString.end_lt {mem : UserMem} {src : UInt64} {s : List UInt8} (str : UserString mem src s) :
    src.toNat + s.length < 2 ^ 47 := by
  have start := str.valid_at (Nat.zero_le _)
  rw [add_ofNat_zero, isUserAddress_iff] at start
  by_contra beyond
  -- the first offset past the limit is inside the string, and not user memory
  have hole : (src + UInt64.ofNat (2 ^ 47 - src.toNat)).toNat = 2 ^ 47 := by
    rw [UInt64.toNat_add, UInt64.toNat_ofNat', Nat.mod_eq_of_lt (a := 2 ^ 47 - src.toNat) (by omega),
      Nat.mod_eq_of_lt (by omega)]
    omega
  have := str.valid_at (i := 2 ^ 47 - src.toNat) (by omega)
  rw [isUserAddress_iff, hole] at this
  omega

theorem ssize_ofNat_of_lt {n : ℕ} (small : n < 2 ^ 63) : ssize (UInt64.ofNat n) = n := by
  have fits : (UInt64.ofNat n).toNat = n := by
    rw [UInt64.toNat_ofNat', Nat.mod_eq_of_lt (by omega)]
  rw [ssize, fits, if_pos small]

/-- For a positive limit, `copy_string_from_user` returns exactly the user
string at `src` when it is shorter than the limit, and `strnlen_user` agrees
with it: the string's length, the limit when no NUL came within it, and the
same `-EFAULT` otherwise. -/
theorem copy_string_from_user_agrees_with_strnlen_user (mem : UserMem) (src maxLen : UInt64)
    (pos : maxLen ≠ 0) :
    (∀ s, copyStringFromUser mem src maxLen = .ok s ↔ s.length < maxLen.toNat ∧ UserString mem src s) ∧
      strnlenUser mem src maxLen =
        match copyStringFromUser mem src maxLen with
        | .ok s => s.length
        | .error e => if e = -eNametoolong then ssize maxLen else e := by
  unfold copyStringFromUser strnlenUser
  rw [if_neg pos]
  by_cases start : isUserAddress src 1 = true
  · simp only [start, Bool.not_true, Bool.false_eq_true, if_false]
    have scan := @copyStringLoop_eq_ok mem src maxLen.toNat 0
    simp only [Nat.zero_add] at scan
    refine ⟨fun s => scan s, ?_⟩
    rw [strnlenLoop_eq]
    simp only [Nat.zero_add, UInt64.ofNat_toNat]
    cases found : copyStringLoop mem src 0 maxLen.toNat with
    | ok s =>
      have str : UserString mem src s := ((scan s).mp found).2
      exact ssize_ofNat_of_lt (by have := str.end_lt; omega)
    | error e => rfl
  · simp only [Bool.not_eq_true] at start
    simp only [start, Bool.not_false, if_true, reduceCtorEq, false_iff, not_and]
    refine ⟨fun s _ str => ?_, by simp [eFault, eNametoolong]⟩
    have := str.valid_at (Nat.zero_le _)
    rw [add_ofNat_zero, start] at this
    exact Bool.false_ne_true this

def lsAtUserPage : UserMem := fun a => if a = 0x1000 then 0x6C else if a = 0x1001 then 0x73 else 0

theorem copy_string_from_user_agrees_with_strnlen_user_for_ls :
    (16 : UInt64) ≠ 0 ∧ copyStringFromUser lsAtUserPage 0x1000 16 = .ok [0x6C, 0x73] ∧
      strnlenUser lsAtUserPage 0x1000 16 = 2 :=
  have agree := copy_string_from_user_agrees_with_strnlen_user lsAtUserPage 0x1000 16 (by decide)
  have copied : copyStringFromUser lsAtUserPage 0x1000 16 = .ok [0x6C, 0x73] := by decide
  ⟨by decide, copied, by rw [agree.2, copied]; rfl⟩

end Xinim.Kernel
