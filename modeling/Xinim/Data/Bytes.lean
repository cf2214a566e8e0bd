import Mathlib

/-! A byte buffer as a list: memcpy into and out of it and std::vector's
resize, each defined only inside the buffer it touches, and the array reading
of a write or a read at an offset that those copies implement. -/

/-- What a step of C++ can do besides returning: touch memory outside the
object it indexes, overflow a signed integer, throw, or lock a mutex its own
thread holds and never return. -/
inductive Fault
  | outOfBounds
  | overflow
  | throws
  | deadlock
  deriving DecidableEq, Repr

namespace Buffer

variable {α : Type*}

def copyIn (dst : List α) (off : ℕ) (src : List α) : Except Fault (List α) :=
  if off + src.length ≤ dst.length then .ok (dst.take off ++ src ++ dst.drop (off + src.length))
  else .error .outOfBounds

/-- The array view of a read: the elements in [off, min (off + n) length). -/
def readAt (data : List α) (off n : ℕ) : List α := (data.drop off).take n

def copyOut (src : List α) (off n : ℕ) : Except Fault (List α) :=
  if off + n ≤ src.length then .ok (readAt src off n) else .error .outOfBounds

/-- std::vector::resize, new elements `fill`; past max_size it throws. -/
def resize (l : List α) (n maxSize : ℕ) (fill : α) : Except Fault (List α) :=
  if maxSize < n then .error .throws else .ok (l.take n ++ List.replicate (n - l.length) fill)

/-- The array view of a write: `bytes` at [off, off + length), the old
contents elsewhere, and `fill` in any gap between the old end and `off`. -/
def writeAt (data : List α) (off : ℕ) (bytes : List α) (fill : α) : List α :=
  let grown := data ++ List.replicate (off + bytes.length - data.length) fill
  grown.take off ++ bytes ++ grown.drop (off + bytes.length)

theorem copyIn_of_le {dst src : List α} {off : ℕ} (fits : off + src.length ≤ dst.length) :
    copyIn dst off src = .ok (dst.take off ++ src ++ dst.drop (off + src.length)) := by
  simp [copyIn, fits]

theorem copyIn_of_lt {dst src : List α} {off : ℕ} (past : dst.length < off + src.length) :
    copyIn dst off src = .error .outOfBounds := by
  simp [copyIn, Nat.not_le.mpr past]

theorem copyOut_of_le {src : List α} {off n : ℕ} (fits : off + n ≤ src.length) :
    copyOut src off n = .ok (readAt src off n) := by
  simp [copyOut, fits]

theorem resize_of_le {l : List α} {n maxSize : ℕ} (fill : α) (small : n ≤ maxSize) :
    resize l n maxSize fill = .ok (l.take n ++ List.replicate (n - l.length) fill) := by
  simp [resize, Nat.not_lt.mpr small]

theorem resize_of_lt {l : List α} {n maxSize : ℕ} (fill : α) (big : maxSize < n) :
    resize l n maxSize fill = .error .throws := by
  simp [resize, big]

theorem length_of_copyIn {dst src r : List α} {off : ℕ} (h : copyIn dst off src = .ok r) :
    r.length = dst.length := by
  unfold copyIn at h
  split_ifs at h with fits
  cases h
  simp only [List.length_append, List.length_take, List.length_drop]
  omega

theorem length_of_resize {l r : List α} {n maxSize : ℕ} {fill : α} (h : resize l n maxSize fill = .ok r) :
    r.length = n ∧ n ≤ maxSize := by
  unfold resize at h
  split_ifs at h with big
  cases h
  simp only [List.length_append, List.length_take, List.length_replicate]
  omega

@[simp] theorem length_readAt (data : List α) (off n : ℕ) :
    (readAt data off n).length = min n (data.length - off) := by
  simp [readAt]

theorem getElem?_readAt (data : List α) (off n i : ℕ) :
    (readAt data off n)[i]? = if i < n then data[off + i]? else none := by
  by_cases inside : i < n
  · simp [readAt, inside, List.getElem?_drop]
  · simp only [readAt, inside, if_false, List.getElem?_eq_none_iff, List.length_take, List.length_drop]
    omega

theorem writeAt_of_le {data bytes : List α} {off : ℕ} (fill : α) (fits : off + bytes.length ≤ data.length) :
    writeAt data off bytes fill = data.take off ++ bytes ++ data.drop (off + bytes.length) := by
  simp [writeAt, Nat.sub_eq_zero_of_le fits]

theorem writeAt_of_lt {data bytes : List α} {off : ℕ} (fill : α) (past : data.length < off + bytes.length) :
    let grown := data.take (off + bytes.length) ++ List.replicate (off + bytes.length - data.length) fill
    writeAt data off bytes fill = grown.take off ++ bytes ++ grown.drop (off + bytes.length) := by
  simp [writeAt, List.take_of_length_le (Nat.le_of_lt past)]

@[simp] theorem length_writeAt (data : List α) (off : ℕ) (bytes : List α) (fill : α) :
    (writeAt data off bytes fill).length = max data.length (off + bytes.length) := by
  simp only [writeAt, List.length_append, List.length_take, List.length_drop, List.length_replicate]
  omega

theorem getElem?_writeAt (data : List α) (off : ℕ) (bytes : List α) (fill : α) (i : ℕ) :
    (writeAt data off bytes fill)[i]? =
      if off ≤ i ∧ i < off + bytes.length then bytes[i - off]?
      else if i < data.length then data[i]?
      else if i < off then some fill
      else none := by
  have grown : ∀ j, (data ++ List.replicate (off + bytes.length - data.length) fill)[j]? =
      if j < data.length then data[j]? else if j < off + bytes.length then some fill else none := by
    intro j
    rw [List.getElem?_append]
    split_ifs <;> simp [List.getElem?_replicate] <;> omega
  simp only [writeAt, List.getElem?_append, List.length_append, List.length_take, List.length_replicate,
    List.getElem?_take, List.getElem?_drop, grown]
  split_ifs <;> first | rfl | omega | (congr 1; omega)

def Placed (data : List α) (off : ℕ) (bytes : List α) : Prop := readAt data off bytes.length = bytes

def Unchanged (data r : List α) (written : ℕ → Prop) : Prop := ∀ i, ¬ written i → r[i]? = data[i]?

theorem getElem?_copyIn {dst src r : List α} {off : ℕ} (h : copyIn dst off src = .ok r) (i : ℕ) :
    r[i]? = if off ≤ i ∧ i < off + src.length then src[i - off]? else dst[i]? := by
  unfold copyIn at h
  split_ifs at h with fits
  cases h
  simp only [List.getElem?_append, List.length_append, List.length_take, List.getElem?_take,
    List.getElem?_drop]
  split_ifs <;> first | rfl | omega | (congr 1; omega)

theorem placed_copyIn {dst src r : List α} {off : ℕ} (h : copyIn dst off src = .ok r) : Placed r off src := by
  unfold copyIn at h
  split_ifs at h with fits
  cases h
  have front : (dst.take off).length = off := by simp; omega
  rw [Placed, readAt, List.append_assoc, List.drop_append_of_le_length (by omega), List.drop_of_length_le (by omega),
    List.nil_append, List.take_left']
  omega

theorem unchanged_copyIn {dst src r : List α} {off : ℕ} (h : copyIn dst off src = .ok r) :
    Unchanged dst r (fun i => off ≤ i ∧ i < off + src.length) := fun i outside => by
  rw [getElem?_copyIn h, if_neg outside]

theorem Unchanged.refl (data : List α) (written : ℕ → Prop) : Unchanged data data written := fun _ _ => rfl

theorem Unchanged.trans {a b c : List α} {first second : ℕ → Prop} (ab : Unchanged a b first)
    (bc : Unchanged b c second) : Unchanged a c (fun i => first i ∨ second i) := fun i fresh =>
  (bc i fun h => fresh (Or.inr h)).trans (ab i fun h => fresh (Or.inl h))

theorem Unchanged.mono {a b : List α} {written wider : ℕ → Prop} (same : Unchanged a b written)
    (sub : ∀ i, written i → wider i) : Unchanged a b wider := fun i fresh => same i fun h => fresh (sub i h)

theorem Placed.of_unchanged {data r bytes : List α} {off : ℕ} {written : ℕ → Prop} (placed : Placed data off bytes)
    (same : Unchanged data r written) (apart : ∀ i, off ≤ i → i < off + bytes.length → ¬ written i) :
    Placed r off bytes := by
  have reads : ∀ j : ℕ, (readAt r off bytes.length)[j]? = (readAt data off bytes.length)[j]? := by
    intro j
    rw [getElem?_readAt, getElem?_readAt]
    split_ifs with inside
    · exact same _ (apart _ (by omega) (by omega))
    · rfl
  exact (List.ext_getElem? reads).trans placed

def storeLE : ℕ → ℕ → List UInt8
  | 0, _ => []
  | width + 1, x => UInt8.ofNat x :: storeLE width (x / 256)

def loadLE : List UInt8 → ℕ
  | [] => 0
  | b :: bytes => b.toNat + 256 * loadLE bytes

@[simp] theorem length_storeLE (width x : ℕ) : (storeLE width x).length = width := by
  induction width generalizing x with
  | zero => rfl
  | succ width ih => simp [storeLE, ih]

theorem loadLE_storeLE (width x : ℕ) : loadLE (storeLE width x) = x % 256 ^ width := by
  induction width generalizing x with
  | zero => simp [storeLE, loadLE, Nat.mod_one]
  | succ width ih =>
    rw [storeLE, loadLE, ih, Nat.pow_succ', Nat.mod_mul, UInt8.toNat_ofNat']

/-- The C string at `off`: the bytes before the first NUL, if one comes
before the end. -/
def cStringAt (data : List UInt8) (off : ℕ) : Option (List UInt8) :=
  let rest := data.drop off
  if 0 ∈ rest then some (rest.takeWhile (· != 0)) else none

theorem cStringAt_of_placed {data s : List UInt8} {off : ℕ} (placed : Placed data off (s ++ [0])) (clean : 0 ∉ s) :
    cStringAt data off = some s := by
  have rest : data.drop off = s ++ 0 :: (data.drop off).drop (s.length + 1) := by
    have whole := List.take_append_drop (s.length + 1) (data.drop off)
    rw [Placed, readAt, List.length_append, List.length_singleton] at placed
    rw [placed] at whole
    calc data.drop off = s ++ [0] ++ (data.drop off).drop (s.length + 1) := whole.symm
      _ = _ := by rw [List.append_assoc, List.singleton_append]
  have nonzero : ∀ b ∈ s, (b != 0) = true := fun b mem => by
    simp only [bne_iff_ne, ne_eq]
    exact fun zero => clean (zero ▸ mem)
  rw [cStringAt, rest, if_pos (List.mem_append_right _ List.mem_cons_self),
    List.takeWhile_append_of_pos nonzero]
  simp

end Buffer
