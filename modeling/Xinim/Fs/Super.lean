import Xinim.Fs.Cache
import Xinim.Data.Word

/-! The bit maps of a mounted device (fs/super.cpp): `load_bit_maps` and
`unload_bit_maps` over the buffer cache. The loader takes the map blocks
through `get_block`, which counts each buffer it hands out in `bufs_in_use`,
and then adds the number of map blocks to `bufs_in_use` once more; the
unloader subtracts them and gives the buffers back through `put_block`. The
table lookup `get_super` is the caller's: the super block is an argument.
The writes into the first map words (inodes 0 and 1, zone 0 busy) change
block contents, which the cache model leaves out; their dereference of the
first slot is kept. -/

namespace Xinim.Fs

def iMapSlots : ℕ := 4

def zmapSlots : ℕ := 6

def superBlock : ℕ := 1

def fsOk : ℤ := 0

def fsError : ℤ := -1

structure SuperBlock where
  imapBlocks : ℕ
  zmapBlocks : ℕ
  imap : ℕ → Option BufIdx
  zmap : ℕ → Option BufIdx

namespace BufCache

def loadMap (io : DevIo) (dev : DevNr) (first n : ℕ) (c : BufCache) (slots : ℕ → Option BufIdx) :
    BufCache × (ℕ → Option BufIdx) :=
  (List.range n).foldl (fun (c, slots) i =>
    let (c, bp) := c.getBlock io dev (UInt16.ofNat (first + i)) .normal
    (c, Function.update slots i bp)) (c, slots)

/-- `load_bit_maps`; `none` where it panics (more map blocks than slots) or
dereferences an empty first slot. -/
def loadBitMaps (io : DevIo) (dev : DevNr) (c : BufCache) (sp : SuperBlock) :
    Option (ℤ × BufCache × SuperBlock) :=
  if (nrBufs : ℤ) - 3 ≤ c.bufsInUse + sp.imapBlocks + sp.zmapBlocks then some (fsError, c, sp)
  else if iMapSlots < sp.imapBlocks ∨ zmapSlots < sp.zmapBlocks then none
  else
    let (c, imap) := c.loadMap io dev (superBlock + 1) sp.imapBlocks sp.imap
    let (c, zmap) := c.loadMap io dev (superBlock + 1 + sp.imapBlocks) sp.zmapBlocks sp.zmap
    if imap 0 = none ∨ zmap 0 = none then none
    else some (fsOk, { c with bufsInUse := c.bufsInUse + sp.imapBlocks + sp.zmapBlocks },
      { sp with imap, zmap })

def unloadBitMaps (io : DevIo) (c : BufCache) (sp : SuperBlock) : BufCache :=
  let c := { c with bufsInUse := c.bufsInUse - (sp.imapBlocks + sp.zmapBlocks) }
  let c := (List.range sp.imapBlocks).foldl (fun c i => c.putBlock io (sp.imap i) .iMap) c
  (List.range sp.zmapBlocks).foldl (fun c i => c.putBlock io (sp.zmap i) .zMap) c

def busyBufs (c : BufCache) : ℕ := (Finset.univ.filter fun b => 0 < (c.buf b).count).card

end BufCache

def allOk : DevIo := fun _ => true

def unloaded (i z : ℕ) : SuperBlock := ⟨i, z, fun _ => none, fun _ => none⟩

/-- From `buf_pool()`, loading the ten map blocks of one device leaves 10
buffers in use but `bufs_in_use` at 20; a second device with two map blocks
is then refused, although 10 buffers are free and 10 + 2 stays below
`NR_BUFS - 3`. -/
theorem map_blocks_counted_twice :
    (bufPool.loadBitMaps allOk 0 (unloaded 4 6)).map (fun (ret, c, _) =>
        (ret, c.bufsInUse, c.busyBufs, (c.loadBitMaps allOk 1 (unloaded 1 1)).map fun r => r.1)) =
      some (fsOk, 20, 10, some fsError) := by
  decide +kernel

/-! ### `alloc_bit` and `free_bit`

A bit map is the `b_int` arrays of its blocks, each `INTS_PER_BLOCK` words
of `INT_BITS` bits; bit `a` is bit `a % 32` of word `(a % 8192) / 32` of block
`a / 8192`. Every block of the map is taken to be loaded, so the `NIL_BUF`
test of `free_bit` never fires; `b_dirt` is left out. -/

def intBits : ℕ := 32

def bitMapShift : ℕ := 13

def intsPerBlock : ℕ := 256

def noBit : ℕ := 0

abbrev BitMap := ℕ → ℕ → UInt32

def setWord (map : BitMap) (b w : ℕ) (v : UInt32) : BitMap := Function.update map b (Function.update (map b) w v)

def bitOf (map : BitMap) (a : ℕ) : Bool := Word32.bit (map (a / 2 ^ bitMapShift) (a % 2 ^ bitMapShift / intBits)) (a % intBits)

/-- The word loop of `alloc_bit` over block `b` from word `w`: the first word
that is not full, and its first clear bit; a bit past `map_bits` ends the
scan of the block (`wptr = wlim - 1`). -/
def scanBlock (words : ℕ → UInt32) (mapBits b w : ℕ) : Option (ℕ × ℕ) :=
  match (List.range' w (intsPerBlock - w)).findSome? (fun j =>
      if words j ≠ 0xFFFFFFFF then (Word32.firstClear (words j)).map (j, ·) else none) with
  | none => none
  | some (j, i) => if mapBits ≤ i + j * intBits + (b <<< bitMapShift) then none else some (j, i)

def nextBlock (bitBlocks b : ℕ) : ℕ := if b + 1 = bitBlocks then 0 else b + 1

/-- The block loop of `alloc_bit`: `blockCount` blocks from block `b`, the
first from word `w` and the others from word 0. -/
def allocBitLoop (map : BitMap) (mapBits bitBlocks : ℕ) : ℕ → ℕ → ℕ → Option (ℕ × ℕ × ℕ)
  | 0, _, _ => none
  | blockCount + 1, b, w =>
    match scanBlock (map b) mapBits b w with
    | some (j, i) => some (b, j, i)
    | none => allocBitLoop map mapBits bitBlocks blockCount (nextBlock bitBlocks b) 0

def allocBit (map : BitMap) (mapBits bitBlocks origin : ℕ) : BitMap × ℕ :=
  let origin := if mapBits ≤ origin then 0 else origin
  let b := origin >>> bitMapShift
  let o := origin - (b <<< bitMapShift)
  let w := o / intBits
  let blockCount := if w = 0 then bitBlocks else bitBlocks + 1
  match allocBitLoop map mapBits bitBlocks blockCount b w with
  | none => (map, noBit)
  | some (b, j, i) => (setWord map b j (map b j ||| Word32.mask i), i + j * intBits + (b <<< bitMapShift))

/-- `free_bit`; `none` where it panics on a bit that is not set. -/
def freeBit (map : BitMap) (bitReturned : ℕ) : Option BitMap :=
  let b := bitReturned >>> bitMapShift
  let r := bitReturned - (b <<< bitMapShift)
  let w := r / intBits
  let bit := r % intBits
  if Word32.bit (map b w) bit = false then none
  else some (setWord map b w (map b w &&& ~~~Word32.mask bit))

section AllocBit

variable {map : BitMap} {mapBits bitBlocks : ℕ}

theorem bitNumber_parts {b j i : ℕ} (hj : j < intsPerBlock) (hi : i < intBits) :
    (i + j * intBits + (b <<< bitMapShift)) / 2 ^ bitMapShift = b ∧
      (i + j * intBits + (b <<< bitMapShift)) % 2 ^ bitMapShift / intBits = j ∧
      (i + j * intBits + (b <<< bitMapShift)) % intBits = i := by
  unfold intsPerBlock intBits bitMapShift at *
  rw [Nat.shiftLeft_eq]
  omega

theorem bitOf_parts {b j i : ℕ} (hj : j < intsPerBlock) (hi : i < intBits) :
    bitOf map (i + j * intBits + (b <<< bitMapShift)) = Word32.bit (map b j) i := by
  obtain ⟨block, word, bit⟩ := bitNumber_parts (b := b) hj hi
  rw [bitOf, block, word, bit]

theorem scanBlock_some {words : ℕ → UInt32} {b w j i : ℕ} (found : scanBlock words mapBits b w = some (j, i)) :
    w ≤ j ∧ j < intsPerBlock ∧ i < intBits ∧ Word32.bit (words j) i = false ∧
      i + j * intBits + (b <<< bitMapShift) < mapBits := by
  unfold scanBlock at found
  split at found
  · cases found
  · rename_i j' i' word
    split_ifs at found with past
    cases found
    obtain ⟨j'', mem, hit⟩ := List.exists_of_findSome?_eq_some word
    split_ifs at hit
    obtain ⟨i'', first, same⟩ := Option.map_eq_some_iff.mp hit
    obtain ⟨rfl, rfl⟩ := Prod.mk.inj same
    obtain ⟨small, clear, -⟩ := Word32.firstClear_spec first
    obtain ⟨low, high⟩ := List.mem_range'_1.mp mem
    exact ⟨low, by omega, small, clear, by omega⟩

theorem scanBlock_isSome {words : ℕ → UInt32} {b w j₀ i₀ : ℕ} (low : w ≤ j₀) (hj : j₀ < intsPerBlock)
    (hi : i₀ < intBits) (clear : Word32.bit (words j₀) i₀ = false)
    (inMap : i₀ + j₀ * intBits + (b <<< bitMapShift) < mapBits) : scanBlock words mapBits b w ≠ none := by
  set f := fun j => if words j ≠ 0xFFFFFFFF then (Word32.firstClear (words j)).map (j, ·) else none
  obtain ⟨i₁, first₀, -⟩ := Word32.firstClear_le hi clear
  have hit₀ : f j₀ = some (j₀, i₁) := by
    simp only [f, if_pos (Word32.ne_allOnes hi clear), first₀, Option.map_some]
  have mem₀ : j₀ ∈ List.range' w (intsPerBlock - w) := List.mem_range'_1.mpr ⟨low, by omega⟩
  have found : ((List.range' w (intsPerBlock - w)).findSome? f).isSome :=
    List.findSome?_isSome_iff.mpr ⟨j₀, mem₀, by rw [hit₀]; rfl⟩
  obtain ⟨⟨j, i⟩, word⟩ := Option.isSome_iff_exists.mp found
  obtain ⟨pre, j', post, split, hit, before⟩ := List.findSome?_eq_some_iff.mp word
  have sorted := List.pairwise_lt_range' (s := w) (n := intsPerBlock - w) 1 (by decide)
  rw [split] at sorted mem₀
  have notBefore : j₀ ∉ pre := fun mem => by rw [before j₀ mem] at hit₀; cases hit₀
  have atOrAfter : j' ≤ j₀ := by
    rcases List.mem_append.mp mem₀ with inPre | inRest
    · exact absurd inPre notBefore
    · rcases List.mem_cons.mp inRest with same | inPost
      · exact same.ge
      · exact (List.pairwise_cons.mp (List.pairwise_append.mp sorted).2.1).1 j₀ inPost |>.le
  simp only [f] at hit
  split_ifs at hit with full
  obtain ⟨i', first, same⟩ := Option.map_eq_some_iff.mp hit
  obtain ⟨rfl, rfl⟩ := Prod.mk.inj same
  obtain ⟨small, -, lower⟩ := Word32.firstClear_spec first
  have early : i' + j' * intBits + (b <<< bitMapShift) ≤ i₀ + j₀ * intBits + (b <<< bitMapShift) := by
    rcases Nat.lt_or_ge j' j₀ with before' | after
    · unfold intBits at *
      omega
    · have same : j' = j₀ := le_antisymm atOrAfter after
      subst same
      have : i' ≤ i₀ := Nat.le_of_not_lt fun past => by rw [lower i₀ past] at clear; cases clear
      omega
  unfold scanBlock
  rw [word]
  dsimp only
  rw [if_neg (by omega)]
  exact Option.some_ne_none _

theorem allocBitLoop_some {count b w b' j i : ℕ}
    (found : allocBitLoop map mapBits bitBlocks count b w = some (b', j, i)) :
    ∃ w', scanBlock (map b') mapBits b' w' = some (j, i) := by
  induction count generalizing b w with
  | zero => cases found
  | succ count ih =>
    unfold allocBitLoop at found
    split at found
    · rename_i hit
      cases found
      exact ⟨w, hit⟩
    · exact ih found

theorem iterate_nextBlock {b k : ℕ} (hb : b < bitBlocks) (hk : k ≤ bitBlocks) :
    (nextBlock bitBlocks)^[k] b = if b + k < bitBlocks then b + k else b + k - bitBlocks := by
  induction k with
  | zero => simp [hb]
  | succ k ih =>
    rw [Function.iterate_succ_apply', ih (by omega), nextBlock]
    split_ifs <;> omega

theorem allocBitLoop_none {count b w : ℕ} (hb : b < bitBlocks)
    (missed : allocBitLoop map mapBits bitBlocks count b w = none) :
    ∀ k < count, scanBlock (map ((nextBlock bitBlocks)^[k] b)) mapBits ((nextBlock bitBlocks)^[k] b)
      (if k = 0 then w else 0) = none := by
  induction count generalizing b w with
  | zero => exact fun k hk => absurd hk (Nat.not_lt_zero k)
  | succ count ih =>
    unfold allocBitLoop at missed
    split at missed
    · cases missed
    · rename_i here
      have hnext : nextBlock bitBlocks b < bitBlocks := by
        unfold nextBlock
        split_ifs <;> omega
      intro k hk
      cases k with
      | zero => simpa using here
      | succ k =>
        have later := ih hnext missed k (by omega)
        rw [Function.iterate_succ_apply]
        rw [if_neg (Nat.succ_ne_zero k)]
        split_ifs at later with first
        · subst first
          exact later
        · exact later

theorem allocBitLoop_complete {count b w : ℕ} (fits : mapBits ≤ bitBlocks * 2 ^ bitMapShift)
    (hb : b < bitBlocks) (cover : bitBlocks ≤ count) (wrap : w ≠ 0 → bitBlocks < count)
    (missed : allocBitLoop map mapBits bitBlocks count b w = none) :
    ∀ a < mapBits, bitOf map a = true := by
  intro a inMap
  by_contra notSet
  have scanned := allocBitLoop_none hb missed
  set b₀ := a / 2 ^ bitMapShift with block₀
  set j₀ := a % 2 ^ bitMapShift / intBits with word₀
  set i₀ := a % intBits with place₀
  have hj : j₀ < intsPerBlock := by unfold intBits intsPerBlock bitMapShift at *; omega
  have hi : i₀ < intBits := Nat.mod_lt _ (by decide)
  have hb₀ : b₀ < bitBlocks := by unfold bitMapShift at *; omega
  have parts : i₀ + j₀ * intBits + (b₀ <<< bitMapShift) = a := by
    unfold intBits bitMapShift at *
    rw [Nat.shiftLeft_eq]
    omega
  have bitClear : Word32.bit (map b₀ j₀) i₀ = false := by
    rw [← bitOf_parts hj hi, parts]
    simpa using notSet
  have found : ∀ {w'}, w' ≤ j₀ → scanBlock (map b₀) mapBits b₀ w' ≠ none := fun low =>
    scanBlock_isSome low hj hi bitClear (by rw [parts]; exact inMap)
  clear_value b₀ j₀ i₀
  by_cases same : b₀ = b
  · by_cases early : w ≤ j₀
    · have first := scanned 0 (by omega)
      rw [Function.iterate_zero_apply, if_pos rfl, ← same] at first
      exact found early first
    · have again := scanned bitBlocks (wrap (by omega))
      rw [iterate_nextBlock hb le_rfl, if_neg (by omega), if_neg (by omega), Nat.add_sub_cancel, ← same] at again
      exact found (Nat.zero_le _) again
  · set k := if b ≤ b₀ then b₀ - b else bitBlocks - b + b₀ with hk
    have visit := scanned k (by split_ifs at hk <;> omega)
    have block : (if b + k < bitBlocks then b + k else b + k - bitBlocks) = b₀ := by
      split_ifs at hk ⊢ <;> omega
    rw [iterate_nextBlock hb (by split_ifs at hk <;> omega), block, if_neg (by split_ifs at hk <;> omega)] at visit
    exact found (Nat.zero_le _) visit

theorem bitOf_setWord_or {b j i : ℕ} (hj : j < intsPerBlock) (hi : i < intBits) (a : ℕ) :
    bitOf (setWord map b j (map b j ||| Word32.mask i)) a =
      (decide (a = i + j * intBits + (b <<< bitMapShift)) || bitOf map a) := by
  have parts := bitNumber_parts (b := b) hj hi
  have whole : a = a % intBits + a % 2 ^ bitMapShift / intBits * intBits + ((a / 2 ^ bitMapShift) <<< bitMapShift) := by
    unfold intBits bitMapShift
    rw [Nat.shiftLeft_eq]
    omega
  unfold bitOf setWord
  by_cases inWord : a / 2 ^ bitMapShift = b ∧ a % 2 ^ bitMapShift / intBits = j
  · obtain ⟨block, word⟩ := inWord
    rw [block, word, Function.update_self, Function.update_self, Word32.bit_or_mask hi]
    congr 1
    apply decide_eq_decide.mpr
    constructor
    · intro place
      rw [whole, block, word, place]
    · intro same
      rw [same]
      exact parts.2.2
  · have other : a ≠ i + j * intBits + (b <<< bitMapShift) := fun same =>
      inWord ⟨by rw [same]; exact parts.1, by rw [same]; exact parts.2.1⟩
    rw [decide_eq_false other, Bool.false_or]
    by_cases block : a / 2 ^ bitMapShift = b
    · rw [block, Function.update_self, Function.update_of_ne fun word => inWord ⟨block, word⟩]
    · rw [Function.update_of_ne block]

theorem freeBit_setWord_or {b j i : ℕ} (hj : j < intsPerBlock) (hi : i < intBits)
    (clear : Word32.bit (map b j) i = false) :
    freeBit (setWord map b j (map b j ||| Word32.mask i)) (i + j * intBits + (b <<< bitMapShift)) = some map := by
  obtain ⟨block, word, place⟩ := bitNumber_parts (b := b) hj hi
  have shifted : (i + j * intBits + (b <<< bitMapShift)) >>> bitMapShift = b := by
    rw [Nat.shiftRight_eq_div_pow, block]
  have rest : i + j * intBits + (b <<< bitMapShift) - (b <<< bitMapShift) = i + j * intBits :=
    Nat.add_sub_cancel _ _
  have atWord : (i + j * intBits) / intBits = j := by unfold intBits at *; omega
  have atPlace : (i + j * intBits) % intBits = i := by unfold intBits at *; omega
  have set : Word32.bit (map b j ||| Word32.mask i) i = true := by
    rw [Word32.bit_or_mask hi, decide_eq_true rfl, Bool.true_or]
  unfold freeBit
  simp only [shifted, rest, atWord, atPlace, setWord, Function.update_self, set, Bool.true_eq_false, if_false,
    Function.update_idem, Word32.or_mask_and_not_mask hi clear, Function.update_eq_self]

/-- `alloc_bit` over a map whose bit 0 is set, as `load_bit_maps` makes it:
it returns `NO_BIT` exactly when every bit below `map_bits` is set, and
otherwise a bit below `map_bits` that was clear, set now with no other bit
changed; `free_bit` of it then gives the map back. -/
theorem alloc_bit_takes_clear_bit (map : BitMap) (mapBits bitBlocks origin : ℕ)
    (fits : mapBits ≤ bitBlocks * 2 ^ bitMapShift) (zeroSet : bitOf map 0 = true) :
    ∀ map' a, allocBit map mapBits bitBlocks origin = (map', a) →
      (a = noBit ↔ ∀ a' < mapBits, bitOf map a' = true) ∧
      (a ≠ noBit → a < mapBits ∧ bitOf map a = false ∧
        (∀ a', bitOf map' a' = (decide (a' = a) || bitOf map a')) ∧ freeBit map' a = some map) := by
  intro map' a result
  unfold allocBit at result
  dsimp only at result
  split at result
  · rename_i missed
    obtain ⟨rfl, rfl⟩ := Prod.mk.inj result
    refine ⟨⟨fun _ a' inMap => ?_, fun _ => rfl⟩, fun named => absurd rfl named⟩
    have start : (if mapBits ≤ origin then 0 else origin) < mapBits := by split_ifs <;> omega
    have hb : (if mapBits ≤ origin then 0 else origin) >>> bitMapShift < bitBlocks := by
      rw [Nat.shiftRight_eq_div_pow]
      exact Nat.div_lt_of_lt_mul (by rw [Nat.mul_comm]; omega)
    exact allocBitLoop_complete fits hb (by split_ifs <;> omega) (by split_ifs <;> omega) missed a' inMap
  · rename_i b' j i found
    obtain ⟨rfl, rfl⟩ := Prod.mk.inj result
    obtain ⟨w', hit⟩ := allocBitLoop_some found
    obtain ⟨-, hj, hi, clear, inMap⟩ := scanBlock_some hit
    have clearBit : bitOf map (i + j * intBits + (b' <<< bitMapShift)) = false := by
      rw [bitOf_parts hj hi]
      exact clear
    have named : i + j * intBits + (b' <<< bitMapShift) ≠ noBit := fun zero => by
      rw [zero, noBit, zeroSet] at clearBit
      cases clearBit
    refine ⟨⟨fun zero => absurd zero named, fun all => ?_⟩, fun _ =>
      ⟨inMap, clearBit, bitOf_setWord_or hj hi, freeBit_setWord_or hj hi clear⟩⟩
    rw [all _ inMap] at clearBit
    cases clearBit

theorem alloc_bit_from_word_one :
    100 ≤ 1 * 2 ^ bitMapShift ∧ bitOf (fun _ _ => 1) 0 = true ∧
      (allocBit (fun _ _ => 1) 100 1 50).2 = 33 ∧
      freeBit (allocBit (fun _ _ => 1) 100 1 50).1 33 = some (fun _ _ => 1) := by
  have result := alloc_bit_takes_clear_bit (fun _ _ => 1) 100 1 50 (by decide) (by decide)
    (allocBit (fun _ _ => 1) 100 1 50).1 (allocBit (fun _ _ => 1) 100 1 50).2 rfl
  have found : (allocBit (fun _ _ => 1) 100 1 50).2 = 33 := by decide +kernel
  refine ⟨by decide, by decide, found, ?_⟩
  rw [← found]
  exact (result.2 (by rw [found]; decide)).2.2.2

def onlyZeroClear : BitMap := fun b w => if b = 0 ∧ w = 0 then 0xFFFFFFFE else 0xFFFFFFFF

/-- Without bit 0 set, `alloc_bit` takes bit 0 and returns it as `NO_BIT`. -/
theorem alloc_bit_hands_out_bit_zero :
    bitOf onlyZeroClear 0 = false ∧ (allocBit onlyZeroClear 32 1 0).2 = noBit ∧
      bitOf (allocBit onlyZeroClear 32 1 0).1 0 = true := by
  decide +kernel

end AllocBit

end Xinim.Fs
