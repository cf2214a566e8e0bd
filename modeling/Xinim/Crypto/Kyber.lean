import Mathlib.Data.Int.ModEq
import Xinim.Data.Butterfly

/-! The polynomial arithmetic of `poly_simd` (crypto/kyber_cpp23_simd.hpp):
256 coefficients of type `int16_t` and the modulus `q = 3329`, a `size_t`.
Machine integers are `Int16`. A product formed in `int32_t` is kept as an
integer, also where it leaves the range of `int32_t`, as `montgomery_mul`'s
`a * b * 3303` can and C++ leaves undefined. The reductions are
`reduce_scalar` and the one-lane formula that `reduce_sse41`, `reduce_avx2`
and the `reduce_avx512` of a CPU without VNNI share; the NTT is its scalar
path, the one a build without AVX2 and AVX-512F runs. -/

namespace Xinim.Crypto

open Butterfly

def n : ℕ := 256

def q : ℕ := 3329

/-- `reduce_scalar` on one coefficient: a Barrett estimate and two
corrections. -/
def reduceScalar (coeff : Int16) : Int16 :=
  let t : ℤ := (coeff.toInt * 5039) >>> (23 : ℕ)
  -- `t * q` is a `size_t`: the difference is taken modulo 2^64, then narrowed to 16 bits
  let coeff := Int16.ofInt (coeff.toInt - t * q)
  -- `coeff >= q` converts the coefficient to `size_t`, where a negative one is huge
  let coeff := if q ≤ (coeff.toInt % 2 ^ 64).toNat then Int16.ofInt (coeff.toInt - q) else coeff
  if coeff < 0 then Int16.ofInt (coeff.toInt + q) else coeff

def reduceLane (a : Int16) : Int16 :=
  let t := Int16.ofInt ((a.toInt * -3327) >>> (16 : ℕ))
  a - t * Int16.ofInt q

/-- The `int32_t` product `montgomery_mul` forms before its shift. -/
def montgomeryProduct (a b : Int16) : ℤ := a.toInt * b.toInt * 3303

def montgomeryMul (a b : Int16) : Int16 := Int16.ofInt (montgomeryProduct a b >>> (16 : ℕ))

/-- The loop of `generate_ntt_constants`: `count` powers from `pow`, each the
`montgomery_mul` of the last by `root`. -/
def powersOf (root : Int16) : ℕ → Int16 → List Int16
  | 0, _ => []
  | count + 1, pow => pow :: powersOf root count (montgomeryMul pow root)

def generateNttConstants : List Int16 := powersOf 17 128 1

def generateInvNttConstants : List Int16 := powersOf 1175 128 1

/-- The coefficients of a `poly_simd`; `coeffs[i]` is `get p i` and an
assignment is `set p i v`. -/
abbrev Poly := Fin n → Int16

/-- `reduce_mod_q` in a build whose best instruction set is SSE4.1, AVX2 or
AVX-512 without VNNI (`lanes`), or none of them. -/
def reduceModQ (lanes : Bool) (p : Poly) : Poly := fun i => if lanes then reduceLane (p i) else reduceScalar (p i)

def nttButterflies (zeta : Int16) (len : ℕ) : ℕ → ℕ → Poly → Poly
  | 0, _, p => p
  | count + 1, j, p =>
    let t := montgomeryMul (get p (j + len)) zeta
    let p := set p (j + len) (get p j - t)
    nttButterflies zeta len count (j + 1) (set p j (get p j + t))

def nttBlocks (zetas : List Int16) (len : ℕ) : ℕ → ℕ → Poly → Poly
  | 0, _, p => p
  | count + 1, start, p =>
    nttBlocks zetas len count ((len <<< 1) + start) (nttButterflies (zetas.getD (128 - len) 0) len len start p)

def nttLayers (zetas : List Int16) : ℕ → ℕ → Poly → Poly
  | 0, _, p => p
  | count + 1, len, p => nttLayers zetas count (len >>> 1) (nttBlocks zetas len (n / (len <<< 1)) 0 p)

def nttScalar (lanes : Bool) (p : Poly) : Poly := reduceModQ lanes (nttLayers generateNttConstants 7 128 p)

def invnttButterflies (zeta : Int16) (len : ℕ) : ℕ → ℕ → Poly → Poly
  | 0, _, p => p
  | count + 1, j, p =>
    let t := get p j
    let p := set p j (t + get p (j + len))
    invnttButterflies zeta len count (j + 1) (set p (j + len) (montgomeryMul (get p (j + len) - t) zeta))

def invnttBlocks (invZetas : List Int16) (len : ℕ) : ℕ → ℕ → Poly → Poly
  | 0, _, p => p
  | count + 1, start, p =>
    invnttBlocks invZetas len count ((len <<< 1) + start) (invnttButterflies (invZetas.getD (len - 2) 0) len len start p)

def invnttLayers (invZetas : List Int16) : ℕ → ℕ → Poly → Poly
  | 0, _, p => p
  | count + 1, len, p => invnttLayers invZetas count (len <<< 1) (invnttBlocks invZetas len (n / (len <<< 1)) 0 p)

/-- `invntt_scalar`: the layers, the scaling by `montgomery_mul(coeff, 3303)`
and `reduce_mod_q`. -/
def invnttScalar (lanes : Bool) (p : Poly) : Poly :=
  reduceModQ lanes fun i => montgomeryMul (invnttLayers generateInvNttConstants 7 2 p i) 3303

section Reduce

theorem toInt_ofInt_of_mem {z : ℤ} (lo : -32768 ≤ z) (hi : z < 32768) : (Int16.ofInt z).toInt = z := by
  rw [Int16.toInt_ofInt, Int.bmod_def]
  simp only [Int16.size]
  split <;> omega

theorem reduceScalar_of_lt {x : Int16} (nonneg : 0 ≤ x.toInt) (small : x.toInt < q) :
    (reduceScalar x).toInt = if x.toInt < 1665 then x.toInt else x.toInt - q := by
  simp only [q, Nat.cast_ofNat] at small ⊢
  have quotient : (x.toInt * 5039) >>> (23 : ℕ) = if x.toInt < 1665 then 0 else 1 := by
    rw [Int.shiftRight_eq_div_pow, show ((2 ^ 23 : ℕ) : ℤ) = 8388608 from rfl]
    split <;> omega
  simp only [reduceScalar, quotient, q, Nat.cast_ofNat, Int16.lt_iff_toInt_lt, Int16.toInt_zero]
  by_cases lower : x.toInt < 1665
  · -- the estimate is 0: the value stays and neither correction applies
    have kept : (Int16.ofInt (x.toInt - 0 * 3329)).toInt = x.toInt := by
      rw [zero_mul, sub_zero, toInt_ofInt_of_mem (by omega) (by omega)]
    have noWrap : ¬ 3329 ≤ (x.toInt % 2 ^ 64).toNat := by omega
    simp only [if_pos lower, kept]
    rw [if_neg noWrap, kept, if_neg (by omega), kept]
  · -- the estimate is 1: the difference is negative, so `coeff >= q` holds of
    -- it as a `size_t`, and the two corrections cancel
    have first : (Int16.ofInt (x.toInt - 1 * 3329)).toInt = x.toInt - 3329 := by
      rw [one_mul, toInt_ofInt_of_mem (by omega) (by omega)]
    have second : (Int16.ofInt (x.toInt - 3329 - 3329)).toInt = x.toInt - 3329 - 3329 :=
      toInt_ofInt_of_mem (by omega) (by omega)
    have wraps : 3329 ≤ ((x.toInt - 3329) % 2 ^ 64).toNat := by omega
    simp only [if_neg lower, first]
    rw [if_pos wraps, second, if_pos (by omega), toInt_ofInt_of_mem (by omega) (by omega)]
    omega

theorem montgomeryMul_zero_left (b : Int16) : montgomeryMul 0 b = 0 := by
  simp [montgomeryMul, montgomeryProduct]

theorem montgomeryMul_zero_right (a : Int16) : montgomeryMul a 0 = 0 := by
  simp [montgomeryMul, montgomeryProduct]

theorem reduce_scalar_and_montgomery_mul_miss :
    (∀ c : Fin q, (reduceScalar (Int16.ofInt c.val)).toInt = if c.val < 1665 then (c.val : ℤ) else c.val - q) ∧
    (2 : ℤ) ^ 31 ≤ montgomeryProduct 3328 3328 ∧
    (q : ℤ) ≤ |(montgomeryMul 3328 3328).toInt| ∧
    ¬ (montgomeryMul 1 1).toInt * 2 ^ 16 ≡ 1 * 1 [ZMOD q] := by
  refine ⟨fun c => ?_, by decide, by decide, by decide⟩
  have bound : (c.val : ℤ) < 3329 := by exact_mod_cast c.isLt
  have value : (Int16.ofInt c.val).toInt = c.val := toInt_ofInt_of_mem (by omega) (by omega)
  rw [reduceScalar_of_lt (by omega) (by rw [value]; exact bound), value]
  by_cases lower : c.val < 1665
  · rw [if_pos (by omega), if_pos lower]
  · rw [if_neg (by omega), if_neg lower]

end Reduce

section Twiddles

theorem powersOf_zero (root : Int16) : ∀ count, powersOf root count 0 = List.replicate count 0 := by
  intro count
  induction count with
  | zero => rfl
  | succ count ih => rw [powersOf, montgomeryMul_zero_left, ih, List.replicate_succ]

theorem generateNttConstants_eq : generateNttConstants = 1 :: List.replicate 127 0 := by
  rw [generateNttConstants, powersOf, show montgomeryMul 1 17 = 0 by decide, powersOf_zero]

theorem generateNttConstants_getD {i : ℕ} (pos : 0 < i) : generateNttConstants.getD i 0 = 0 := by
  obtain ⟨i, rfl⟩ := Nat.exists_eq_add_of_lt pos
  rw [generateNttConstants_eq, Nat.zero_add, List.getD_cons_succ, List.getD_eq_getElem?_getD,
    List.getElem?_replicate]
  split <;> rfl

end Twiddles

section Layers

def nttLow (zeta x y : Int16) : Int16 := x + montgomeryMul y zeta

def nttHigh (zeta x y : Int16) : Int16 := x - montgomeryMul y zeta

def invnttLow (x y : Int16) : Int16 := x + y

def invnttHigh (zeta x y : Int16) : Int16 := montgomeryMul (y - x) zeta

theorem double_eq (len : ℕ) : len <<< 1 = 2 * len := by
  rw [Nat.shiftLeft_eq, pow_one, mul_comm]

theorem cover_of_le {c : ℕ} (small : c ≤ 7) : n = n / (2 * 2 ^ c) * (2 * 2 ^ c) := by
  have dvd : 2 * 2 ^ c ∣ 2 ^ 8 := by
    rw [← pow_succ']
    exact pow_dvd_pow 2 (by omega)
  exact (Nat.div_mul_cancel dvd).symm

variable (zetas : List Int16) (p : Poly)

theorem nttButterflies_succ (zeta : Int16) {len : ℕ} (pos : 0 < len) (count j : ℕ) :
    nttButterflies zeta len (count + 1) j p =
      nttButterflies zeta len count (j + 1) (step (nttLow zeta) (nttHigh zeta) len j p) := by
  simp only [nttButterflies]
  rw [get_set_of_ne _ _ (by omega : j ≠ j + len), set_comm _ _ _ (by omega : j + len ≠ j)]
  rfl

theorem nttButterflies_eq (zeta : Int16) {len count : ℕ} (short : count ≤ len) (j : ℕ) :
    nttButterflies zeta len count j p = span (nttLow zeta) (nttHigh zeta) len j count p := by
  induction count generalizing j p with
  | zero => rw [span_zero]; rfl
  | succ count ih =>
    rw [nttButterflies_succ p zeta (by omega), ih _ (by omega), span_step (by omega)]

theorem nttBlocks_eq (len : ℕ) : ∀ count start (p : Poly), start % (2 * len) = 0 →
    nttBlocks zetas len count start p =
      blocks (nttLow (zetas.getD (128 - len) 0)) (nttHigh (zetas.getD (128 - len) 0)) len start count p := by
  intro count
  induction count with
  | zero => intro start p _; rw [blocks_zero]; rfl
  | succ count ih =>
    intro start p aligned
    rw [nttBlocks, nttButterflies_eq _ _ le_rfl, double_eq,
      ih _ _ (by rw [Nat.add_mod_left, aligned]), blocks_span aligned]

theorem nttBlocks_layer {len : ℕ} (cover : n = n / (2 * len) * (2 * len)) :
    nttBlocks zetas len (n / (len <<< 1)) 0 p =
      layer (nttLow (zetas.getD (128 - len) 0)) (nttHigh (zetas.getD (128 - len) 0)) len p := by
  rw [double_eq, nttBlocks_eq _ _ _ _ _ (Nat.zero_mod _), blocks_of_cover cover]

theorem invnttButterflies_succ (zeta : Int16) {len : ℕ} (pos : 0 < len) (count j : ℕ) :
    invnttButterflies zeta len (count + 1) j p =
      invnttButterflies zeta len count (j + 1) (step invnttLow (invnttHigh zeta) len j p) := by
  simp only [invnttButterflies]
  rw [get_set_of_ne _ _ (by omega : j + len ≠ j)]
  rfl

theorem invnttButterflies_eq (zeta : Int16) {len count : ℕ} (short : count ≤ len) (j : ℕ) :
    invnttButterflies zeta len count j p = span invnttLow (invnttHigh zeta) len j count p := by
  induction count generalizing j p with
  | zero => rw [span_zero]; rfl
  | succ count ih =>
    rw [invnttButterflies_succ p zeta (by omega), ih _ (by omega), span_step (by omega)]

theorem invnttBlocks_eq (len : ℕ) : ∀ count start (p : Poly), start % (2 * len) = 0 →
    invnttBlocks zetas len count start p =
      blocks invnttLow (invnttHigh (zetas.getD (len - 2) 0)) len start count p := by
  intro count
  induction count with
  | zero => intro start p _; rw [blocks_zero]; rfl
  | succ count ih =>
    intro start p aligned
    rw [invnttBlocks, invnttButterflies_eq _ _ le_rfl, double_eq,
      ih _ _ (by rw [Nat.add_mod_left, aligned]), blocks_span aligned]

theorem nttLayers_succ {len : ℕ} (cover : n = n / (2 * len) * (2 * len)) (count : ℕ) :
    nttLayers zetas (count + 1) len p =
      nttLayers zetas count (len >>> 1)
        (layer (nttLow (zetas.getD (128 - len) 0)) (nttHigh (zetas.getD (128 - len) 0)) len p) := by
  rw [nttLayers, nttBlocks_layer _ _ cover]

end Layers

section RoundTrip

theorem nttLayers_of_zero (zetas : List Int16) : ∀ count len, nttLayers zetas count len 0 = 0 := by
  intro count
  induction count with
  | zero => intro len; rfl
  | succ count ih =>
    intro len
    have lo0 : ∀ zeta, nttLow zeta 0 0 = 0 := fun zeta => by simp [nttLow, montgomeryMul_zero_left]
    have hi0 : ∀ zeta, nttHigh zeta 0 0 = 0 := fun zeta => by simp [nttHigh, montgomeryMul_zero_left]
    rw [nttLayers, nttBlocks_eq _ _ _ _ _ (Nat.zero_mod _), blocks_of_zero (lo0 _) (hi0 _), ih]

theorem invnttLayers_of_zero (zetas : List Int16) : ∀ count len, invnttLayers zetas count len 0 = 0 := by
  intro count
  induction count with
  | zero => intro len; rfl
  | succ count ih =>
    intro len
    have lo0 : invnttLow 0 0 = 0 := rfl
    have hi0 : ∀ zeta, invnttHigh zeta 0 0 = 0 := fun zeta => by
      simp [invnttHigh, montgomeryMul_zero_left]
    rw [invnttLayers, invnttBlocks_eq _ _ _ _ _ (Nat.zero_mod _), blocks_of_zero lo0 (hi0 _), ih]

theorem reduceModQ_zero (lanes : Bool) : reduceModQ lanes 0 = 0 := by
  have scalar : reduceScalar 0 = 0 := by decide
  have lane : reduceLane 0 = 0 := by decide
  funext i
  cases lanes
  · simp only [reduceModQ, Pi.zero_apply, Bool.false_eq_true, if_false, scalar]
  · simp only [reduceModQ, Pi.zero_apply, if_true, lane]

theorem nttScalar_zero (lanes : Bool) : nttScalar lanes 0 = 0 := by
  rw [nttScalar, nttLayers_of_zero, reduceModQ_zero]

theorem invnttScalar_zero (lanes : Bool) : invnttScalar lanes 0 = 0 := by
  have scaled : (fun i => montgomeryMul ((0 : Poly) i) 3303) = 0 :=
    funext fun _ => montgomeryMul_zero_left 3303
  rw [invnttScalar, invnttLayers_of_zero, scaled, reduceModQ_zero]

theorem nttLayers_agree {zetas : List Int16} (copies : ∀ i, 0 < i → zetas.getD i 0 = 0) :
    ∀ c, c ≤ 6 → ∀ p p' : Poly, Agree (2 ^ (c + 1)) 2 p p' →
      nttLayers zetas c (2 ^ c) p = nttLayers zetas c (2 ^ c) p' := by
  intro c
  induction c with
  | zero => intro _ p p' agree; exact agree.eq (by decide) le_rfl
  | succ c ih =>
    intro small p p' agree
    have spanned : 2 ^ (c + 1) ≤ 64 := Nat.pow_le_pow_right (by decide) (by omega : c + 1 ≤ 6)
    have zeta : zetas.getD (128 - 2 ^ (c + 1)) 0 = 0 := copies _ (by omega)
    have half : 2 ^ (c + 1) >>> 1 = 2 ^ c := by
      rw [Nat.shiftRight_eq_div_pow, pow_succ, pow_one, Nat.mul_div_cancel _ (by decide)]
    have loCopy : ∀ x y, nttLow 0 x y = x := fun x y => by simp [nttLow, montgomeryMul_zero_right]
    have hiCopy : ∀ x y, nttHigh 0 x y = x := fun x y => by simp [nttHigh, montgomeryMul_zero_right]
    rw [pow_succ' 2 (c + 1)] at agree
    have cover : n = n / (2 * 2 ^ (c + 1)) * (2 * 2 ^ (c + 1)) := cover_of_le (by omega)
    rw [nttLayers_succ _ p cover, nttLayers_succ _ p' cover, zeta, half]
    have narrowed := agree.copy (Nat.le_self_pow (Nat.succ_ne_zero c) 2) loCopy hiCopy
    exact ih (by omega) _ _ narrowed

theorem nttScalar_congr (lanes : Bool) {p p' : Poly} (agree : Agree 128 2 p p') :
    nttScalar lanes p = nttScalar lanes p' := by
  have cover : n = n / (2 * 128) * (2 * 128) := rfl
  have half : (128 : ℕ) >>> 1 = 2 ^ 6 := rfl
  rw [nttScalar, nttScalar, nttLayers_succ _ p cover, nttLayers_succ _ p' cover, half]
  refine congrArg (reduceModQ lanes) ?_
  exact nttLayers_agree (fun _ => generateNttConstants_getD) 6 le_rfl _ _ (agree.layer (dvd_refl _))

def monomial (i : ℕ) : Poly := fun k => if k.val = i then 1 else 0

theorem monomial_agree_zero : Agree 128 2 (monomial 2) 0 := by
  intro k low
  have other : k.val ≠ 2 := by omega
  simp only [monomial, if_neg other]
  rfl

theorem ntt_round_trip_erases_coefficient (lanes : Bool) :
    invnttScalar lanes (nttScalar lanes (monomial 2)) = 0 := by
  rw [nttScalar_congr lanes monomial_agree_zero, nttScalar_zero, invnttScalar_zero]

end RoundTrip

end Xinim.Crypto
