import Mathlib.Algebra.CharP.Two
import Mathlib.Algebra.Polynomial.Div
import Mathlib.Algebra.Polynomial.RingDivision
import Mathlib.Algebra.Field.ZMod
import Mathlib.GroupTheory.OrderOfElement
import Mathlib.RingTheory.AdjoinRoot

/-!
# Bit Strings as Polynomials over GF(2)

A bit string, most significant bit first, denotes a polynomial over GF(2). This module
develops what a cyclic redundancy check needs of that reading: concatenation is a shift
and an addition, exclusive or is addition, one step of a Galois shift register is
multiplication by `X` modulo the generator, and three classes of error patterns are not
divisible by a generator with the right shape.

Everything is stated for an arbitrary generator `G`.
-/

namespace GumstixExtras.Lib

open Polynomial

/-! ## §1 Bit strings -/

/-- The coefficient a bit stands for. -/
def bitCoeff (b : Bool) : ZMod 2 := if b then 1 else 0

@[simp] theorem bitCoeff_false : bitCoeff false = 0 := rfl

@[simp] theorem bitCoeff_true : bitCoeff true = 1 := rfl

theorem bitCoeff_xor (a b : Bool) : bitCoeff (xor a b) = bitCoeff a + bitCoeff b := by
  cases a <;> cases b <;> decide

/-- The polynomial of a bit string, most significant bit first. -/
noncomputable def bitPoly : List Bool → (ZMod 2)[X]
  | [] => 0
  | b :: bs => C (bitCoeff b) * X ^ bs.length + bitPoly bs

@[simp] theorem bitPoly_nil : bitPoly [] = 0 := rfl

theorem bitPoly_cons (b : Bool) (bs : List Bool) :
    bitPoly (b :: bs) = C (bitCoeff b) * X ^ bs.length + bitPoly bs := rfl

/-- Appending bits shifts the polynomial of the bits before them. -/
theorem bitPoly_append (as bs : List Bool) :
    bitPoly (as ++ bs) = bitPoly as * X ^ bs.length + bitPoly bs := by
  induction as with
  | nil => simp
  | cons a as ih =>
    rw [List.cons_append, bitPoly_cons, bitPoly_cons, ih, List.length_append, pow_add]
    ring

theorem bitPoly_replicate_false (n : ℕ) : bitPoly (List.replicate n false) = 0 := by
  induction n with
  | zero => rfl
  | succ n ih => rw [List.replicate_succ, bitPoly_cons, ih]; simp

theorem bitPoly_snoc (bs : List Bool) (b : Bool) :
    bitPoly (bs ++ [b]) = bitPoly bs * X + C (bitCoeff b) := by
  rw [bitPoly_append]
  simp [bitPoly_cons]

/-- Exclusive or of two bit strings of one length is addition. -/
theorem bitPoly_zipWith_xor {as bs : List Bool} (h : as.length = bs.length) :
    bitPoly (List.zipWith xor as bs) = bitPoly as + bitPoly bs := by
  induction as generalizing bs with
  | nil =>
    cases bs with
    | nil => simp
    | cons b bs => simp at h
  | cons a as ih =>
    cases bs with
    | nil => simp at h
    | cons b bs =>
      have hlen : as.length = bs.length := by simpa using h
      rw [List.zipWith_cons_cons, bitPoly_cons, bitPoly_cons, bitPoly_cons, ih hlen,
        bitCoeff_xor, C_add, List.length_zipWith, hlen, min_self]
      ring

/-- A bit string of length `n` has degree below `n`. -/
theorem degree_bitPoly_lt (bs : List Bool) : (bitPoly bs).degree < bs.length := by
  induction bs with
  | nil => simp [bot_lt_iff_ne_bot]
  | cons b bs ih =>
    rw [bitPoly_cons, List.length_cons]
    have hlt : (bs.length : WithBot ℕ) < ((bs.length + 1 : ℕ) : WithBot ℕ) := by
      exact_mod_cast Nat.lt_succ_self _
    refine lt_of_le_of_lt (degree_add_le _ _) (max_lt ?_ (ih.trans hlt))
    exact lt_of_le_of_lt (degree_C_mul_X_pow_le _ _) hlt

/-- Only the all-zero string denotes the zero polynomial. -/
theorem bitPoly_ne_zero_of_mem {bs : List Bool} (h : true ∈ bs) : bitPoly bs ≠ 0 := by
  induction bs with
  | nil => simp at h
  | cons b bs ih =>
    cases b with
    | false =>
      have hmem : true ∈ bs := by simpa using h
      simpa [bitPoly_cons] using ih hmem
    | true =>
      -- the leading bit is set, and nothing below it reaches its degree
      intro hzero
      have hcoeff := congrArg (fun p => p.coeff bs.length) hzero
      have hlow : (bitPoly bs).coeff bs.length = 0 :=
        coeff_eq_zero_of_degree_lt (degree_bitPoly_lt bs)
      simp [bitPoly_cons, hlow] at hcoeff

/-- A bit string is determined by its length and its polynomial. -/
theorem bitPoly_injective {as bs : List Bool} (hlen : as.length = bs.length)
    (h : bitPoly as = bitPoly bs) : as = bs := by
  -- the exclusive or of the two strings denotes zero, so no bit of it is set
  have hxor : bitPoly (List.zipWith xor as bs) = 0 := by
    rw [bitPoly_zipWith_xor hlen, h, CharTwo.add_self_eq_zero]
  have hnone : true ∉ List.zipWith xor as bs := fun hmem => bitPoly_ne_zero_of_mem hmem hxor
  -- what is left is a statement about the bits alone
  clear h hxor
  induction as generalizing bs with
  | nil => exact (List.length_eq_zero_iff.mp hlen.symm).symm
  | cons a as ih =>
    cases bs with
    | nil => simp at hlen
    | cons b bs =>
      simp only [List.zipWith_cons_cons, List.mem_cons, not_or] at hnone
      have hab : a = b := by
        cases a <;> cases b <;> simp_all
      rw [hab, ih (by simpa using hlen) hnone.2]

/-- The value at one counts the set bits. -/
theorem eval_one_bitPoly (bs : List Bool) :
    (bitPoly bs).eval 1 = (bs.count true : ZMod 2) := by
  induction bs with
  | nil => simp
  | cons b bs ih =>
    rw [bitPoly_cons, eval_add, ih]
    cases b <;> simp [add_comm]

/-! ## §2 Bytes -/

/-- The bits of a byte, most significant first. -/
def byteBits (b : UInt8) : List Bool := (List.range 8).map b.toBitVec.getMsbD

/-- The bits of a byte string in transmission order. -/
def bytesBits (bs : List UInt8) : List Bool := bs.flatMap byteBits

@[simp] theorem length_byteBits (b : UInt8) : (byteBits b).length = 8 := by simp [byteBits]

@[simp] theorem length_bytesBits (bs : List UInt8) : (bytesBits bs).length = 8 * bs.length := by
  simp [bytesBits, Nat.mul_comm]

@[simp] theorem bytesBits_nil : bytesBits [] = [] := rfl

theorem bytesBits_cons (b : UInt8) (bs : List UInt8) :
    bytesBits (b :: bs) = byteBits b ++ bytesBits bs := rfl

theorem bytesBits_append (as bs : List UInt8) :
    bytesBits (as ++ bs) = bytesBits as ++ bytesBits bs := List.flatMap_append

theorem byteBits_xor (a b : UInt8) :
    byteBits (a ^^^ b) = List.zipWith xor (byteBits a) (byteBits b) := by
  simp [byteBits, List.zipWith_map, BitVec.getMsbD_xor]

/-- Shifting a byte up drops its first bit. -/
theorem byteBits_shiftLeft (b : UInt8) : byteBits (b <<< 1) = (byteBits b).tail ++ [false] := by
  have hbit : ∀ i, (b <<< 1).toBitVec.getMsbD i = b.toBitVec.getMsbD (i + 1) := by
    intro i
    rw [UInt8.toBitVec_shiftLeft]
    exact BitVec.getMsbD_shiftLeft ..
  -- what comes in behind the last bit is a zero
  show (List.range 8).map (b <<< 1).toBitVec.getMsbD = _
  simp only [funext hbit]
  rfl

/-- The mask `0x80` picks the first bit of a byte. -/
theorem and_topBit_ne_zero_iff (b : UInt8) : b &&& 0x80 ≠ 0 ↔ b.toBitVec.getMsbD 0 = true := by
  have hmask : (0x80 : UInt8).toBitVec = BitVec.twoPow 8 7 := by decide
  have hbit : b.toBitVec.getMsbD 0 = b.toBitVec.getLsbD 7 := rfl
  rw [ne_eq, ← UInt8.toBitVec_inj, UInt8.toBitVec_and, hmask, BitVec.and_twoPow, hbit]
  by_cases htop : b.toBitVec.getLsbD 7 = true
  · rw [if_pos htop]
    exact iff_of_true (by decide) htop
  · rw [if_neg htop]
    exact iff_of_false (fun h => h rfl) htop

theorem byteBits_eq_cons (b : UInt8) :
    byteBits b = b.toBitVec.getMsbD 0 :: (byteBits b).tail := rfl

theorem byteBits_injective : Function.Injective byteBits := by
  intro a b h
  apply UInt8.toBitVec_inj.mp
  apply BitVec.eq_of_getMsbD_eq
  intro i hi
  exact List.map_inj_left.mp h i (List.mem_range.mpr hi)

/-! ## §3 Galois shift registers -/

section Register

variable (taps : List Bool)

/-- The generator of a register whose feedback is `taps`: one more bit on top. -/
noncomputable def generator : (ZMod 2)[X] := bitPoly (true :: taps)

/-- One step of a Galois shift register: shift up, and add the feedback when a one
falls out. -/
def registerStep : List Bool → List Bool
  | [] => []
  | true :: bs => List.zipWith xor (bs ++ [false]) taps
  | false :: bs => bs ++ [false]

variable {taps}

theorem generator_eq : generator taps = X ^ taps.length + bitPoly taps := by
  simp [generator, bitPoly_cons]

theorem degree_generator : (generator taps).degree = taps.length := by
  rw [generator_eq, degree_add_eq_left_of_degree_lt]
  · exact degree_X_pow _
  · rw [degree_X_pow]
    exact degree_bitPoly_lt taps

/-- One register step is multiplication by `X` modulo the generator. -/
theorem mk_registerStep {reg : List Bool} (h : reg.length = taps.length) :
    AdjoinRoot.mk (generator taps) (bitPoly (registerStep taps reg)) =
      AdjoinRoot.mk (generator taps) (X * bitPoly reg) := by
  cases reg with
  | nil => simp [registerStep]
  | cons b bs =>
    have hlen : bs.length + 1 = taps.length := by simpa using h
    cases b with
    | false =>
      -- a zero falls out: the step is a plain shift
      simp only [registerStep, bitPoly_snoc, bitPoly_cons, bitCoeff_false, C_0, zero_mul,
        zero_add, add_zero, mul_comm X]
    | true =>
      -- the bit that falls out is `X ^ n`, which the generator replaces by the taps
      have hsum : bitPoly (registerStep taps (true :: bs)) + generator taps =
          X * bitPoly (true :: bs) := by
        have hx : bitPoly (bs ++ [false]) = bitPoly bs * X := by
          rw [bitPoly_snoc, bitCoeff_false, C_0, add_zero]
        rw [registerStep, bitPoly_zipWith_xor (by simpa using hlen), hx, generator_eq,
          bitPoly_cons, bitCoeff_true, C_1, one_mul, ← hlen, pow_succ]
        calc bitPoly bs * X + bitPoly taps + (X ^ bs.length * X + bitPoly taps)
            = X * (X ^ bs.length + bitPoly bs) + (bitPoly taps + bitPoly taps) := by ring
          _ = X * (X ^ bs.length + bitPoly bs) := by
              rw [CharTwo.add_self_eq_zero, add_zero]
      rw [← hsum, map_add, AdjoinRoot.mk_self, add_zero]

/-- Residues below the degree of the generator are told apart by the quotient ring. -/
theorem eq_of_mk_eq {p q : (ZMod 2)[X]} (hp : p.degree < taps.length)
    (hq : q.degree < taps.length)
    (h : AdjoinRoot.mk (generator taps) p = AdjoinRoot.mk (generator taps) q) : p = q := by
  rw [AdjoinRoot.mk_eq_mk] at h
  have hdeg : (p - q).degree < (generator taps).degree := by
    rw [degree_generator]
    exact lt_of_le_of_lt (degree_sub_le _ _) (max_lt hp hq)
  exact sub_eq_zero.mp (eq_zero_of_dvd_of_degree_lt h hdeg)

theorem generator_ne_zero : generator taps ≠ 0 := by
  intro hzero
  have hdeg : (generator taps).degree = taps.length := degree_generator
  rw [hzero, degree_zero] at hdeg
  exact absurd hdeg (WithBot.bot_ne_natCast _)

/-- A polynomial below the degree of the generator is the remainder of everything in its
residue class. -/
theorem eq_mod_of_mk_eq {p q : (ZMod 2)[X]} (hp : p.degree < taps.length)
    (h : AdjoinRoot.mk (generator taps) p = AdjoinRoot.mk (generator taps) q) :
    p = q % generator taps := by
  rw [AdjoinRoot.mk_eq_mk] at h
  rw [← mod_eq_of_dvd_sub h, eq_comm, mod_eq_self_iff generator_ne_zero, degree_generator]
  exact hp

end Register

/-! ## §4 Error patterns

An error pattern is the exclusive or of what was sent and what arrived. Each class below
is a set of patterns no multiple of a suitable generator belongs to. -/

/-- A pattern confined to a window of `w` consecutive bits. -/
def Burst (w : ℕ) (e : List Bool) : Prop :=
  ∃ p core q, e = List.replicate p false ++ core ++ List.replicate q false ∧ core.length ≤ w

/-- A pattern with an odd number of set bits. -/
def OddWeight (e : List Bool) : Prop := e.count true % 2 = 1

instance (e : List Bool) : Decidable (OddWeight e) := inferInstanceAs (Decidable (_ = _))

/-- The pattern of two set bits `k + 1` positions apart. -/
def bitPair (p k q : ℕ) : List Bool :=
  List.replicate p false ++ true :: (List.replicate k false ++ true :: List.replicate q false)

/-- A pattern with exactly two set bits, fewer than `n` positions apart. -/
def TwoBits (n : ℕ) (e : List Bool) : Prop := ∃ p k q, e = bitPair p k q ∧ k + 1 < n

/-- Up to a power of `X` the pattern is `X ^ d + 1`, `d` the distance of the two bits. -/
theorem bitPoly_bitPair (p k q : ℕ) : bitPoly (bitPair p k q) = (X ^ (k + 1) + 1) * X ^ q := by
  rw [bitPair, bitPoly_append, bitPoly_replicate_false, bitPoly_cons, bitPoly_append,
    bitPoly_replicate_false, bitPoly_cons, bitPoly_replicate_false]
  simp only [bitCoeff_true, C_1, one_mul, zero_mul, zero_add, add_zero, List.length_append,
    List.length_cons, List.length_replicate]
  ring

section Detection

variable {G : (ZMod 2)[X]}

/-- A generator with a constant term is coprime to every power of `X`. -/
theorem isCoprime_X_pow (h0 : G.coeff 0 = 1) (n : ℕ) : IsCoprime G (X ^ n) := by
  -- `G` is one plus a multiple of `X`
  refine IsCoprime.pow_right ⟨1, -G.divX, ?_⟩
  have hG : G.divX * X + C (G.coeff 0) = G := divX_mul_X_add G
  rw [h0, C_1] at hG
  linear_combination -hG

theorem dvd_of_dvd_mul_X_pow (h0 : G.coeff 0 = 1) {p : (ZMod 2)[X]} {n : ℕ}
    (h : G ∣ p * X ^ n) : G ∣ p :=
  (isCoprime_X_pow h0 n).dvd_of_dvd_mul_right h

/-- A non-zero burst no longer than the degree of the generator is not a multiple. -/
theorem not_dvd_of_burst (h0 : G.coeff 0 = 1) {w : ℕ} (hw : (w : WithBot ℕ) ≤ G.degree)
    {e : List Bool} (hne : true ∈ e) (he : Burst w e) : ¬ G ∣ bitPoly e := by
  obtain ⟨p, core, q, rfl, hcore⟩ := he
  have hmem : true ∈ core := by simpa using hne
  intro hdvd
  -- the zeros before the burst vanish, those behind it are a power of `X`
  rw [bitPoly_append, bitPoly_append, bitPoly_replicate_false, bitPoly_replicate_false,
    zero_mul, zero_add, add_zero] at hdvd
  -- the rest is a non-zero polynomial below the degree of `G`
  have hlt : (bitPoly core).degree < G.degree := by
    have hlen : (core.length : WithBot ℕ) ≤ w := by exact_mod_cast hcore
    exact (degree_bitPoly_lt core).trans_le (hlen.trans hw)
  exact bitPoly_ne_zero_of_mem hmem
    (eq_zero_of_dvd_of_degree_lt (dvd_of_dvd_mul_X_pow h0 hdvd) hlt)

/-- A generator with the factor `X + 1` divides no pattern of odd weight. -/
theorem not_dvd_of_oddWeight (h1 : G.eval 1 = 0) {e : List Bool} (he : OddWeight e) :
    ¬ G ∣ bitPoly e := by
  rintro ⟨k, hk⟩
  -- a multiple of `G` has the value zero at one, hence an even weight
  have hval : ((e.count true : ℕ) : ZMod 2) = 0 := by
    rw [← eval_one_bitPoly, hk, eval_mul, h1, zero_mul]
  rw [ZMod.natCast_eq_zero_iff] at hval
  unfold OddWeight at he
  omega

/-- Two set bits are not a multiple while `X` has not come back to one. -/
theorem not_dvd_of_twoBits (h0 : G.coeff 0 = 1) {n : ℕ}
    (hord : ∀ d, 0 < d → d < n → ¬ G ∣ X ^ d + 1) {e : List Bool} (he : TwoBits n e) :
    ¬ G ∣ bitPoly e := by
  obtain ⟨p, k, q, rfl, hk⟩ := he
  intro hdvd
  rw [bitPoly_bitPair] at hdvd
  exact hord (k + 1) (Nat.succ_pos k) hk (dvd_of_dvd_mul_X_pow h0 hdvd)

end Detection

/-! ## §5 The order of `X` -/

section Order

variable {G : (ZMod 2)[X]} {n : ℕ}

theorem dvd_X_pow_add_one_iff_root (d : ℕ) : G ∣ X ^ d + 1 ↔ AdjoinRoot.root G ^ d = 1 := by
  rw [← AdjoinRoot.mk_X, ← map_pow, ← map_one (AdjoinRoot.mk G), AdjoinRoot.mk_eq_mk,
    CharTwo.sub_eq_add]

/-- The generator divides `X ^ d + 1` exactly at the multiples of the order of `X`. -/
theorem dvd_X_pow_add_one_iff (hpos : 0 < n) (hn : G ∣ X ^ n + 1)
    (hord : ∀ d, 0 < d → d < n → ¬ G ∣ X ^ d + 1) (d : ℕ) : G ∣ X ^ d + 1 ↔ n ∣ d := by
  have horder : orderOf (AdjoinRoot.root G) = n := by
    rw [orderOf_eq_iff hpos]
    refine ⟨(dvd_X_pow_add_one_iff_root n).mp hn, fun m hm hmpos hone => ?_⟩
    exact hord m hmpos hm ((dvd_X_pow_add_one_iff_root m).mpr hone)
  rw [dvd_X_pow_add_one_iff_root, ← horder, orderOf_dvd_iff_pow_eq_one]

/-- Two set bits are a multiple exactly when their distance is a multiple of the order. -/
theorem dvd_bitPair_iff (h0 : G.coeff 0 = 1) (hpos : 0 < n) (hn : G ∣ X ^ n + 1)
    (hord : ∀ d, 0 < d → d < n → ¬ G ∣ X ^ d + 1) (p k q : ℕ) :
    G ∣ bitPoly (bitPair p k q) ↔ n ∣ k + 1 := by
  rw [bitPoly_bitPair, ← dvd_X_pow_add_one_iff hpos hn hord]
  exact ⟨dvd_of_dvd_mul_X_pow h0, fun h => h.mul_right _⟩

end Order

end GumstixExtras.Lib
