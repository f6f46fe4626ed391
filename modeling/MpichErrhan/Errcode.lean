import Mathlib

/-!
# The bit layout of an MPI error code

An error code is a C `int`.  The comment at the head of `errutil.c` lists its fields, from the
high bits down: is-dynamic, specific-message sequence number, specific-message (ring) index,
generic-message index, is-fatal, class.  Their masks and shifts live in `mpir_errcodes.h`,
which is not among the sources; `errorClassMask` through `errorSpecificSeqShift` are its
values, in that order: 7 class bits, the fatal bit, 11 generic bits, 7 ring-index bits,
4 sequence bits, the dynamic bit, and the sign bit on top.

Everything `errutil.c` does to a code is a mask, a shift, an `|`, or a signed comparison.
A code is therefore a `BitVec 32` (`CInt`), and the definitions below use the C operators
literally.  The lemmas of the second half read every masked field back as arithmetic on
`toNat` (`x / 2^a % 2^w`), the form `omega` closes; later files never unfold a mask.
-/

namespace MpichErrhan

/-- A C `int`, two's complement, 32 bits wide. -/
abbrev CInt := BitVec 32

/-- `MPI_SUCCESS`. -/
def mpiSuccess : CInt := 0

/-! ## The layout of `mpir_errcodes.h` -/

/-- Modelled from the spec: `ERROR_CLASS_MASK`, the class field (bits 0–6). -/
def errorClassMask : CInt := 0x0000007f
/-- Modelled from the spec: `ERROR_FATAL_MASK`, the is-fatal bit (bit 7). -/
def errorFatalMask : CInt := 0x00000080
/-- Modelled from the spec: `ERROR_GENERIC_MASK`, the generic index plus one (bits 8–18). -/
def errorGenericMask : CInt := 0x0007ff00
/-- Modelled from the spec: `ERROR_GENERIC_SHIFT`. -/
def errorGenericShift : Nat := 8
/-- Modelled from the spec: `ERROR_SPECIFIC_INDEX_MASK`, the ring index (bits 19–25). -/
def errorSpecificIndexMask : CInt := 0x03f80000
/-- Modelled from the spec: `ERROR_SPECIFIC_INDEX_SIZE`, the number of ring slots. -/
def errorSpecificIndexSize : Nat := 128
/-- Modelled from the spec: `ERROR_SPECIFIC_INDEX_SHIFT`. -/
def errorSpecificIndexShift : Nat := 19
/-- Modelled from the spec: `ERROR_SPECIFIC_SEQ_MASK`, the sequence number (bits 26–29). -/
def errorSpecificSeqMask : CInt := 0x3c000000
/-- Modelled from the spec: `ERROR_SPECIFIC_SEQ_SIZE`. -/
def errorSpecificSeqSize : Int := 16
/-- Modelled from the spec: `ERROR_SPECIFIC_SEQ_SHIFT`. -/
def errorSpecificSeqShift : Nat := 26
/-- Modelled from the spec: `ERROR_DYN_MASK`, the is-dynamic bit (bit 30). -/
def errorDynMask : CInt := 0x40000000

/-- `MAX_ERROR_RING`: the ring has one slot per value of the index field. -/
def maxErrorRing : Nat := errorSpecificIndexSize

/-- `ERROR_GET_CLASS` (and `MPIR_ERR_GET_CLASS`, the same macro). -/
def errorGetClass (errcode : CInt) : CInt := errcode &&& errorClassMask

/-- `MPIR_Err_is_fatal`: a dynamic code is never fatal; otherwise the fatal bit decides. -/
def mpirErrIsFatal (errcode : CInt) : Bool :=
  if errcode &&& errorDynMask ≠ 0 then false
  else errcode &&& errorFatalMask ≠ 0

/-! ## Fields as arithmetic -/

/-- Masking with a run of `w` ones at bit `a` keeps that field in place. -/
theorem Nat.and_two_pow_mul_mask (x a w : Nat) :
    x &&& 2 ^ a * (2 ^ w - 1) = 2 ^ a * (x / 2 ^ a % 2 ^ w) := by
  apply Nat.eq_of_testBit_eq
  intro i
  simp only [Nat.testBit_and, Nat.testBit_mul_pow_two, Nat.testBit_two_pow_sub_one,
    Nat.testBit_mod_two_pow, ← Nat.shiftRight_eq_div_pow, Nat.testBit_shiftRight]
  by_cases h : a ≤ i
  · have : a + (i - a) = i := by omega
    simp [h, this, Bool.and_comm]
  · simp [h]

theorem toNat_and_mask {x m : CInt} {a w : Nat} (hm : m.toNat = 2 ^ a * (2 ^ w - 1)) :
    (x &&& m).toNat = 2 ^ a * (x.toNat / 2 ^ a % 2 ^ w) := by
  rw [BitVec.toNat_and, hm, Nat.and_two_pow_mul_mask]

@[simp] theorem toNat_and_errorClassMask (x : CInt) :
    (x &&& errorClassMask).toNat = x.toNat % 128 := by
  rw [toNat_and_mask (m := errorClassMask) (a := 0) (w := 7) rfl]; simp

@[simp] theorem toNat_and_errorFatalMask (x : CInt) :
    (x &&& errorFatalMask).toNat = 128 * (x.toNat / 128 % 2) :=
  toNat_and_mask (m := errorFatalMask) (a := 7) (w := 1) rfl

@[simp] theorem toNat_and_errorGenericMask (x : CInt) :
    (x &&& errorGenericMask).toNat = 256 * (x.toNat / 256 % 2048) :=
  toNat_and_mask (m := errorGenericMask) (a := 8) (w := 11) rfl

@[simp] theorem toNat_and_errorSpecificIndexMask (x : CInt) :
    (x &&& errorSpecificIndexMask).toNat = 524288 * (x.toNat / 524288 % 128) :=
  toNat_and_mask (m := errorSpecificIndexMask) (a := 19) (w := 7) rfl

@[simp] theorem toNat_and_errorSpecificSeqMask (x : CInt) :
    (x &&& errorSpecificSeqMask).toNat = 67108864 * (x.toNat / 67108864 % 16) :=
  toNat_and_mask (m := errorSpecificSeqMask) (a := 26) (w := 4) rfl

@[simp] theorem toNat_and_errorDynMask (x : CInt) :
    (x &&& errorDynMask).toNat = 1073741824 * (x.toNat / 1073741824 % 2) :=
  toNat_and_mask (m := errorDynMask) (a := 30) (w := 1) rfl

@[simp] theorem toNat_errorGetClass (x : CInt) : (errorGetClass x).toNat = x.toNat % 128 :=
  toNat_and_errorClassMask x

theorem toInt_errorGetClass (x : CInt) : (errorGetClass x).toInt = (x.toNat % 128 : Nat) := by
  rw [BitVec.toInt_eq_toNat_cond, toNat_errorGetClass, if_pos (by omega)]

theorem bitVec_eq_zero_iff (x : CInt) : x = 0 ↔ x.toNat = 0 := by
  constructor
  · rintro rfl; rfl
  · intro h; exact BitVec.eq_of_toNat_eq (by simpa using h)

/-- `MPIR_Err_is_fatal` reads the fatal bit of a code whose dynamic bit is clear. -/
theorem mpirErrIsFatal_iff (x : CInt) :
    mpirErrIsFatal x = true ↔ x.toNat / 1073741824 % 2 = 0 ∧ x.toNat / 128 % 2 = 1 := by
  simp only [mpirErrIsFatal, ne_eq, bitVec_eq_zero_iff, toNat_and_errorDynMask,
    toNat_and_errorFatalMask]
  split <;> simp <;> omega

/-! ## Assembling a code -/

/-- An `|` of a field below `2^k` with a field at `k` is their sum. -/
theorem Nat.two_pow_mul_or_of_lt {b : Nat} (a : Nat) {k : Nat} (h : b < 2 ^ k) :
    2 ^ k * a ||| b = 2 ^ k * a + b :=
  (Nat.mul_add_lt_is_or h a).symm

theorem toNat_or_of_lt {x y : CInt} {k : Nat} (hx : x.toNat = 2 ^ k * (x.toNat / 2 ^ k))
    (hy : y.toNat < 2 ^ k) : (x ||| y).toNat = x.toNat + y.toNat := by
  rw [BitVec.toNat_or, hx, Nat.two_pow_mul_or_of_lt _ hy]

theorem toNat_shiftLeft_of_lt {y : CInt} {k : Nat} (hy : y.toNat * 2 ^ k < 2 ^ 32) :
    (y <<< k).toNat = 2 ^ k * y.toNat := by
  rw [BitVec.toNat_shiftLeft, Nat.shiftLeft_eq, Nat.mod_eq_of_lt hy, Nat.mul_comm]

/-- A field shifted to bit `k` above a value below `2^k`. -/
theorem toNat_or_shiftLeft {x y : CInt} {k : Nat} (hx : x.toNat < 2 ^ k)
    (hy : y.toNat * 2 ^ k < 2 ^ 32) : (x ||| y <<< k).toNat = x.toNat + 2 ^ k * y.toNat := by
  have hs := toNat_shiftLeft_of_lt hy
  rw [BitVec.or_comm, toNat_or_of_lt (k := k) _ hx, hs, Nat.add_comm]
  rw [hs, Nat.mul_div_cancel_left _ (Nat.two_pow_pos k)]

/-- Setting a clear fatal bit adds 128. -/
theorem toNat_or_errorFatalMask {x : CInt} (h : x.toNat / 128 % 2 = 0) :
    (x ||| errorFatalMask).toNat = x.toNat + 128 := by
  have hx : 2 ^ 8 * (x.toNat / 256) ||| x.toNat % 128 = x.toNat := by
    rw [Nat.two_pow_mul_or_of_lt _ (by omega : x.toNat % 128 < 2 ^ 8)]; omega
  calc (x ||| errorFatalMask).toNat
      = (2 ^ 8 * (x.toNat / 256) ||| x.toNat % 128) ||| 2 ^ 7 * 1 := by
        rw [BitVec.toNat_or, hx]; rfl
    _ = 2 ^ 8 * (x.toNat / 256) ||| (2 ^ 7 * 1 + x.toNat % 128) := by
        rw [Nat.or_assoc, Nat.or_comm (x.toNat % 128),
          Nat.two_pow_mul_or_of_lt _ (by omega : x.toNat % 128 < 2 ^ 7)]
    _ = x.toNat + 128 := by rw [Nat.two_pow_mul_or_of_lt _ (by omega)]; omega

end MpichErrhan
