import MpichErrhan.Config

/-!
# The error ring and its chains

`ErrorRing` is a static array of `MAX_ERROR_RING` slots with two cursors: `error_ring_loc`, the
next slot to write, and `max_error_ring_loc`, the furthest the cursor has been.  A slot holds a
diagnostic text and `prev_error`, the code it was chained from, so the slots reached from a
code through `prev_error` form the *causal chain* of that code.

A code names a slot through its ring-index field and *validates* against it when the slot's
stored `id` equals the code's class, generic and sequence fields (`convertErrcodeToIndexes`);
the id is made by `ErrcodeCreateID` from the class, the generic index and an additive checksum
of the message.  Every chain loop of `errutil.c` (`MPIR_Err_print_stack_string`,
`ErrGetInstanceString`, `CombineSpecificCodes`, `checkForUserErrcode`) steps through a slot only
when the decode succeeds, the code names a generic message and the id matches: `Ring.link?`
is that test.

A chain loop is a `while` loop with no bound.  `Chain s c es t` is the relation of a walk from
`c` that visits the slots `es` and stops at the link `t`.  It is deterministic
(`Chain.unique`), never visits a slot twice (`Chain.nodup`) and so is at most `MAX_ERROR_RING`
long (`Chain.length_le`); the executable walk `Ring.walk` with `MAX_ERROR_RING + 1` steps of
fuel reaches the end of every chain that has one (`Ring.walk_of_chain`).
-/

namespace MpichErrhan

/-! ## Slots and the ring -/

/-- `MPIR_Err_msg_t`: one slot.  The two texts are the C strings in the `location` and `msg`
arrays. -/
structure ErrMsg where
  id : CInt
  prevError : CInt
  useUserErrorCode : Bool
  userErrorCode : CInt
  location : CStr
  msg : CStr

/-- A slot as `memset` leaves it. -/
def ErrMsg.zero : ErrMsg := ⟨0, 0, false, 0, ∅, ∅⟩

/-- `ErrorRing` with `error_ring_loc` and `max_error_ring_loc`.  The cursor never passes the
high-water mark, and both stay inside the array. -/
structure Ring where
  errorRing : Nat → ErrMsg
  errorRingLoc : Nat
  maxErrorRingLoc : Nat
  loc_le : errorRingLoc ≤ maxErrorRingLoc
  max_lt : maxErrorRingLoc < maxErrorRing

/-- The ring as the program starts: zeroed static storage. -/
def Ring.init : Ring := ⟨fun _ => .zero, 0, 0, le_refl 0, by decide⟩

/-! ## Ring ids -/

/-- `(unsigned int) msg[i]` for a `char` that is signed, as on x86-64. -/
def charToUInt (c : Char) : CInt := BitVec.signExtend 32 (BitVec.ofNat 8 c.toNat)

/-- The running `ring_seq += (unsigned int) msg[i]` of `ErrcodeCreateID`. -/
def ringSeqSum (msg : List Char) : CInt := msg.foldl (fun acc c => acc + charToUInt c) 0

/-- `ErrcodeCreateID`: the slot id and the sequence number it embeds. -/
def errcodeCreateID (errorClass : CInt) (genericIdx : Int) (msg : CStr) : CInt × Int :=
  let ringSeq := (ringSeqSum msg.chars).toInt.tmod errorSpecificSeqSize
  ((errorClass &&& errorClassMask) |||
    (BitVec.ofInt 32 (genericIdx + 1) <<< errorGenericShift) |||
    (BitVec.ofInt 32 ringSeq <<< errorSpecificSeqShift), ringSeq)

/-- The outputs of `convertErrcodeToIndexes`. -/
structure ErrIndexes where
  ringIdx : Nat
  ringId : CInt
  genericIdx : Int

/-- The fields of a code that its slot's id must match. -/
def ringIdMask : CInt := errorClassMask ||| errorGenericMask ||| errorSpecificSeqMask

/-- `convertErrcodeToIndexes`, with its return value as the flag: the ring index is out of
range. -/
def convertErrcodeToIndexes (s : Ring) (errcode : CInt) : ErrIndexes × Bool :=
  let ringIdx := ((errcode &&& errorSpecificIndexMask) >>> errorSpecificIndexShift).toNat
  (⟨ringIdx, errcode &&& ringIdMask,
    (((errcode &&& errorGenericMask) >>> errorGenericShift).toNat : Int) - 1⟩,
   decide (ringIdx ≥ maxErrorRing ∨ ringIdx > s.maxErrorRingLoc))

/-- `checkErrcodeIsValid`: `0` when valid, else the reason. -/
def checkErrcodeIsValid (K : Config) (s : Ring) (errcode : CInt) : Nat :=
  if isValidErrorClass K errcode then 0
  else
    let ix := (convertErrcodeToIndexes s errcode).1
    if ix.ringIdx ≥ maxErrorRing ∨ ix.ringIdx > s.maxErrorRingLoc then 1
    else if (s.errorRing ix.ringIdx).id ≠ ix.ringId then 2
    else if ix.genericIdx < -1 ∨ ix.genericIdx > K.genericErrMsgs.length then 3
    else 0

/-- `checkForUserErrcode`: a code whose slot carries a user code is replaced by it. -/
def checkForUserErrcode (s : Ring) (errcode : CInt) : CInt :=
  if errcode = mpiSuccess then errcode
  else
    let (ix, bad) := convertErrcodeToIndexes s errcode
    if bad then errcode
    else if 0 ≤ ix.genericIdx ∧ (s.errorRing ix.ringIdx).id = ix.ringId ∧
        (s.errorRing ix.ringIdx).useUserErrorCode then (s.errorRing ix.ringIdx).userErrorCode
    else errcode

/-- The test of every chain loop: the slot `errcode` leads to, if any. -/
def Ring.link? (s : Ring) (errcode : CInt) : Option Nat :=
  let r := convertErrcodeToIndexes s errcode
  if !r.2 ∧ 0 ≤ r.1.genericIdx ∧ (s.errorRing r.1.ringIdx).id = r.1.ringId then some r.1.ringIdx
  else none

/-! ## Decoding as arithmetic -/

/-- The ring index field. -/
def ringIdxOf (c : CInt) : Nat := c.toNat / 524288 % 128

/-- The generic field, the generic index plus one. -/
def genericOf (c : CInt) : Nat := c.toNat / 256 % 2048

/-- The sequence field. -/
def seqOf (c : CInt) : Nat := c.toNat / 67108864 % 16

theorem toNat_and_ringIdMask (c : CInt) :
    (c &&& ringIdMask).toNat = c.toNat % 128 + 256 * genericOf c + 67108864 * seqOf c := by
  have hm : ringIdMask.toNat = 2 ^ 26 * (2 ^ 4 - 1) ||| 2 ^ 8 * (2 ^ 11 - 1) ||| (2 ^ 7 - 1) :=
    by decide
  have h₁ : 2 ^ 8 * (c.toNat / 2 ^ 8 % 2 ^ 11) < 2 ^ 26 := by omega
  have h₂ : 2 ^ 26 * (c.toNat / 2 ^ 26 % 2 ^ 4) + 2 ^ 8 * (c.toNat / 2 ^ 8 % 2 ^ 11) =
      2 ^ 7 * (2 ^ 19 * (c.toNat / 2 ^ 26 % 2 ^ 4) + 2 * (c.toNat / 2 ^ 8 % 2 ^ 11)) := by omega
  rw [BitVec.toNat_and, hm, Nat.and_or_distrib_left, Nat.and_or_distrib_left,
    Nat.and_two_pow_mul_mask, Nat.and_two_pow_mul_mask, Nat.and_pow_two_sub_one_eq_mod,
    Nat.two_pow_mul_or_of_lt _ h₁, h₂, Nat.two_pow_mul_or_of_lt _ (Nat.mod_lt _ (by omega))]
  simp only [genericOf, seqOf]
  omega

@[simp] theorem convertErrcodeToIndexes_ringIdx (s : Ring) (c : CInt) :
    (convertErrcodeToIndexes s c).1.ringIdx = ringIdxOf c := by
  simp only [convertErrcodeToIndexes, BitVec.toNat_ushiftRight, toNat_and_errorSpecificIndexMask,
    errorSpecificIndexShift, Nat.shiftRight_eq_div_pow, ringIdxOf]
  omega

@[simp] theorem convertErrcodeToIndexes_genericIdx (s : Ring) (c : CInt) :
    (convertErrcodeToIndexes s c).1.genericIdx = (genericOf c : Int) - 1 := by
  simp only [convertErrcodeToIndexes, BitVec.toNat_ushiftRight, toNat_and_errorGenericMask,
    errorGenericShift, Nat.shiftRight_eq_div_pow, genericOf]
  omega

@[simp] theorem convertErrcodeToIndexes_ringId (s : Ring) (c : CInt) :
    (convertErrcodeToIndexes s c).1.ringId = c &&& ringIdMask := rfl

theorem ringIdxOf_lt (c : CInt) : ringIdxOf c < maxErrorRing := by
  simp only [ringIdxOf, maxErrorRing, errorSpecificIndexSize]; omega

@[simp] theorem convertErrcodeToIndexes_bad (s : Ring) (c : CInt) :
    (convertErrcodeToIndexes s c).2 = decide (s.maxErrorRingLoc < ringIdxOf c) := by
  have h := ringIdxOf_lt c
  have e := convertErrcodeToIndexes_ringIdx s c
  simp only [convertErrcodeToIndexes] at e ⊢
  rw [e]
  simp only [decide_eq_decide]
  omega

/-- The chain test as three facts about the code's fields. -/
theorem link?_eq (s : Ring) (c : CInt) :
    s.link? c = if ringIdxOf c ≤ s.maxErrorRingLoc ∧ 1 ≤ genericOf c ∧
        (s.errorRing (ringIdxOf c)).id = c &&& ringIdMask then some (ringIdxOf c) else none := by
  simp only [Ring.link?, convertErrcodeToIndexes_bad, convertErrcodeToIndexes_genericIdx,
    convertErrcodeToIndexes_ringIdx, convertErrcodeToIndexes_ringId, Bool.not_eq_true',
    decide_eq_false_iff_not, Nat.not_lt]
  have : (0 ≤ (genericOf c : Int) - 1) ↔ 1 ≤ genericOf c := by omega
  simp only [this]

theorem link?_eq_some {s : Ring} {c : CInt} {i : Nat} :
    s.link? c = some i ↔ i = ringIdxOf c ∧ ringIdxOf c ≤ s.maxErrorRingLoc ∧
      1 ≤ genericOf c ∧ (s.errorRing (ringIdxOf c)).id = c &&& ringIdMask := by
  rw [link?_eq]
  split <;> simp_all [eq_comm]

theorem link?_eq_none {s : Ring} {c : CInt} :
    s.link? c = none ↔ (ringIdxOf c ≤ s.maxErrorRingLoc → 1 ≤ genericOf c →
      (s.errorRing (ringIdxOf c)).id ≠ c &&& ringIdMask) := by
  rw [link?_eq]
  split <;> simp_all

theorem link?_success (s : Ring) : s.link? mpiSuccess = none :=
  link?_eq_none.mpr fun _ h => absurd h (by decide)

/-! ## Chains -/

/-- A chain walk from `c` that visits the slots `es` and stops at the link `t`: the code the
loops of `errutil.c` hold when they leave. -/
inductive Chain (s : Ring) : CInt → List Nat → CInt → Prop
  | stop {c : CInt} : s.link? c = none → Chain s c [] c
  | step {c : CInt} {i : Nat} {es : List Nat} {t : CInt} :
      s.link? c = some i → Chain s (s.errorRing i).prevError es t → Chain s c (i :: es) t

namespace Chain

variable {s : Ring}

/-- A walk has one outcome. -/
theorem unique {c t t' : CInt} {es es' : List Nat} (h : Chain s c es t) (h' : Chain s c es' t') :
    es = es' ∧ t = t' := by
  induction h generalizing es' with
  | stop hc =>
    cases h' with
    | stop _ => exact ⟨rfl, rfl⟩
    | step hc' _ => simp_all
  | step hc _ ih =>
    cases h' with
    | stop hc' => simp_all
    | step hc' hr =>
      rw [hc] at hc'; cases hc'
      obtain ⟨rfl, rfl⟩ := ih hr
      exact ⟨rfl, rfl⟩

/-- Past its `k`-th slot a walk continues from that slot's `prev_error`. -/
theorem drop_succ {c t : CInt} {es : List Nat} (h : Chain s c es t) :
    ∀ k (hk : k < es.length), Chain s (s.errorRing es[k]).prevError (es.drop (k + 1)) t := by
  induction h with
  | stop _ => intro k hk; simp at hk
  | step _ hr ih =>
    intro k hk
    cases k with
    | zero => simpa using hr
    | succ k => simpa using ih k (by simpa using hk)

theorem mem_lt {c t : CInt} {es : List Nat} (h : Chain s c es t) : ∀ i ∈ es, i < maxErrorRing := by
  induction h with
  | stop _ => simp
  | step hc _ ih =>
    rintro i (_ | ⟨_, hi⟩)
    · exact (link?_eq_some.mp hc).1 ▸ ringIdxOf_lt _
    · exact ih i hi

/-- A finished walk never visits a slot twice: from a second visit it would repeat itself. -/
theorem nodup {c t : CInt} {es : List Nat} (h : Chain s c es t) : es.Nodup := by
  rw [List.nodup_iff_getElem?_ne_getElem?]
  intro j k hjk hk heq
  have hj : j < es.length := by omega
  rw [List.getElem?_eq_getElem hj, List.getElem?_eq_getElem hk, Option.some_inj] at heq
  have h₁ := h.drop_succ j hj
  rw [heq] at h₁
  have := congrArg List.length (unique h₁ (h.drop_succ k hk)).1
  simp at this
  omega

theorem length_le {c t : CInt} {es : List Nat} (h : Chain s c es t) : es.length ≤ maxErrorRing := by
  have hsub : es.Subperm (List.range maxErrorRing) :=
    List.subperm_of_subset h.nodup fun i hi => List.mem_range.mpr (h.mem_lt i hi)
  simpa using hsub.length_le

/-- A slot whose `prev_error` links back to itself has no finished walk. -/
theorem not_of_self_link {c t : CInt} {es : List Nat} {i : Nat} (hc : s.link? c = some i)
    (hp : (s.errorRing i).prevError = c) : ¬ Chain s c es t := by
  intro h
  induction es generalizing c t with
  | nil => cases h with | stop h' => simp_all
  | cons j es ih =>
    cases h with
    | step h' hr =>
      rw [hc] at h'; cases h'
      exact ih hc hp (hp ▸ hr)

end Chain

/-- The chain loop with `n` steps of fuel; running out is `Fault.diverges`. -/
def Ring.walk (s : Ring) : Nat → CInt → Except Fault (List Nat × CInt)
  | 0, _ => .error .diverges
  | n + 1, c =>
    match s.link? c with
    | none => .ok ([], c)
    | some i => (s.walk n (s.errorRing i).prevError).map fun r => (i :: r.1, r.2)

theorem Ring.walk_of_chain' {s : Ring} {c t : CInt} {es : List Nat} (h : Chain s c es t) :
    ∀ n, es.length < n → s.walk n c = .ok (es, t) := by
  induction h with
  | stop hc => intro n hn; cases n <;> simp_all [Ring.walk]
  | step hc _ ih =>
    intro n hn
    cases n with
    | zero => simp at hn
    | succ n => simp [Ring.walk, hc, ih n (by simpa using hn), Except.map]

/-- `MAX_ERROR_RING + 1` steps reach the end of every chain that has one. -/
theorem Ring.walk_of_chain {s : Ring} {c t : CInt} {es : List Nat} (h : Chain s c es t) :
    s.walk (maxErrorRing + 1) c = .ok (es, t) :=
  Ring.walk_of_chain' h _ (Nat.lt_succ_of_le h.length_le)

theorem Ring.chain_of_walk {s : Ring} : ∀ {n : Nat} {c t : CInt} {es : List Nat},
    s.walk n c = .ok (es, t) → Chain s c es t
  | 0, _, _, _, h => by simp [Ring.walk] at h
  | n + 1, c, t, es, h => by
    simp only [Ring.walk] at h
    split at h
    · simp only [Except.ok.injEq, Prod.mk.injEq] at h
      obtain ⟨rfl, rfl⟩ := h
      exact .stop ‹_›
    · rename_i i hi
      cases hw : s.walk n (s.errorRing i).prevError with
      | error e => simp [hw, Except.map] at h
      | ok r =>
        simp only [hw, Except.map, Except.ok.injEq, Prod.mk.injEq] at h
        obtain ⟨rfl, rfl⟩ := h
        exact .step hi (Ring.chain_of_walk hw)

end MpichErrhan
