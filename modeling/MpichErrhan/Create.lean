import MpichErrhan.Format
import MpichErrhan.Ring

/-!
# `MPIR_Err_create_code_valist`: minting a code

Creating a code is the one operation that writes a new slot.  In the order of the C routine:

* an invalid `lastcode` (`checkErrcodeIsValid`) is replaced by `MPI_SUCCESS`;
* the class `MPI_ERR_OTHER` is replaced by the class of `lastcode` when that is a valid class
  other than `MPI_SUCCESS` (`effectiveClass`), and the class `MPI_ERR_IN_STATUS` is returned
  as it is, with no slot;
* the generic key is looked up, and the `**user` key takes the user code from the arguments;
* the slot at the cursor is zeroed and filled: the message (`createRingMsg`), its id
  (`ErrcodeCreateID`), `prev_error = lastcode`, and the user code, either its own or the one
  the slot of `lastcode` carries (`carryUserCode`), which is read *after* the new slot was
  written; the cursor advances with wraparound and raises the high-water mark (`Ring.push`);
* the code is assembled from the class, the generic index, the slot and the sequence number,
  with the fatal bit of `fatal` or of `lastcode`.

The routine is cut into the text of the slot (`createMsg`, which depends on the keys and the
arguments only), the slot (`createEntry`) and the code (`createCode`).  The second half of the
file reads the code back field by field.  Its one condition is on the text: the checksum of
`ErrcodeCreateID` adds the bytes as signed `char`s, so the sequence number is a field value in
`[0, 16)` when the text is ASCII (`createSeq_of_ascii`); a text of high bytes makes it negative,
and its shift then spills into the dynamic and sign bits.
-/

namespace MpichErrhan

/-- `MPIR_MAX_ERROR_LINE`. -/
def mpirMaxErrorLine : Nat := 256

/-- `MAX_LOCATION_LEN`. -/
def maxLocationLen : Nat := 63

/-! ## Taking a slot -/

/-- `error_ring_loc` after `ring_idx = error_ring_loc++` and the wrap. -/
def Ring.nextLoc (s : Ring) : Nat :=
  if s.errorRingLoc + 1 ≥ maxErrorRing then (s.errorRingLoc + 1) % maxErrorRing
  else s.errorRingLoc + 1

theorem Ring.nextLoc_lt (s : Ring) : s.nextLoc < maxErrorRing := by
  have := s.loc_le; have := s.max_lt
  unfold Ring.nextLoc; simp only [maxErrorRing, errorSpecificIndexSize] at *; split <;> omega

/-- Write `e` into the slot at the cursor, advance the cursor and raise the high-water mark. -/
def Ring.push (s : Ring) (e : ErrMsg) : Ring where
  errorRing i := if i = s.errorRingLoc then e else s.errorRing i
  errorRingLoc := s.nextLoc
  maxErrorRingLoc := if s.nextLoc > s.maxErrorRingLoc then s.nextLoc else s.maxErrorRingLoc
  loc_le := by split <;> omega
  max_lt := by have := s.nextLoc_lt; have := s.max_lt; split <;> omega

@[simp] theorem Ring.push_errorRing (s : Ring) (e : ErrMsg) (i : Nat) :
    (s.push e).errorRing i = if i = s.errorRingLoc then e else s.errorRing i := rfl

@[simp] theorem Ring.push_errorRingLoc (s : Ring) (e : ErrMsg) :
    (s.push e).errorRingLoc = s.nextLoc := rfl

@[simp] theorem Ring.push_maxErrorRingLoc (s : Ring) (e : ErrMsg) :
    (s.push e).maxErrorRingLoc = max s.nextLoc s.maxErrorRingLoc := by
  simp only [Ring.push]; split <;> omega

theorem Ring.nextLoc_eq (s : Ring) : s.nextLoc = (s.errorRingLoc + 1) % maxErrorRing := by
  have := s.loc_le; have := s.max_lt
  unfold Ring.nextLoc; simp only [maxErrorRing, errorSpecificIndexSize] at *; split <;> omega

/-- A write at the cursor keeps the link of every code whose slot is elsewhere. -/
theorem Ring.link?_push_of_ne {s : Ring} {e : ErrMsg} {c : CInt} {j : Nat}
    (h : ringIdxOf c ≠ s.errorRingLoc) (hl : s.link? c = some j) : (s.push e).link? c = some j := by
  obtain ⟨rfl, hmax, hg, hid⟩ := link?_eq_some.mp hl
  exact link?_eq_some.mpr ⟨rfl, by simp only [Ring.push_maxErrorRingLoc]; omega, hg,
    by simp only [Ring.push_errorRing, h, if_false, hid]⟩

/-! ## The pieces of a new slot -/

variable (K : Config)

/-- `error_class` after the `MPI_ERR_OTHER` rule: take the class of `lastcode` when it is a
valid class above `MPI_SUCCESS`. -/
def effectiveClass (lastcode errorClass : CInt) : CInt :=
  if errorClass = BitVec.ofNat 32 K.mpiErrOther then
    if 0 < (errorGetClass lastcode).toInt ∧ (errorGetClass lastcode).toInt ≤ K.mpichErrLastMpix
    then errorGetClass lastcode
    else BitVec.ofNat 32 K.mpiErrOther
  else errorClass

/-- The generic message found is the `**user` message. -/
def isUserMsg (genericIdx : Int) : Bool :=
  0 ≤ genericIdx &&
    match K.genericErrMsgs[genericIdx.toNat]? with
    | some e => strcmp e.shortName.chars ("**user" : CStr).chars = .eq
    | none => false

/-- A key found in the table is the `**user` key exactly when it `strcmp`s equal to it. -/
theorem isUserMsg_found {genericMsg : CStr} (h : 0 ≤ findGenericMsgIndex K genericMsg) :
    isUserMsg K (findGenericMsgIndex K genericMsg) = true ↔
      strcmp genericMsg.chars ("**user" : CStr).chars = .eq := by
  obtain ⟨e, he, hc⟩ := findMsgIndexFrom_found h
  have he' : K.genericErrMsgs[(findGenericMsgIndex K genericMsg).toNat]? = some e := by
    simpa [findGenericMsgIndex] using he
  simp only [isUserMsg, h, decide_True, Bool.true_and, he', decide_eq_true_eq, strcmp_eq_iff]
  rw [strcmp_eq_iff] at hc
  rw [hc]

/-- The template for a specific key: its long form when the key is in the table, else the
key itself. -/
def specificFmt (specificMsg : CStr) : CStr :=
  let j := findSpecificMsgIndex K specificMsg
  if 0 ≤ j then ((K.specificErrMsgs[j.toNat]?).map (·.longName)).getD specificMsg
  else specificMsg

/-- The slot's `msg` array as `memset` leaves it. -/
def zeroMsgArray : List Char := List.replicate (mpirMaxErrorLine + 1) '\x00'

/-- The C string of `ring_msg` after a write into the zeroed array and
`ring_msg[MPIR_MAX_ERROR_LINE] = '\0'`. -/
def ringMsgOf : Except Fault (List Char) → CStr
  | .ok buf => CStr.ofChars (buf.take mpirMaxErrorLine)
  | .error _ => ∅

/-- `user_error_code` and `user_ring_msg` of a `**user` message: `va_arg` of the first
argument, formatted by the specific template (`snprintf` into 257 bytes). -/
def userCode (useUser : Bool) (specificMsg : Option CStr) (args : List VaArg) : CInt × CStr :=
  match useUser, specificMsg with
  | true, some sm =>
    let u := (vaArgInt args).1
    (u, (K.formatInt (specificFmt K sm) u).take mpirMaxErrorLine)
  | _, _ => (BitVec.ofInt 32 (-1), ∅)

/-- The text written into `ring_msg`: the rendered specific template, the user message, the
generic long message, or the generic key itself. -/
def createRingMsg (genericMsg : CStr) (genericIdx : Int) (specificMsg : Option CStr)
    (useUser : Bool) (args : List VaArg) : CStr :=
  match specificMsg with
  | some sm =>
    if !useUser then
      ringMsgOf (vsnprintfMpi K zeroMsgArray 0 (BitVec.ofNat 64 mpirMaxErrorLine)
        (specificFmt K sm) args)
    else
      ringMsgOf ((mplStrncpy zeroMsgArray 0 (userCode K useUser specificMsg args).2
        mpirMaxErrorLine).map Prod.fst)
  | none =>
    if 0 ≤ genericIdx then
      ringMsgOf ((mplStrncpy zeroMsgArray 0
        ((K.genericErrMsgs[genericIdx.toNat]?).map (·.longName) |>.getD ∅)
        mpirMaxErrorLine).map Prod.fst)
    else ringMsgOf ((mplStrncpy zeroMsgArray 0 genericMsg mpirMaxErrorLine).map Prod.fst)

/-- `snprintf(location, MAX_LOCATION_LEN, "%s(%d)", fcname, line)`. -/
def createLocation (fcname : Option CStr) (line : Int) : CStr :=
  match fcname with
  | some f => (f ++ "(" ++ decimal line ++ ")").take (maxLocationLen - 1)
  | none => ∅

/-- The user code the new slot ends with: its own `**user` value, else the one the slot of
`lastcode` carries, looked up in `s1`, the ring with the new slot already written. -/
def carryUserCode (s1 : Ring) (lastcode : CInt) (useUser : Bool) (userErrorCode : CInt) :
    Bool × CInt :=
  if useUser then (true, userErrorCode)
  else if lastcode ≠ mpiSuccess then
    match s1.link? lastcode with
    | some j =>
      if (s1.errorRing j).useUserErrorCode then (true, (s1.errorRing j).userErrorCode)
      else (false, 0)
    | none => (false, 0)
  else (false, 0)

/-- The code before its slot fields: the class and the generic index plus one. -/
def genericCode (errorClass : CInt) (genericIdx : Int) : CInt :=
  if 0 ≤ genericIdx then errorClass ||| (BitVec.ofInt 32 (genericIdx + 1) <<< errorGenericShift)
  else errorClass &&& ~~~errorGenericMask

/-! ## The routine -/

/-- `ring_msg`: the text a create stores, which depends on the keys and arguments only. -/
def createMsg (genericMsg : CStr) (specificMsg : Option CStr) (args : List VaArg) : CStr :=
  let genericIdx := findGenericMsgIndex K genericMsg
  createRingMsg K genericMsg genericIdx specificMsg (isUserMsg K genericIdx) args

/-- The sequence number `ErrcodeCreateID` derives from `ring_msg`. -/
def createSeq (errorClass : CInt) (genericMsg : CStr) (specificMsg : Option CStr)
    (args : List VaArg) : Int :=
  (errcodeCreateID errorClass (findGenericMsgIndex K genericMsg)
    (createMsg K genericMsg specificMsg args)).2

/-- The slot a create writes at the cursor of `s`, for a checked `lastcode` and the effective
class. -/
def createEntry (s : Ring) (lastcode errorClass : CInt) (fcname : Option CStr) (line : Int)
    (genericMsg : CStr) (specificMsg : Option CStr) (args : List VaArg) : ErrMsg :=
  let genericIdx := findGenericMsgIndex K genericMsg
  let useUser := isUserMsg K genericIdx
  let ringMsg := createMsg K genericMsg specificMsg args
  let entry : ErrMsg :=
    { ErrMsg.zero with
      id := (errcodeCreateID errorClass genericIdx ringMsg).1, msg := ringMsg,
      prevError := lastcode, location := createLocation fcname line }
  let user := carryUserCode (s.push entry) lastcode useUser
    (userCode K useUser specificMsg args).1
  { entry with useUserErrorCode := user.1, userErrorCode := user.2 }

/-- The code a create returns, for a checked `lastcode` and the effective class. -/
def createCode (s : Ring) (lastcode errorClass : CInt) (fatal : Bool) (genericMsg : CStr)
    (specificMsg : Option CStr) (args : List VaArg) : CInt :=
  let genericIdx := findGenericMsgIndex K genericMsg
  let ringSeq := createSeq K errorClass genericMsg specificMsg args
  let errCode := genericCode errorClass genericIdx |||
    (BitVec.ofNat 32 s.errorRingLoc <<< errorSpecificIndexShift) |||
    (BitVec.ofInt 32 ringSeq <<< errorSpecificSeqShift)
  if fatal || mpirErrIsFatal lastcode then errCode ||| errorFatalMask else errCode

/-- `lastcode` after the validity check. -/
def checkedLastcode (s : Ring) (lastcode : CInt) : CInt :=
  if lastcode ≠ mpiSuccess ∧ checkErrcodeIsValid K s lastcode ≠ 0 then mpiSuccess else lastcode

/-- `MPIR_Err_create_code_valist(lastcode, fatal, fcname, line, error_class, generic_msg,
specific_msg, Argp)`: the new code and the ring after it. -/
def mpirErrCreateCodeValist (s : Ring) (lastcode : CInt) (fatal : Bool) (fcname : Option CStr)
    (line : Int) (errorClass : CInt) (genericMsg : CStr) (specificMsg : Option CStr)
    (args : List VaArg) : CInt × Ring :=
  let lastcode := checkedLastcode K s lastcode
  let errorClass := effectiveClass K lastcode errorClass
  if errorClass = BitVec.ofNat 32 K.mpiErrInStatus then (BitVec.ofNat 32 K.mpiErrInStatus, s)
  else
    (createCode K s lastcode errorClass fatal genericMsg specificMsg args,
     s.push (createEntry K s lastcode errorClass fcname line genericMsg specificMsg args))

/-! ## The two outcomes -/

section Outcomes

variable {s : Ring} {lastcode errorClass : CInt} {fatal : Bool} {fcname : Option CStr}
  {line : Int} {genericMsg : CStr} {specificMsg : Option CStr} {args : List VaArg}

theorem checkedLastcode_of_valid (h : checkErrcodeIsValid K s lastcode = 0) :
    checkedLastcode K s lastcode = lastcode := by
  simp [checkedLastcode, h]

@[simp] theorem checkedLastcode_success (s : Ring) :
    checkedLastcode K s mpiSuccess = mpiSuccess := by
  simp [checkedLastcode]

/-- A class that is not `MPI_ERR_IN_STATUS` after the `MPI_ERR_OTHER` rule writes the slot at
the cursor. -/
theorem mpirErrCreateCodeValist_of_ne
    (h : effectiveClass K (checkedLastcode K s lastcode) errorClass ≠
      BitVec.ofNat 32 K.mpiErrInStatus) :
    mpirErrCreateCodeValist K s lastcode fatal fcname line errorClass genericMsg specificMsg args =
      (createCode K s (checkedLastcode K s lastcode)
          (effectiveClass K (checkedLastcode K s lastcode) errorClass) fatal genericMsg
          specificMsg args,
        s.push (createEntry K s (checkedLastcode K s lastcode)
          (effectiveClass K (checkedLastcode K s lastcode) errorClass) fcname line genericMsg
          specificMsg args)) :=
  if_neg h

/-- A create either leaves the ring as it was (`MPI_ERR_IN_STATUS`) or writes one slot at the
cursor. -/
theorem mpirErrCreateCodeValist_ring (s : Ring) (lastcode : CInt) (fatal : Bool)
    (fcname : Option CStr) (line : Int) (errorClass : CInt) (genericMsg : CStr)
    (specificMsg : Option CStr) (args : List VaArg) :
    (mpirErrCreateCodeValist K s lastcode fatal fcname line errorClass genericMsg specificMsg
      args).2 = s ∨
    ∃ e, (mpirErrCreateCodeValist K s lastcode fatal fcname line errorClass genericMsg
      specificMsg args).2 = s.push e := by
  by_cases h : effectiveClass K (checkedLastcode K s lastcode) errorClass =
      BitVec.ofNat 32 K.mpiErrInStatus
  · exact .inl (by simp only [mpirErrCreateCodeValist, h, if_true])
  · exact .inr ⟨_, by rw [mpirErrCreateCodeValist_of_ne K h]⟩

/-- The effective class of a class inside the class field stays inside it. -/
theorem effectiveClass_le (h : isValidErrorClass K errorClass = true) :
    (effectiveClass K lastcode errorClass).toNat ≤ K.mpichErrLastMpix := by
  have := K.other_le; have := K.lastClass_lt; have := K.firstMpix_lt
  have := isValidErrorClass_le K h
  unfold effectiveClass
  split
  · split
    · rename_i h'; rw [toInt_errorGetClass] at h'; simp only [toNat_errorGetClass]; omega
    · simp only [BitVec.toNat_ofNat]; omega
  · exact this

theorem effectiveClass_lt (h : errorClass.toNat < 128) :
    (effectiveClass K lastcode errorClass).toNat < 128 := by
  have := K.other_le; have := K.lastClass_lt; have := K.firstMpix_lt; have := K.lastMpix_lt
  unfold effectiveClass
  split
  · split
    · simp only [toNat_errorGetClass]; omega
    · simp only [BitVec.toNat_ofNat]; omega
  · exact h

end Outcomes

/-! ## The checksum of an ASCII text -/

theorem toNat_charToUInt {c : Char} (h : c.toNat < 128) : (charToUInt c).toNat = c.toNat := by
  have hmsb : (BitVec.ofNat 8 c.toNat).msb = false := by
    simp only [BitVec.msb_eq_decide, BitVec.toNat_ofNat, decide_eq_false_iff_not]; omega
  rw [charToUInt, BitVec.signExtend_eq_not_setWidth_not_of_msb_false hmsb, BitVec.toNat_setWidth,
    BitVec.toNat_ofNat]
  omega

theorem toNat_foldl_charToUInt_le (msg : List Char) (h : ∀ c ∈ msg, c.toNat < 128) (acc : CInt)
    (hacc : acc.toNat + 127 * msg.length < 2 ^ 32) :
    (msg.foldl (fun a c => a + charToUInt c) acc).toNat ≤ acc.toNat + 127 * msg.length := by
  induction msg generalizing acc with
  | nil => simp
  | cons c cs ih =>
    have hc := h c (List.mem_cons_self _ _)
    simp only [List.length_cons] at hacc
    have hsum : (acc + charToUInt c).toNat = acc.toNat + c.toNat := by
      rw [BitVec.toNat_add, toNat_charToUInt hc]; omega
    have := ih (fun d hd => h d (List.mem_cons_of_mem _ hd)) (acc + charToUInt c) (by omega)
    simp only [List.foldl_cons, List.length_cons, hsum] at this ⊢
    omega

theorem ringMsgOf_length_le (r : Except Fault (List Char)) :
    (ringMsgOf r).length ≤ mpirMaxErrorLine := by
  cases r with
  | error => simp [ringMsgOf]
  | ok buf =>
    simp only [ringMsgOf, CStr.ofChars, CStr.length_eq]
    exact (List.takeWhile_prefix _).length_le.trans (List.length_take_le _ _)

theorem createMsg_length_le (genericMsg : CStr) (specificMsg : Option CStr) (args : List VaArg) :
    (createMsg K genericMsg specificMsg args).length ≤ mpirMaxErrorLine := by
  simp only [createMsg, createRingMsg]
  split
  · split <;> exact ringMsgOf_length_le _
  · split <;> exact ringMsgOf_length_le _

/-- The text a create stores is ASCII. -/
def IsAscii (genericMsg : CStr) (specificMsg : Option CStr) (args : List VaArg) : Prop :=
  ∀ c ∈ (createMsg K genericMsg specificMsg args).chars, c.toNat < 128

/-- An ASCII text of at most `MPIR_MAX_ERROR_LINE` bytes sums to less than `2^31`, so its
sequence number is a field value. -/
theorem createSeq_of_ascii {errorClass genericMsg : _} {specificMsg : Option CStr}
    {args : List VaArg} (ha : IsAscii K genericMsg specificMsg args) :
    0 ≤ createSeq K errorClass genericMsg specificMsg args ∧
      createSeq K errorClass genericMsg specificMsg args < 16 := by
  have hl := createMsg_length_le K genericMsg specificMsg args
  simp only [CStr.length_eq, mpirMaxErrorLine] at hl
  have hs : (ringSeqSum (createMsg K genericMsg specificMsg args).chars).toNat ≤
      127 * (createMsg K genericMsg specificMsg args).chars.length := by
    simpa using toNat_foldl_charToUInt_le _ ha (0 : CInt) (by simp; omega)
  have hpos : 0 ≤ (ringSeqSum (createMsg K genericMsg specificMsg args).chars).toInt := by
    rw [BitVec.toInt_eq_toNat_cond, if_pos (by omega)]; omega
  exact ⟨Int.tmod_nonneg _ hpos, Int.tmod_lt_of_pos _ (by decide)⟩

/-! ## Reading the code back -/

/-- The generic field of a new code: the generic index plus one, `0` for an unknown key. -/
def genericField (genericMsg : CStr) : Nat := (findGenericMsgIndex K genericMsg + 1).toNat

theorem findGenericMsgIndex_range (genericMsg : CStr) :
    -1 ≤ findGenericMsgIndex K genericMsg ∧
      findGenericMsgIndex K genericMsg < K.genericErrMsgs.length := by
  rcases findMsgIndexFrom_range genericMsg 0 K.genericErrMsgs with h | h <;>
    simp only [findGenericMsgIndex, h] <;> omega

theorem genericField_lt (genericMsg : CStr) : genericField K genericMsg < 2048 := by
  have := findGenericMsgIndex_range K genericMsg
  have := K.generic_fits
  simp only [genericField]; omega

theorem toNat_ofInt_of_lt {n : Int} (h0 : 0 ≤ n) (h : n < 2 ^ 32) :
    (BitVec.ofInt 32 n).toNat = n.toNat := by
  rw [BitVec.toNat_ofInt, Int.emod_eq_of_lt h0 (by simpa using h)]

theorem toNat_genericCode {errorClass : CInt} (hc : errorClass.toNat < 128) (genericMsg : CStr) :
    (genericCode errorClass (findGenericMsgIndex K genericMsg)).toNat =
      errorClass.toNat + 256 * genericField K genericMsg := by
  have hr := findGenericMsgIndex_range K genericMsg
  have hf := genericField_lt K genericMsg
  simp only [genericField] at hf ⊢
  unfold genericCode
  split
  · rw [toNat_or_shiftLeft (by simp only [errorGenericShift]; omega)
      (by rw [toNat_ofInt_of_lt (by omega) (by omega)]; simp only [errorGenericShift]; omega),
      toNat_ofInt_of_lt (by omega) (by omega)]
    rfl
  · have e : errorClass &&& errorClassMask = errorClass :=
      BitVec.eq_of_toNat_eq (by rw [toNat_and_errorClassMask]; omega)
    have e' : errorClass &&& ~~~errorGenericMask = errorClass := by
      conv_lhs => rw [← e]
      rw [BitVec.and_assoc,
        (by decide : errorClassMask &&& ~~~errorGenericMask = errorClassMask), e]
    rw [e']
    omega

variable {K}
variable {s : Ring} {lastcode errorClass : CInt} {fatal : Bool} {fcname : Option CStr}
  {line : Int} {genericMsg : CStr} {specificMsg : Option CStr} {args : List VaArg}

/-- The layout of a code: a number built from fields below their widths reads each of them back,
and its dynamic bit is clear. -/
theorem layout_fields {x c f g l q : Nat} (hc : c < 128) (hf : f < 2) (hg : g < 2048)
    (hl : l < 128) (hq : q < 16) (hx : x = c + 128 * f + 256 * g + 524288 * l + 67108864 * q) :
    x % 128 = c ∧ x / 128 % 2 = f ∧ x / 256 % 2048 = g ∧ x / 524288 % 128 = l ∧
      x / 67108864 % 16 = q ∧ x / 1073741824 % 2 = 0 := by
  subst hx
  refine ⟨?_, ?_, ?_, ?_, ?_, ?_⟩ <;> omega

/-- The code as a number: class, fatal bit, generic field, the slot at the cursor and the
sequence number, each in its field. -/
theorem toNat_createCode (hc : errorClass.toNat < 128)
    (hq : 0 ≤ createSeq K errorClass genericMsg specificMsg args ∧
      createSeq K errorClass genericMsg specificMsg args < 16) :
    (createCode K s lastcode errorClass fatal genericMsg specificMsg args).toNat =
      errorClass.toNat + 128 * (fatal || mpirErrIsFatal lastcode).toNat +
        256 * genericField K genericMsg + 524288 * s.errorRingLoc +
        67108864 * (createSeq K errorClass genericMsg specificMsg args).toNat := by
  have hg := toNat_genericCode K hc genericMsg
  have hf := genericField_lt K genericMsg
  have hl := s.loc_le.trans_lt s.max_lt
  simp only [maxErrorRing, errorSpecificIndexSize] at hl
  have h₁ : (genericCode errorClass (findGenericMsgIndex K genericMsg) |||
      BitVec.ofNat 32 s.errorRingLoc <<< errorSpecificIndexShift).toNat =
      errorClass.toNat + 256 * genericField K genericMsg + 524288 * s.errorRingLoc := by
    rw [toNat_or_shiftLeft (by simp only [errorSpecificIndexShift]; omega)
      (by simp only [BitVec.toNat_ofNat, errorSpecificIndexShift]; omega), hg]
    simp only [BitVec.toNat_ofNat, errorSpecificIndexShift]; omega
  have h₂ := toNat_or_shiftLeft (y := BitVec.ofInt 32 (createSeq K errorClass genericMsg
    specificMsg args)) (k := errorSpecificSeqShift)
    (by rw [h₁]; simp only [errorSpecificSeqShift]; omega)
    (by rw [toNat_ofInt_of_lt hq.1 (by omega)]; simp only [errorSpecificSeqShift]; omega)
  rw [h₁, toNat_ofInt_of_lt hq.1 (by omega), show 2 ^ errorSpecificSeqShift = 67108864 from rfl]
    at h₂
  simp only [createCode]
  split
  · next h => rw [toNat_or_errorFatalMask (by rw [h₂]; omega), h₂, h, Bool.toNat_true]; omega
  · next h => rw [h₂, Bool.eq_false_iff.mpr h, Bool.toNat_false]; omega

@[simp] theorem createEntry_id :
    (createEntry K s lastcode errorClass fcname line genericMsg specificMsg args).id =
      (errcodeCreateID errorClass (findGenericMsgIndex K genericMsg)
        (createMsg K genericMsg specificMsg args)).1 := rfl

@[simp] theorem createEntry_prevError :
    (createEntry K s lastcode errorClass fcname line genericMsg specificMsg args).prevError =
      lastcode := rfl

/-- A `**user` create with a specific message stores the user code it was given. -/
theorem createEntry_user {sm : CStr} (hu : isUserMsg K (findGenericMsgIndex K genericMsg) = true) :
    (createEntry K s lastcode errorClass fcname line genericMsg (some sm) args).useUserErrorCode ∧
      (createEntry K s lastcode errorClass fcname line genericMsg (some sm)
        args).userErrorCode = (vaArgInt args).1 := by
  simp [createEntry, carryUserCode, userCode, hu]

/-- Any other create copies the user code of the slot `lastcode` links to. -/
theorem createEntry_user_of_link {j : Nat}
    (hu : isUserMsg K (findGenericMsgIndex K genericMsg) = false)
    (hz : lastcode ≠ mpiSuccess) (hl : s.link? lastcode = some j) (hj : j ≠ s.errorRingLoc) :
    (createEntry K s lastcode errorClass fcname line genericMsg specificMsg
        args).useUserErrorCode = (s.errorRing j).useUserErrorCode ∧
      ((s.errorRing j).useUserErrorCode →
        (createEntry K s lastcode errorClass fcname line genericMsg specificMsg
          args).userErrorCode = (s.errorRing j).userErrorCode) := by
  have hj' : ringIdxOf lastcode ≠ s.errorRingLoc := (link?_eq_some.mp hl).1 ▸ hj
  simp only [createEntry, carryUserCode, hu, hz, Bool.false_eq_true, if_false, ne_eq,
    not_false_eq_true, if_true, Ring.link?_push_of_ne hj' hl, Ring.push_errorRing, hj]
  cases (s.errorRing j).useUserErrorCode <;> simp

theorem toNat_createEntry_id (hc : errorClass.toNat < 128)
    (hq : 0 ≤ createSeq K errorClass genericMsg specificMsg args ∧
      createSeq K errorClass genericMsg specificMsg args < 16) :
    (createEntry K s lastcode errorClass fcname line genericMsg specificMsg args).id.toNat =
      errorClass.toNat + 256 * genericField K genericMsg +
        67108864 * (createSeq K errorClass genericMsg specificMsg args).toNat := by
  have hr := findGenericMsgIndex_range K genericMsg
  have hf := genericField_lt K genericMsg
  have hf' := hf
  simp only [genericField] at hf'
  have e : (createEntry K s lastcode errorClass fcname line genericMsg specificMsg args).id =
      (errorClass &&& errorClassMask |||
        BitVec.ofInt 32 (findGenericMsgIndex K genericMsg + 1) <<< errorGenericShift) |||
      BitVec.ofInt 32 (createSeq K errorClass genericMsg specificMsg args) <<<
        errorSpecificSeqShift := rfl
  have h₁ : (errorClass &&& errorClassMask |||
      BitVec.ofInt 32 (findGenericMsgIndex K genericMsg + 1) <<< errorGenericShift).toNat =
      errorClass.toNat + 256 * genericField K genericMsg := by
    rw [toNat_or_shiftLeft (by rw [toNat_and_errorClassMask]; simp only [errorGenericShift]; omega)
      (by rw [toNat_ofInt_of_lt (by omega) (by omega)]; simp only [errorGenericShift]; omega),
      toNat_and_errorClassMask, toNat_ofInt_of_lt (by omega) (by omega)]
    simp only [genericField, errorGenericShift]; omega
  have hs : (BitVec.ofInt 32 (createSeq K errorClass genericMsg specificMsg args)).toNat =
      (createSeq K errorClass genericMsg specificMsg args).toNat :=
    toNat_ofInt_of_lt hq.1 (by omega)
  rw [e, toNat_or_shiftLeft (by rw [h₁]; simp only [errorSpecificSeqShift]; omega)
    (by rw [hs]; simp only [errorSpecificSeqShift]; omega), h₁, hs]
  rfl

/-- The code names the slot at the cursor. -/
theorem ringIdxOf_createCode (hc : errorClass.toNat < 128)
    (hq : 0 ≤ createSeq K errorClass genericMsg specificMsg args ∧
      createSeq K errorClass genericMsg specificMsg args < 16) :
    ringIdxOf (createCode K s lastcode errorClass fatal genericMsg specificMsg args) =
      s.errorRingLoc :=
  (layout_fields hc (Bool.toNat_lt _) (genericField_lt K genericMsg) (s.loc_le.trans_lt s.max_lt)
    (by omega) (toNat_createCode hc hq)).2.2.2.1

theorem genericOf_createCode (hc : errorClass.toNat < 128)
    (hq : 0 ≤ createSeq K errorClass genericMsg specificMsg args ∧
      createSeq K errorClass genericMsg specificMsg args < 16) :
    genericOf (createCode K s lastcode errorClass fatal genericMsg specificMsg args) =
      genericField K genericMsg :=
  (layout_fields hc (Bool.toNat_lt _) (genericField_lt K genericMsg) (s.loc_le.trans_lt s.max_lt)
    (by omega) (toNat_createCode hc hq)).2.2.1

/-- The code has the class it was created with. -/
theorem errorGetClass_createCode (hc : errorClass.toNat < 128)
    (hq : 0 ≤ createSeq K errorClass genericMsg specificMsg args ∧
      createSeq K errorClass genericMsg specificMsg args < 16) :
    errorGetClass (createCode K s lastcode errorClass fatal genericMsg specificMsg args) =
      errorClass :=
  BitVec.eq_of_toNat_eq <| (toNat_errorGetClass _).trans
    (layout_fields hc (Bool.toNat_lt _) (genericField_lt K genericMsg)
      (s.loc_le.trans_lt s.max_lt) (by omega) (toNat_createCode hc hq)).1

/-- The code matches the id of the slot written with it. -/
theorem createCode_and_ringIdMask (hc : errorClass.toNat < 128)
    (hq : 0 ≤ createSeq K errorClass genericMsg specificMsg args ∧
      createSeq K errorClass genericMsg specificMsg args < 16) :
    createCode K s lastcode errorClass fatal genericMsg specificMsg args &&& ringIdMask =
      (createEntry K s lastcode errorClass fcname line genericMsg specificMsg args).id := by
  obtain ⟨hcls, -, hgen, -, hseq, -⟩ := layout_fields hc (Bool.toNat_lt _)
    (genericField_lt K genericMsg) (s.loc_le.trans_lt s.max_lt) (by omega) (toNat_createCode hc hq)
  apply BitVec.eq_of_toNat_eq
  rw [toNat_and_ringIdMask, toNat_createEntry_id hc hq, genericOf, seqOf, hcls, hgen, hseq]

/-- The code is fatal when `fatal` is set or `lastcode` is fatal, and never dynamic. -/
theorem mpirErrIsFatal_createCode (hc : errorClass.toNat < 128)
    (hq : 0 ≤ createSeq K errorClass genericMsg specificMsg args ∧
      createSeq K errorClass genericMsg specificMsg args < 16) :
    mpirErrIsFatal (createCode K s lastcode errorClass fatal genericMsg specificMsg args) =
      (fatal || mpirErrIsFatal lastcode) := by
  obtain ⟨-, hf, -, -, -, hd⟩ := layout_fields hc (Bool.toNat_lt _)
    (genericField_lt K genericMsg) (s.loc_le.trans_lt s.max_lt) (by omega) (toNat_createCode hc hq)
  rw [Bool.eq_iff_iff, mpirErrIsFatal_iff, hf, hd]
  cases fatal || mpirErrIsFatal lastcode <;> simp

end MpichErrhan
