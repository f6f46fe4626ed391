import MpichErrhan.Combine

/-!
# Runs of the error ring

A program changes the ring only by creating codes and combining them; reporting a code reads
the ring and leaves it as it was.  `Reachable` is the set of ring states a run reaches, with the
codes the run has been handed: each create starts from `MPI_SUCCESS` or from a code handed out
earlier, and each combine joins two such codes whose chains share no slot.

## Main results

* A create writes one slot at the cursor (`mpirErrCreateCodeValist_ring`), and a combine only
  rewrites `prev_error` fields of slots its walk reached (`mpirErrCombineCodes_prevsOnly`).  So
  in every reachable state the high-water mark is the cursor until the first wrap and the last
  slot after it (`Reachable.max_eq`), and no slot above it was ever written
  (`Reachable.above_max`).
* The chains are *not* free of cycles.  After `MAX_ERROR_RING` creates the cursor is back on the
  first slot; a create chained from the first code, with the same class, key and text, writes
  an entry with the same id whose `prev_error` is that code, and the walk from it never ends
  (`cycle_after_wrap`).
* A create whose text has a byte of `0x80` or above can get a negative sequence number; the
  code then has its dynamic bit set and fails `checkErrcodeIsValid` in the ring it was made in
  (`create_high_bytes_invalid`).
* A user code stored by a `**user` create is handed on along a chain of creates with ASCII
  texts, found keys and valid classes, through any other creates and combines, as long as fewer
  than `MAX_ERROR_RING` creates follow the first (`carryRun_checkForUserErrcode`).
-/

namespace MpichErrhan

/-! ## What a combine changes -/

/-- `e'` is `e` with at most its `prev_error` changed. -/
def ErrMsg.SamePrev (e e' : ErrMsg) : Prop :=
  e'.id = e.id ∧ e'.useUserErrorCode = e.useUserErrorCode ∧ e'.userErrorCode = e.userErrorCode ∧
    e'.location = e.location ∧ e'.msg = e.msg

/-- `s'` is `s` with some `prev_error` fields rewritten, none of a slot above the high-water
mark. -/
structure Ring.PrevsOnly (s s' : Ring) : Prop where
  loc_eq : s'.errorRingLoc = s.errorRingLoc
  max_eq : s'.maxErrorRingLoc = s.maxErrorRingLoc
  same : ∀ j, (s.errorRing j).SamePrev (s'.errorRing j)
  above : ∀ j, s.maxErrorRingLoc < j → s'.errorRing j = s.errorRing j

namespace Ring.PrevsOnly

theorem refl (s : Ring) : s.PrevsOnly s :=
  ⟨rfl, rfl, fun _ => ⟨rfl, rfl, rfl, rfl, rfl⟩, fun _ _ => rfl⟩

theorem trans {s₁ s₂ s₃ : Ring} (h₁ : s₁.PrevsOnly s₂) (h₂ : s₂.PrevsOnly s₃) :
    s₁.PrevsOnly s₃ := by
  refine ⟨h₂.loc_eq.trans h₁.loc_eq, h₂.max_eq.trans h₁.max_eq, fun j => ?_, fun j hj => ?_⟩
  · obtain ⟨a₁, b₁, c₁, d₁, e₁⟩ := h₁.same j
    obtain ⟨a₂, b₂, c₂, d₂, e₂⟩ := h₂.same j
    exact ⟨a₂.trans a₁, b₂.trans b₁, c₂.trans c₁, d₂.trans d₁, e₂.trans e₁⟩
  · rw [h₂.above j (h₁.max_eq ▸ hj), h₁.above j hj]

/-- The chain test reads ids and the high-water mark only. -/
theorem link?_eq {s s' : Ring} (h : s.PrevsOnly s') (c : CInt) : s'.link? c = s.link? c := by
  simp only [MpichErrhan.link?_eq, h.max_eq, (h.same _).1]

end Ring.PrevsOnly

variable (K : Config)

/-- A pass of the append loop at a slot the walk reached. -/
theorem combineStep_prevsOnly {s : Ring} {b cls : CInt} {i : Nat}
    (hi : i ≤ s.maxErrorRingLoc) : s.PrevsOnly (combineStep K b cls s i) := by
  have hset (c : CInt) : s.PrevsOnly (s.setPrev i c) :=
    ⟨rfl, rfl, fun j => by by_cases h : j = i <;> simp [ErrMsg.SamePrev, h],
      fun j hj => by rw [Ring.setPrev_errorRing, if_neg (by omega)]⟩
  dsimp only [combineStep]
  split
  · exact hset _
  · split
    · exact hset _
    · exact .refl s

theorem combineSpecificCodes_prevsOnly : ∀ {n : Nat} {s s' : Ring} {c b cls : CInt},
    combineSpecificCodes K n s c b cls = .ok s' → s.PrevsOnly s'
  | 0, _, _, _, _, _, h => by simp [combineSpecificCodes] at h
  | n + 1, s, s', c, b, cls, h => by
    simp only [combineSpecificCodes] at h
    split at h
    · cases h; exact .refl s
    · rename_i i hi
      obtain ⟨rfl, hmax, -⟩ := link?_eq_some.mp hi
      have hstep : s.PrevsOnly (combineStep K b cls s (ringIdxOf c)) :=
        combineStep_prevsOnly K hmax
      split at h
      · cases h; exact hstep
      · exact hstep.trans (combineSpecificCodes_prevsOnly h)

/-- A combine rewrites `prev_error` fields only. -/
theorem mpirErrCombineCodes_prevsOnly {n : Nat} {s s' : Ring} {a b r : CInt}
    (h : mpirErrCombineCodes K n s a b = .ok (r, s')) : s.PrevsOnly s' := by
  have hcomb := h
  unfold mpirErrCombineCodes at h
  by_cases ha : a = mpiSuccess
  · rw [if_pos ha] at h; cases h; exact .refl s
  by_cases hb : b = mpiSuccess
  · rw [if_neg ha, if_pos hb] at h; cases h; exact .refl s
  by_cases hda : a &&& errorDynMask ≠ 0
  · rw [if_neg ha, if_neg hb, if_pos hda] at h; cases h; exact .refl s
  by_cases hdb : b &&& errorDynMask ≠ 0
  · rw [if_neg ha, if_neg hb, if_neg hda, if_pos hdb] at h; cases h; exact .refl s
  exact combineSpecificCodes_prevsOnly K
    (mpirErrCombineCodes_ok K ha hb (not_not.mp hda) (not_not.mp hdb) hcomb).1

/-! ## Reachable states -/

/-- The ring states a run reaches, with the codes it has been handed out. -/
inductive Reachable : Ring → List CInt → Prop
  | init : Reachable Ring.init []
  | create {s : Ring} {codes : List CInt} (lastcode : CInt) (fatal : Bool)
      (fcname : Option CStr) (line : Int) (errorClass : CInt) (genericMsg : CStr)
      (specificMsg : Option CStr) (args : List VaArg) :
      Reachable s codes → lastcode = mpiSuccess ∨ lastcode ∈ codes →
      Reachable (mpirErrCreateCodeValist K s lastcode fatal fcname line errorClass genericMsg
          specificMsg args).2
        ((mpirErrCreateCodeValist K s lastcode fatal fcname line errorClass genericMsg
          specificMsg args).1 :: codes)
  | combine {s s' : Ring} {codes : List CInt} {a b r : CInt} (n : Nat) :
      Reachable s codes → a ∈ codes → b ∈ codes →
      (∀ esA esB tA tB, Chain s a esA tA → Chain s b esB tB → ∀ i ∈ esA, i ∉ esB) →
      mpirErrCombineCodes K n s a b = .ok (r, s') → Reachable s' (r :: codes)

variable {K}

/-- The high-water mark is the cursor until the cursor first wraps, and the last slot after. -/
theorem Reachable.max_eq {s : Ring} {codes : List CInt} (h : Reachable K s codes) :
    s.maxErrorRingLoc = s.errorRingLoc ∨ s.maxErrorRingLoc = maxErrorRing - 1 := by
  induction h with
  | init => exact .inl rfl
  | create lastcode fatal fcname line errorClass genericMsg specificMsg args _ _ ih =>
    rcases mpirErrCreateCodeValist_ring K _ lastcode fatal fcname line errorClass genericMsg
      specificMsg args with h | ⟨e, h⟩ <;> rw [h]
    · exact ih
    · have := (‹Ring›).max_lt
      simp only [Ring.push_maxErrorRingLoc, Ring.push_errorRingLoc, Ring.nextLoc_eq,
        maxErrorRing, errorSpecificIndexSize] at ih this ⊢
      omega
  | combine n _ _ _ _ hc ih =>
    have h := mpirErrCombineCodes_prevsOnly K hc
    rw [h.max_eq, h.loc_eq]; exact ih

/-- No slot above the high-water mark has ever been written. -/
theorem Reachable.above_max {s : Ring} {codes : List CInt} (h : Reachable K s codes) :
    ∀ j, s.maxErrorRingLoc < j → s.errorRing j = ErrMsg.zero := by
  induction h with
  | init => intro j _; rfl
  | create lastcode fatal fcname line errorClass genericMsg specificMsg args _ _ ih =>
    rcases mpirErrCreateCodeValist_ring K _ lastcode fatal fcname line errorClass genericMsg
      specificMsg args with h | ⟨e, h⟩ <;> rw [h]
    · exact ih
    · intro j hj
      have := (‹Ring›).loc_le
      simp only [Ring.push_maxErrorRingLoc, Ring.push_errorRing] at hj ⊢
      rw [if_neg (by omega)]
      exact ih j (by omega)
  | combine n _ _ _ _ hc ih =>
    have h := mpirErrCombineCodes_prevsOnly K hc
    intro j hj
    rw [h.max_eq] at hj
    rw [h.above j hj, ih j hj]

/-! ## A cycle after the cursor wraps -/

/-- An `MPIR_ERR_POP`-style create in the sample configuration: class 1, key `**fail`, no
specific message. -/
def popCreate (s : Ring) (lastcode : CInt) : CInt × Ring :=
  mpirErrCreateCodeValist Config.sample s lastcode false (some "f") 1 1 "**fail" none []

/-- The ring after `n` such creates from `MPI_SUCCESS`, from the zeroed ring on. -/
def popRing : Nat → Ring
  | 0 => Ring.init
  | n + 1 => (popCreate (popRing n) mpiSuccess).2

theorem popCreate_success (s : Ring) :
    (popCreate s mpiSuccess).2 =
      s.push (createEntry Config.sample s mpiSuccess 1 (some "f") 1 "**fail" none []) := by
  have h : effectiveClass Config.sample mpiSuccess 1 = 1 := by decide
  rw [popCreate, mpirErrCreateCodeValist_of_ne _ (by rw [checkedLastcode_success, h]; decide),
    checkedLastcode_success, h]

/-- Until the cursor is back on slot 0, the slot written by the first create stays. -/
theorem popRing_slot_zero (n : Nat) (hn : n < maxErrorRing) :
    (popRing (n + 1)).errorRing 0 = (popRing 1).errorRing 0 ∧
      (popRing (n + 1)).errorRingLoc = (n + 1) % maxErrorRing := by
  induction n with
  | zero => exact ⟨rfl, rfl⟩
  | succ n ih =>
    obtain ⟨h0, hloc⟩ := ih (by omega)
    simp only [maxErrorRing, errorSpecificIndexSize] at hn hloc ⊢
    rw [popRing, popCreate_success, Ring.push_errorRing, Ring.push_errorRingLoc, Ring.nextLoc_eq,
      hloc, if_neg (by omega)]
    exact ⟨h0, by simp only [maxErrorRing, errorSpecificIndexSize]; omega⟩

theorem popRing_reachable (n : Nat) :
    ∃ codes, Reachable Config.sample (popRing (n + 1)) codes ∧
      (popCreate Ring.init mpiSuccess).1 ∈ codes := by
  induction n with
  | zero => exact ⟨_, .create _ _ _ _ _ _ _ _ .init (.inl rfl), List.mem_singleton_self _⟩
  | succ n ih =>
    obtain ⟨codes, h, hm⟩ := ih
    exact ⟨_, .create _ _ _ _ _ _ _ _ h (.inl rfl), List.mem_cons_of_mem _ hm⟩

/-- The first code of the run. -/
def wrapCode : CInt := (popCreate Ring.init mpiSuccess).1

set_option maxRecDepth 8000 in
/-- Right after its create, the walk from `wrapCode` visits its slot and stops at
`MPI_SUCCESS`. -/
theorem wrapCode_chain : Chain (popRing 1) wrapCode [0] mpiSuccess := by
  have hp : ((popRing 1).errorRing 0).prevError = mpiSuccess := by decide
  exact .step (by decide) (hp ▸ .stop (link?_success _))

/-- A `**fail` create in `MPI_Send` at line 12 with the message `send failed`, chained from
`wrapCode`: its slot's location `MPI_Send(12)` is longer than the `f(1)` of `wrapCode`'s. -/
def sendCreate : CInt × Ring :=
  mpirErrCreateCodeValist Config.sample (popRing 1) wrapCode false (some "MPI_Send") 12 1 "**fail"
    (some "send failed") []

theorem sendCreate_reachable : Reachable Config.sample sendCreate.2 [sendCreate.1, wrapCode] :=
  .create wrapCode false (some "MPI_Send") 12 1 "**fail" (some "send failed") []
    (.create mpiSuccess false (some "f") 1 1 "**fail" none [] .init (.inl rfl))
    (.inr (List.mem_singleton_self _))

set_option maxRecDepth 8000 in
/-- The walk from the `MPI_Send` code visits its slot, then `wrapCode`'s, and stops at
`MPI_SUCCESS`. -/
theorem sendCreate_chain : Chain sendCreate.2 sendCreate.1 [1, 0] mpiSuccess := by
  have h0 : (sendCreate.2.errorRing 0).prevError = mpiSuccess := by decide
  have h1 : (sendCreate.2.errorRing 1).prevError = wrapCode := by decide
  have hc₀ : Chain sendCreate.2 wrapCode [0] mpiSuccess :=
    .step (by decide) (by rw [h0]; exact .stop (link?_success _))
  exact .step (by decide) (by rw [h1]; exact hc₀)

set_option maxRecDepth 8000 in
/-- The `MPI_Send` code is neither dynamic nor a bare class. -/
theorem sendCreate_code_fields :
    sendCreate.1 &&& errorDynMask = 0 ∧ sendCreate.1 &&& errorClassMask ≠ sendCreate.1 := by
  decide

/-- The ring after `MAX_ERROR_RING` creates from `MPI_SUCCESS` and one from `wrapCode`. -/
def wrapRing : Ring := (popCreate (popRing maxErrorRing) wrapCode).2

set_option maxRecDepth 8000 in
/-- `MAX_ERROR_RING` `**fail` creates from `MPI_SUCCESS` bring the cursor back to slot 0, where
the first of them, `wrapCode`, still validates.  One more create, chained from `wrapCode`,
computes the same id and writes it to slot 0 with `prev_error = wrapCode`: the walk from
`wrapCode` comes back to it and never ends, and every fuel runs out. -/
theorem cycle_after_wrap :
    (∃ codes, Reachable Config.sample wrapRing codes) ∧ wrapRing.link? wrapCode = some 0 ∧
      (wrapRing.errorRing 0).prevError = wrapCode ∧ (¬ ∃ es t, Chain wrapRing wrapCode es t) ∧
      ∀ n r, wrapRing.walk n wrapCode ≠ .ok r := by
  obtain ⟨h0, hloc⟩ := popRing_slot_zero (maxErrorRing - 1) (by decide)
  rw [show maxErrorRing - 1 + 1 = maxErrorRing from rfl] at h0 hloc
  rw [Nat.mod_self] at hloc
  have hidx : ringIdxOf wrapCode = 0 := by decide
  have hvalid : checkErrcodeIsValid Config.sample (popRing maxErrorRing) wrapCode = 0 := by
    simp only [checkErrcodeIsValid, convertErrcodeToIndexes_ringIdx,
      convertErrcodeToIndexes_ringId, convertErrcodeToIndexes_genericIdx, hidx]
    rw [h0, if_neg (by decide), if_neg (by simp [maxErrorRing, errorSpecificIndexSize])]
    decide
  have hcls : effectiveClass Config.sample wrapCode 1 = 1 := by decide
  have hs : wrapRing = (popRing maxErrorRing).push
      (createEntry Config.sample (popRing maxErrorRing) wrapCode 1 (some "f") 1 "**fail" none
        []) := by
    rw [wrapRing, popCreate, mpirErrCreateCodeValist_of_ne _
      (by rw [checkedLastcode_of_valid _ hvalid, hcls]; decide),
      checkedLastcode_of_valid _ hvalid, hcls]
  have hslot : wrapRing.errorRing 0 =
      createEntry Config.sample (popRing maxErrorRing) wrapCode 1 (some "f") 1 "**fail" none
        [] := by
    rw [hs, Ring.push_errorRing, if_pos hloc.symm]
  have hlink : wrapRing.link? wrapCode = some 0 :=
    link?_eq_some.mpr ⟨hidx.symm, hidx ▸ Nat.zero_le _, by decide,
      by rw [hidx, hslot, createEntry_id]; decide⟩
  have hprev : (wrapRing.errorRing 0).prevError = wrapCode := by rw [hslot, createEntry_prevError]
  have hnot : ¬ ∃ es t, Chain wrapRing wrapCode es t := fun ⟨_, _, h⟩ =>
    Chain.not_of_self_link hlink hprev h
  obtain ⟨codes, hr, hm⟩ := popRing_reachable (maxErrorRing - 1)
  exact ⟨⟨_, .create _ _ _ _ _ _ _ _ hr (.inr hm)⟩, hlink, hprev, hnot,
    fun n r h => hnot ⟨_, _, Ring.chain_of_walk h⟩⟩

/-! ## High bytes in the text -/

/-- The argument list of a `%s` message of the UTF-8 `é`, the bytes `0xc3 0xa9`. -/
def highByteArgs : List VaArg := [VaArg.str (some (CStr.ofChars ['\xc3', '\xa9']))]

/-- A `**fail` create of class 1 from the zeroed ring with that message. -/
def highByteCreate : CInt × Ring :=
  mpirErrCreateCodeValist Config.sample Ring.init mpiSuccess false (some "f") 1 1 "**fail"
    (some "%s") highByteArgs

set_option maxRecDepth 8000 in
/-- As signed `char`s the bytes of `é` sum to a negative number, its remainder mod 16 is
negative, and shifted into the sequence field it sets the dynamic and sign bits: the code fails
`checkErrcodeIsValid` in the ring it was made in. -/
theorem create_high_bytes_invalid :
    createSeq Config.sample 1 "**fail" (some "%s") highByteArgs < 0 ∧
      highByteCreate.1 &&& errorDynMask ≠ 0 ∧
      checkErrcodeIsValid Config.sample highByteCreate.2 highByteCreate.1 ≠ 0 := by
  decide

/-! ## Handing on a user code -/

variable (K)

/-- The slot of `a` carries the user code `u`, and `a` names it and passes every check. -/
structure Carries (s : Ring) (a u : CInt) : Prop where
  link : s.link? a = some (ringIdxOf a)
  useUser : (s.errorRing (ringIdxOf a)).useUserErrorCode = true
  user : (s.errorRing (ringIdxOf a)).userErrorCode = u
  generic_le : genericOf a ≤ K.genericErrMsgs.length
  class_le : (errorGetClass a).toNat ≤ K.mpichErrLastMpix

namespace Carries

variable {K} {s : Ring} {a u : CInt}

theorem ne_success (h : Carries K s a u) : a ≠ mpiSuccess := by
  rintro rfl
  have := h.link
  rw [link?_success] at this
  cases this

/-- `checkForUserErrcode` returns the carried code. -/
theorem checkForUserErrcode (h : Carries K s a u) : checkForUserErrcode s a = u := by
  obtain ⟨-, hmax, hg, hid⟩ := link?_eq_some.mp h.link
  have hbad : (convertErrcodeToIndexes s a).2 = false := by simp; omega
  simp only [MpichErrhan.checkForUserErrcode, h.ne_success, if_false]
  rw [show convertErrcodeToIndexes s a = ((convertErrcodeToIndexes s a).1, false) from
    Prod.ext rfl hbad]
  simp only [Bool.false_eq_true, if_false, convertErrcodeToIndexes_genericIdx,
    convertErrcodeToIndexes_ringIdx, convertErrcodeToIndexes_ringId, hid, h.useUser, h.user,
    and_true]
  rw [if_pos (by omega)]

theorem valid (h : Carries K s a u) : checkErrcodeIsValid K s a = 0 := by
  obtain ⟨-, hmax, hg, hid⟩ := link?_eq_some.mp h.link
  have := h.generic_le
  unfold checkErrcodeIsValid
  split
  · rfl
  · simp only [convertErrcodeToIndexes_ringIdx, convertErrcodeToIndexes_ringId,
      convertErrcodeToIndexes_genericIdx, hid, ne_eq, not_true_eq_false, if_false]
    rw [if_neg (by have := ringIdxOf_lt a; omega), if_neg (by omega)]

/-- A write elsewhere keeps what a slot carries. -/
theorem push (h : Carries K s a u) (e : ErrMsg) (hne : ringIdxOf a ≠ s.errorRingLoc) :
    Carries K (s.push e) a u where
  link := Ring.link?_push_of_ne hne h.link
  useUser := by simp only [Ring.push_errorRing, hne, if_false, h.useUser]
  user := by simp only [Ring.push_errorRing, hne, if_false, h.user]
  generic_le := h.generic_le
  class_le := h.class_le

theorem prevsOnly (h : Carries K s a u) {s' : Ring} (hs : s.PrevsOnly s') : Carries K s' a u where
  link := (hs.link?_eq a).trans h.link
  useUser := (hs.same _).2.1.trans h.useUser
  user := (hs.same _).2.2.1.trans h.user
  generic_le := h.generic_le
  class_le := h.class_le

end Carries

section Create

variable {s : Ring} {lastcode errorClass : CInt} {fatal : Bool} {fcname : Option CStr}
  {line : Int} {genericMsg : CStr} {specificMsg : Option CStr} {args : List VaArg}

/-- A create of a valid class with a found key and an ASCII text, whose slot ends with the user
code `u`, returns a code that carries `u` from the slot at the cursor. -/
theorem carries_create {u : CInt} (hcls : isValidErrorClass K errorClass)
    (hin : effectiveClass K (checkedLastcode K s lastcode) errorClass ≠
      BitVec.ofNat 32 K.mpiErrInStatus)
    (hfound : 0 ≤ findGenericMsgIndex K genericMsg) (hasc : IsAscii K genericMsg specificMsg args)
    (huser : (createEntry K s (checkedLastcode K s lastcode)
        (effectiveClass K (checkedLastcode K s lastcode) errorClass) fcname line genericMsg
        specificMsg args).useUserErrorCode = true ∧
      (createEntry K s (checkedLastcode K s lastcode)
        (effectiveClass K (checkedLastcode K s lastcode) errorClass) fcname line genericMsg
        specificMsg args).userErrorCode = u) :
    Carries K (mpirErrCreateCodeValist K s lastcode fatal fcname line errorClass genericMsg
        specificMsg args).2
      (mpirErrCreateCodeValist K s lastcode fatal fcname line errorClass genericMsg specificMsg
        args).1 u ∧
    ringIdxOf (mpirErrCreateCodeValist K s lastcode fatal fcname line errorClass genericMsg
      specificMsg args).1 = s.errorRingLoc := by
  rw [mpirErrCreateCodeValist_of_ne K hin]
  set cls := effectiveClass K (checkedLastcode K s lastcode) errorClass
  set e := createEntry K s (checkedLastcode K s lastcode) cls fcname line genericMsg specificMsg
    args
  set c := createCode K s (checkedLastcode K s lastcode) cls fatal genericMsg specificMsg args
  have hc : cls.toNat < 128 := effectiveClass_lt K (isValidErrorClass_lt K hcls)
  have hq : 0 ≤ createSeq K cls genericMsg specificMsg args ∧
      createSeq K cls genericMsg specificMsg args < 16 := createSeq_of_ascii K hasc
  have hidx : ringIdxOf c = s.errorRingLoc := ringIdxOf_createCode hc hq
  have hgen : genericOf c = genericField K genericMsg := genericOf_createCode hc hq
  have hr := findGenericMsgIndex_range K genericMsg
  have hslot : (s.push e).errorRing s.errorRingLoc = e := by simp
  refine ⟨⟨?_, ?_, ?_, ?_, ?_⟩, hidx⟩
  · refine link?_eq_some.mpr ⟨rfl, ?_, ?_, ?_⟩
    · rw [hidx, Ring.push_maxErrorRingLoc]; have := s.loc_le; omega
    · rw [hgen, genericField]; omega
    · rw [hidx, hslot]; exact (createCode_and_ringIdMask hc hq).symm
  · rw [hidx, hslot]; exact huser.1
  · rw [hidx, hslot]; exact huser.2
  · rw [hgen, genericField]; omega
  · rw [errorGetClass_createCode hc hq]; exact effectiveClass_le K hcls

/-- A create chained from a code that carries `u`, whose slot is not the cursor, with a found
key other than `**user`, carries `u` on. -/
theorem Carries.create_chained {a u : CInt} (h : Carries K s a u)
    (hne : ringIdxOf a ≠ s.errorRingLoc) (fatal : Bool) (fcname : Option CStr) (line : Int)
    (hfound : 0 ≤ findGenericMsgIndex K genericMsg)
    (hnu : strcmp genericMsg.chars ("**user" : CStr).chars ≠ .eq)
    (hcls : isValidErrorClass K errorClass)
    (hin : effectiveClass K a errorClass ≠ BitVec.ofNat 32 K.mpiErrInStatus)
    (hasc : IsAscii K genericMsg specificMsg args) :
    Carries K (mpirErrCreateCodeValist K s a fatal fcname line errorClass genericMsg specificMsg
        args).2
      (mpirErrCreateCodeValist K s a fatal fcname line errorClass genericMsg specificMsg args).1 u ∧
    ringIdxOf (mpirErrCreateCodeValist K s a fatal fcname line errorClass genericMsg specificMsg
      args).1 = s.errorRingLoc := by
  have hchk := checkedLastcode_of_valid K h.valid
  have hu : isUserMsg K (findGenericMsgIndex K genericMsg) = false :=
    Bool.eq_false_iff.mpr fun h => hnu ((isUserMsg_found K hfound).mp h)
  obtain ⟨h₁, h₂⟩ : (createEntry K s a (effectiveClass K a errorClass) fcname line genericMsg
      specificMsg args).useUserErrorCode = _ ∧ _ :=
    createEntry_user_of_link hu h.ne_success h.link hne
  exact carries_create K hcls (by rw [hchk]; exact hin) hfound hasc
    (by rw [hchk, h₁, h.useUser]; exact ⟨rfl, (h₂ h.useUser).trans h.user⟩)

/-- A `**user` create with a specific message carries the user code it was given. -/
theorem carries_create_user {sm : CStr} {u : CInt} {rest : List VaArg} (fatal : Bool)
    (fcname : Option CStr) (line : Int) (hcls : isValidErrorClass K errorClass)
    (hin : effectiveClass K (checkedLastcode K s lastcode) errorClass ≠
      BitVec.ofNat 32 K.mpiErrInStatus)
    (hfound : 0 ≤ findGenericMsgIndex K "**user")
    (hasc : IsAscii K "**user" (some sm) (.int u :: rest)) :
    Carries K (mpirErrCreateCodeValist K s lastcode fatal fcname line errorClass "**user" (some sm)
        (.int u :: rest)).2
      (mpirErrCreateCodeValist K s lastcode fatal fcname line errorClass "**user" (some sm)
        (.int u :: rest)).1 u ∧
    ringIdxOf (mpirErrCreateCodeValist K s lastcode fatal fcname line errorClass "**user"
      (some sm) (.int u :: rest)).1 = s.errorRingLoc :=
  carries_create K hcls hin hfound hasc
    (createEntry_user ((isUserMsg_found K hfound).mpr ((strcmp_eq_iff _ _).mpr rfl)))

end Create

/-- A run after `a₀`, made in `s₀`.  A `chain` step creates from the newest code of the chain,
with a found key other than `**user`, a valid class that stays off `MPI_ERR_IN_STATUS` and an
ASCII text; a `create` step is any other create and a `combine` step any combine that ends.
The index counts the creates after `a₀`; the list holds the codes of the chain, newest first. -/
inductive CarryRun (s₀ : Ring) (a₀ : CInt) : Nat → Ring → List CInt → Prop
  | start : CarryRun s₀ a₀ 0 s₀ [a₀]
  | chain {m : Nat} {s : Ring} {a : CInt} {hs : List CInt} (fatal : Bool) (fcname : Option CStr)
      (line : Int) (errorClass : CInt) (genericMsg : CStr) (specificMsg : Option CStr)
      (args : List VaArg) :
      CarryRun s₀ a₀ m s (a :: hs) → 0 ≤ findGenericMsgIndex K genericMsg →
      strcmp genericMsg.chars ("**user" : CStr).chars ≠ .eq → isValidErrorClass K errorClass →
      effectiveClass K a errorClass ≠ BitVec.ofNat 32 K.mpiErrInStatus →
      IsAscii K genericMsg specificMsg args →
      CarryRun s₀ a₀ (m + 1)
        (mpirErrCreateCodeValist K s a fatal fcname line errorClass genericMsg specificMsg args).2
        ((mpirErrCreateCodeValist K s a fatal fcname line errorClass genericMsg specificMsg
          args).1 :: a :: hs)
  | create {m : Nat} {s : Ring} {hs : List CInt} (lastcode : CInt) (fatal : Bool)
      (fcname : Option CStr) (line : Int) (errorClass : CInt) (genericMsg : CStr)
      (specificMsg : Option CStr) (args : List VaArg) :
      CarryRun s₀ a₀ m s hs →
      CarryRun s₀ a₀ (m + 1)
        (mpirErrCreateCodeValist K s lastcode fatal fcname line errorClass genericMsg specificMsg
          args).2 hs
  | combine {m : Nat} {s s' : Ring} {hs : List CInt} {x y r : CInt} (n : Nat) :
      CarryRun s₀ a₀ m s hs → mpirErrCombineCodes K n s x y = .ok (r, s') →
      CarryRun s₀ a₀ m s' hs

/-- Along a run, with `p` the slot of `a₀`: the cursor is `w ≤ m` slots past `p + 1`, and every
code of the chain carries `u` from a slot at most `w` past `p`, which the cursor has not come
back to. -/
theorem CarryRun.carries {s₀ : Ring} {a₀ u : CInt} (h₀ : Carries K s₀ a₀ u)
    (hloc₀ : s₀.errorRingLoc = (ringIdxOf a₀ + 1) % maxErrorRing) {m : Nat} {s : Ring}
    {hs : List CInt} (h : CarryRun K s₀ a₀ m s hs) (hm : m < maxErrorRing) :
    ∃ w ≤ m, s.errorRingLoc = (ringIdxOf a₀ + 1 + w) % maxErrorRing ∧
      ∀ a ∈ hs, Carries K s a u ∧ ∃ k ≤ w, ringIdxOf a = (ringIdxOf a₀ + k) % maxErrorRing := by
  have hp := ringIdxOf_lt a₀
  simp only [maxErrorRing, errorSpecificIndexSize] at hp hm hloc₀ ⊢
  induction h with
  | start =>
    refine ⟨0, le_refl _, hloc₀, ?_⟩
    simp only [List.mem_singleton, forall_eq]
    exact ⟨h₀, 0, le_refl _, by omega⟩
  | @chain m s a hs fatal fcname line errorClass genericMsg specificMsg args _ hfound hnu hcls
      hin hasc ih =>
    obtain ⟨w, hw, hloc, hall⟩ := ih (by omega)
    have hsep : ∀ b ∈ a :: hs, ringIdxOf b ≠ s.errorRingLoc := fun b hb => by
      obtain ⟨-, k, hk, hb⟩ := hall b hb; omega
    obtain ⟨hca, hidx⟩ := (hall a (List.mem_cons_self _ _)).1.create_chained K
      (hsep a (List.mem_cons_self _ _)) fatal fcname line hfound hnu hcls hin hasc
    have hchk := checkedLastcode_of_valid K (hall a (List.mem_cons_self _ _)).1.valid
    rw [mpirErrCreateCodeValist_of_ne K (by rw [hchk]; exact hin)] at hca hidx ⊢
    refine ⟨w + 1, by omega, ?_, fun b hb => ?_⟩
    · simp only [Ring.push_errorRingLoc, Ring.nextLoc_eq, hloc, maxErrorRing,
        errorSpecificIndexSize]
      omega
    · rcases List.mem_cons.mp hb with rfl | hb
      · exact ⟨hca, w + 1, le_refl _, by rw [hidx, hloc]; omega⟩
      · obtain ⟨hc, k, hk, hb'⟩ := hall b hb
        exact ⟨hc.push _ (hsep b hb), k, by omega, hb'⟩
  | create lastcode fatal fcname line errorClass genericMsg specificMsg args _ ih =>
    obtain ⟨w, hw, hloc, hall⟩ := ih (by omega)
    rcases mpirErrCreateCodeValist_ring K _ lastcode fatal fcname line errorClass genericMsg
      specificMsg args with h' | ⟨e, h'⟩ <;> rw [h']
    · exact ⟨w, by omega, hloc, hall⟩
    · refine ⟨w + 1, by omega, ?_, fun b hb => ?_⟩
      · simp only [Ring.push_errorRingLoc, Ring.nextLoc_eq, hloc, maxErrorRing,
          errorSpecificIndexSize]
        omega
      · obtain ⟨hc, k, hk, hb⟩ := hall b hb
        exact ⟨hc.push e (by omega), k, by omega, hb⟩
  | combine n _ hc ih =>
    obtain ⟨w, hw, hloc, hall⟩ := ih hm
    have h' := mpirErrCombineCodes_prevsOnly K hc
    exact ⟨w, hw, h'.loc_eq ▸ hloc, fun b hb =>
      ⟨(hall b hb).1.prevsOnly h', (hall b hb).2⟩⟩

/-- A user code stored by a `**user` create is carried by every code of a chain of creates
built on it, through any other creates and combines, as long as fewer than `MAX_ERROR_RING`
creates have followed the first. -/
theorem carryRun_carries {s : Ring} {lastcode errorClass : CInt} {fatal : Bool}
    {fcname : Option CStr} {line : Int} {sm : CStr} {u : CInt} {rest : List VaArg}
    (hcls : isValidErrorClass K errorClass)
    (hin : effectiveClass K (checkedLastcode K s lastcode) errorClass ≠
      BitVec.ofNat 32 K.mpiErrInStatus)
    (hfound : 0 ≤ findGenericMsgIndex K "**user")
    (hasc : IsAscii K "**user" (some sm) (.int u :: rest)) {m : Nat} {s' : Ring}
    {hs : List CInt}
    (h : CarryRun K (mpirErrCreateCodeValist K s lastcode fatal fcname line errorClass "**user"
        (some sm) (.int u :: rest)).2
      (mpirErrCreateCodeValist K s lastcode fatal fcname line errorClass "**user" (some sm)
        (.int u :: rest)).1 m s' hs)
    (hm : m < maxErrorRing) : ∀ a ∈ hs, Carries K s' a u := by
  obtain ⟨h₀, hidx⟩ := carries_create_user K fatal fcname line hcls hin hfound hasc
  have hloc₀ : (mpirErrCreateCodeValist K s lastcode fatal fcname line errorClass "**user"
      (some sm) (.int u :: rest)).2.errorRingLoc = (ringIdxOf (mpirErrCreateCodeValist K s
      lastcode fatal fcname line errorClass "**user" (some sm) (.int u :: rest)).1 + 1) %
      maxErrorRing := by
    rw [hidx, mpirErrCreateCodeValist_of_ne K hin, Ring.push_errorRingLoc, Ring.nextLoc_eq]
  obtain ⟨w, -, -, hall⟩ := CarryRun.carries K h₀ hloc₀ h hm
  exact fun a ha => (hall a ha).1

end MpichErrhan
