import MpichErrhan.Runs

/-!
# What creates and combines do to the chains

The error stack of a code is its chain, the slots its walk visits.  `MPIR_Err_create_code` is
meant to push one entry onto the stack of `lastcode`, and `MPIR_Err_combine_codes` to append one
stack to another; every other routine of `errutil.c` only reads the ring.  This file states what
the two writers do to the chains of all codes, in every reachable ring.

## Main results

* The chain loops and `checkErrcodeIsValid` test a code in two ways: the loops ask for a generic
  message and a matching id, the check for a ring index in range, a matching id and a generic
  index inside the table.  Every id a create writes has its generic index inside the table
  (`Reachable.genericOf_id_le`), so in every reachable ring a code a chain loop steps through
  passes the check (`Reachable.valid_of_link`): the check a create makes of `lastcode` never cuts
  a stack the printers would show.
* A create writes the slot at the cursor and nothing else, so it keeps the chain, and the slots,
  of every code whose walk does not pass through that slot (`mpirErrCreateCodeValist_keeps_chain`).
  A create with a class inside the class field, a key found in the table and an ASCII text,
  chained from a code whose walk ends at `MPI_SUCCESS` away from the cursor, returns a code whose
  walk is the new slot followed by the walk of `lastcode` (`mpirErrCreateCodeValist_chain`).
* The code a create returns decodes, through `convertErrcodeToIndexes`, `ERROR_GET_CLASS` and
  `MPIR_Err_is_fatal`, to the slot it wrote, that slot's id, the generic index, the class and the
  fatality the routine chose (`mpirErrCreateCodeValist_decode`).
* A combine that ends rewrites only `prev_error` fields, and only on the slots the walk of
  `error1` visits; every code links, validates and reports its user code as before
  (`mpirErrCombineCodes_frame`).
-/

namespace MpichErrhan

/-! ## The ids a create writes -/

/-- The generic field of a slot id is the generic index plus one, whatever the class and the
text: the sequence number sits above it, even when it is negative. -/
theorem genericOf_errcodeCreateID (errorClass : CInt) {g : Int} (h0 : -1 ≤ g) (h : g < 2047)
    (msg : CStr) : genericOf (errcodeCreateID errorClass g msg).1 = (g + 1).toNat := by
  set q := (errcodeCreateID errorClass g msg).2
  have hA :
      (errorClass &&& errorClassMask ||| BitVec.ofInt 32 (g + 1) <<< errorGenericShift).toNat =
      errorClass.toNat % 128 + 256 * (g + 1).toNat := by
    rw [toNat_or_shiftLeft (by rw [toNat_and_errorClassMask]; simp only [errorGenericShift]; omega)
      (by rw [toNat_ofInt_of_lt (by omega) (by omega)]; simp only [errorGenericShift]; omega),
      toNat_and_errorClassMask, toNat_ofInt_of_lt (by omega) (by omega)]
    rfl
  have hB : (BitVec.ofInt 32 q <<< errorSpecificSeqShift).toNat =
      2 ^ 26 * ((BitVec.ofInt 32 q <<< errorSpecificSeqShift).toNat / 2 ^ 26) := by
    rw [BitVec.toNat_shiftLeft, Nat.shiftLeft_eq]; simp only [errorSpecificSeqShift]; omega
  have e : (errcodeCreateID errorClass g msg).1 =
      BitVec.ofInt 32 q <<< errorSpecificSeqShift |||
        (errorClass &&& errorClassMask ||| BitVec.ofInt 32 (g + 1) <<< errorGenericShift) :=
    BitVec.or_comm _ _
  rw [genericOf, e, toNat_or_of_lt hB (by rw [hA]; omega), hA]
  omega

/-- Masking a code to the fields of its id keeps its generic field. -/
theorem genericOf_and_ringIdMask (c : CInt) : genericOf (c &&& ringIdMask) = genericOf c := by
  have h := toNat_and_ringIdMask c
  have : genericOf c < 2048 := Nat.mod_lt _ (by decide)
  have : seqOf c < 16 := Nat.mod_lt _ (by decide)
  rw [genericOf, h]; omega

variable {K : Config}

/-- In every reachable ring the generic field of every slot id is at most the length of the
generic table: a create stores the index it found, and a combine changes no id. -/
theorem Reachable.genericOf_id_le {s : Ring} {codes : List CInt} (h : Reachable K s codes)
    (j : Nat) : genericOf (s.errorRing j).id ≤ K.genericErrMsgs.length := by
  induction h generalizing j with
  | init => simp [Ring.init, ErrMsg.zero, genericOf]
  | @create s codes lastcode fatal fcname line errorClass genericMsg specificMsg args _ _ ih =>
    by_cases hin : effectiveClass K (checkedLastcode K s lastcode) errorClass =
        BitVec.ofNat 32 K.mpiErrInStatus
    · simp only [mpirErrCreateCodeValist, hin, if_true]; exact ih j
    rw [mpirErrCreateCodeValist_of_ne K hin, Ring.push_errorRing]
    split
    · have hr := findGenericMsgIndex_range K genericMsg
      have := K.generic_fits
      rw [createEntry_id, genericOf_errcodeCreateID _ hr.1 (by omega)]
      omega
    · exact ih j
  | combine n _ _ _ _ hc ih =>
    rw [((mpirErrCombineCodes_prevsOnly K hc).same j).1]; exact ih j

/-- A code whose slot holds its id and whose generic index is inside the table passes
`checkErrcodeIsValid`. -/
theorem valid_of_link_of_genericOf_le {s : Ring} {c : CInt} {i : Nat} (hl : s.link? c = some i)
    (hle : genericOf c ≤ K.genericErrMsgs.length) : checkErrcodeIsValid K s c = 0 := by
  obtain ⟨-, hmax, hg, hid⟩ := link?_eq_some.mp hl
  unfold checkErrcodeIsValid
  split
  · rfl
  · simp only [convertErrcodeToIndexes_ringIdx, convertErrcodeToIndexes_ringId,
      convertErrcodeToIndexes_genericIdx, hid, ne_eq, not_true_eq_false, if_false]
    rw [if_neg (by have := ringIdxOf_lt c; omega), if_neg (by omega)]

/-- In every reachable ring, a code that links to a slot has a generic index inside the table:
it carries the slot's id. -/
theorem Reachable.genericOf_le_of_link {s : Ring} {codes : List CInt} (h : Reachable K s codes)
    {c : CInt} {i : Nat} (hl : s.link? c = some i) : genericOf c ≤ K.genericErrMsgs.length := by
  have hle := h.genericOf_id_le (ringIdxOf c)
  rwa [(link?_eq_some.mp hl).2.2.2, genericOf_and_ringIdMask] at hle

/-- In every reachable ring, a code that the chain loops step through passes
`checkErrcodeIsValid`. -/
theorem Reachable.valid_of_link {s : Ring} {codes : List CInt} (h : Reachable K s codes)
    {c : CInt} {i : Nat} (hl : s.link? c = some i) : checkErrcodeIsValid K s c = 0 :=
  valid_of_link_of_genericOf_le hl (h.genericOf_le_of_link hl)

/-- In every reachable ring, the check a create makes of `lastcode` leaves a code that links to a
slot as it is. -/
theorem Reachable.checkedLastcode_of_link {s : Ring} {codes : List CInt}
    (h : Reachable K s codes) {c : CInt} {i : Nat} (hl : s.link? c = some i) :
    checkedLastcode K s c = c :=
  checkedLastcode_of_valid K (valid_of_link_of_genericOf_le hl (h.genericOf_le_of_link hl))

set_option maxRecDepth 8000 in
/-- The first `**fail` code links to slot 0 of the ring it made, and passes the check. -/
theorem valid_of_link_pop :
    (∃ codes, Reachable Config.sample (popRing 1) codes) ∧
      (popRing 1).link? wrapCode = some 0 ∧
      checkErrcodeIsValid Config.sample (popRing 1) wrapCode = 0 := by
  obtain ⟨codes, hr, -⟩ := popRing_reachable 0
  have hl : (popRing 1).link? wrapCode = some 0 := by decide
  exact ⟨⟨codes, hr⟩, hl, hr.valid_of_link hl⟩

/-! ## A create and the chains -/

/-- A walk stops at a code that links nowhere. -/
theorem Chain.link?_last {s : Ring} {c t : CInt} {es : List Nat} (h : Chain s c es t) :
    s.link? t = none := by
  induction h with
  | stop hc => exact hc
  | step _ _ ih => exact ih

/-- A code that names no generic message links nowhere. -/
theorem link?_of_genericOf_eq_zero {s : Ring} {c : CInt} (h : genericOf c = 0) :
    s.link? c = none :=
  link?_eq_none.mpr fun _ hg => absurd hg (by omega)

/-- Writing the slot at the cursor changes the link of no code that names another slot: past the
high-water mark every slot is zero, and no code with a generic message matches a zero id. -/
theorem Ring.link?_push_of_ringIdx_ne {s : Ring} {e : ErrMsg} {c : CInt}
    (hz : ∀ j, s.maxErrorRingLoc < j → s.errorRing j = .zero) (h : ringIdxOf c ≠ s.errorRingLoc) :
    (s.push e).link? c = s.link? c := by
  rw [link?_eq, link?_eq, Ring.push_errorRing, if_neg h, Ring.push_maxErrorRingLoc]
  by_cases hle : ringIdxOf c ≤ s.maxErrorRingLoc
  · simp only [hle, le_max_of_le_right hle, true_and]
  · have hno : ¬ (1 ≤ genericOf c ∧ (s.errorRing (ringIdxOf c)).id = c &&& ringIdMask) := by
      rintro ⟨hg, hid⟩
      have h0 : genericOf (s.errorRing (ringIdxOf c)).id = 0 := by rw [hz _ (by omega)]; rfl
      rw [hid, genericOf_and_ringIdMask] at h0
      omega
    rw [if_neg fun h' => hno h'.2, if_neg fun h' => hno h'.2]

/-- A walk that does not pass the cursor, and whose stop still links nowhere after the write, is
the same walk after it. -/
theorem Chain.push {s : Ring} {e : ErrMsg} {c t : CInt} {es : List Nat} (h : Chain s c es t)
    (hes : s.errorRingLoc ∉ es) (ht : (s.push e).link? t = none) : Chain (s.push e) c es t := by
  induction h with
  | stop _ => exact .stop ht
  | @step c i es t hc _ ih =>
    have hi : i ≠ s.errorRingLoc := fun h => hes (h ▸ List.mem_cons_self _ _)
    have hidx : ringIdxOf c ≠ s.errorRingLoc := (link?_eq_some.mp hc).1 ▸ hi
    refine .step (Ring.link?_push_of_ne hidx hc) ?_
    rw [Ring.push_errorRing, if_neg hi]
    exact ih (fun h => hes (List.mem_cons_of_mem _ h)) ht

section Create

variable {s : Ring} {codes : List CInt} {lastcode errorClass : CInt} {fatal : Bool}
  {fcname : Option CStr} {line : Int} {genericMsg : CStr} {specificMsg : Option CStr}
  {args : List VaArg}

/-- In a reachable ring, every create keeps the walk of each code that does not pass the slot at
the cursor and stops at a link that cannot name that slot, and leaves the slots of the walk as
they were. -/
theorem mpirErrCreateCodeValist_keeps_chain (hr : Reachable K s codes) {c t : CInt}
    {es : List Nat} (hc : Chain s c es t) (hes : s.errorRingLoc ∉ es)
    (ht : genericOf t = 0 ∨ ringIdxOf t ≠ s.errorRingLoc) (lastcode : CInt) (fatal : Bool)
    (fcname : Option CStr) (line : Int) (errorClass : CInt) (genericMsg : CStr)
    (specificMsg : Option CStr) (args : List VaArg) :
    Chain (mpirErrCreateCodeValist K s lastcode fatal fcname line errorClass genericMsg
        specificMsg args).2 c es t ∧
      ∀ i ∈ es, (mpirErrCreateCodeValist K s lastcode fatal fcname line errorClass genericMsg
        specificMsg args).2.errorRing i = s.errorRing i := by
  rcases mpirErrCreateCodeValist_ring K s lastcode fatal fcname line errorClass genericMsg
    specificMsg args with h | ⟨e, h⟩ <;> rw [h]
  · exact ⟨hc, fun _ _ => rfl⟩
  · have hend : (s.push e).link? t = none := by
      rcases ht with hg | hi
      · exact link?_of_genericOf_eq_zero hg
      · rw [Ring.link?_push_of_ringIdx_ne hr.above_max hi]; exact hc.link?_last
    exact ⟨hc.push hes hend, fun i hi => by
      rw [Ring.push_errorRing, if_neg (ne_of_mem_of_not_mem hi hes)]⟩

set_option maxRecDepth 8000 in
/-- A second `**fail` create, at slot 1, keeps the one-slot walk of the first code. -/
theorem mpirErrCreateCodeValist_keeps_chain_pop :
    (∃ codes, Reachable Config.sample (popRing 1) codes) ∧
      Chain (popRing 1) wrapCode [0] mpiSuccess ∧ (popRing 1).errorRingLoc ∉ [0] ∧
      (genericOf mpiSuccess = 0 ∨ ringIdxOf mpiSuccess ≠ (popRing 1).errorRingLoc) ∧
      Chain (mpirErrCreateCodeValist Config.sample (popRing 1) mpiSuccess false (some "f") 1 1
        "**fail" none []).2 wrapCode [0] mpiSuccess ∧
      ∀ i ∈ [0], (mpirErrCreateCodeValist Config.sample (popRing 1) mpiSuccess false (some "f") 1
        1 "**fail" none []).2.errorRing i = (popRing 1).errorRing i := by
  obtain ⟨codes, hr, -⟩ := popRing_reachable 0
  have hc := wrapCode_chain
  have hes : (popRing 1).errorRingLoc ∉ [0] := by decide
  have ht : genericOf mpiSuccess = 0 ∨ ringIdxOf mpiSuccess ≠ (popRing 1).errorRingLoc :=
    .inl rfl
  exact ⟨⟨codes, hr⟩, hc, hes, ht,
    mpirErrCreateCodeValist_keeps_chain hr hc hes ht mpiSuccess false (some "f") 1 1 "**fail"
      none []⟩

/-- In a reachable ring, a create with a class inside the class field, a key found in the table
and an ASCII text, chained from a code whose walk ends at `MPI_SUCCESS` and does not pass the
cursor, returns a code whose walk visits the slot it wrote and then the walk of `lastcode`; that
slot holds the entry the create made. -/
theorem mpirErrCreateCodeValist_chain (hr : Reachable K s codes) (hcls : errorClass.toNat < 128)
    (hin : effectiveClass K lastcode errorClass ≠ BitVec.ofNat 32 K.mpiErrInStatus)
    (hfound : 0 ≤ findGenericMsgIndex K genericMsg) (hasc : IsAscii K genericMsg specificMsg args)
    {es : List Nat} (hc : Chain s lastcode es mpiSuccess) (hes : s.errorRingLoc ∉ es) :
    Chain (mpirErrCreateCodeValist K s lastcode fatal fcname line errorClass genericMsg
        specificMsg args).2
      (mpirErrCreateCodeValist K s lastcode fatal fcname line errorClass genericMsg specificMsg
        args).1 (s.errorRingLoc :: es) mpiSuccess ∧
      (mpirErrCreateCodeValist K s lastcode fatal fcname line errorClass genericMsg specificMsg
        args).2.errorRing s.errorRingLoc = createEntry K s lastcode
          (effectiveClass K lastcode errorClass) fcname line genericMsg specificMsg args := by
  have hchk : checkedLastcode K s lastcode = lastcode := by
    cases hc with
    | stop _ => exact checkedLastcode_success K s
    | step hl _ => exact hr.checkedLastcode_of_link hl
  rw [mpirErrCreateCodeValist_of_ne K (by rw [hchk]; exact hin), hchk]
  have hc' : (effectiveClass K lastcode errorClass).toNat < 128 := effectiveClass_lt K hcls
  have hq :
      0 ≤ createSeq K (effectiveClass K lastcode errorClass) genericMsg specificMsg args ∧ _ :=
    createSeq_of_ascii K hasc
  have hidx : ringIdxOf (createCode K s lastcode (effectiveClass K lastcode errorClass) fatal
      genericMsg specificMsg args) = s.errorRingLoc := ringIdxOf_createCode hc' hq
  have hslot : (s.push (createEntry K s lastcode (effectiveClass K lastcode errorClass) fcname line
      genericMsg specificMsg args)).errorRing s.errorRingLoc = createEntry K s lastcode
        (effectiveClass K lastcode errorClass) fcname line genericMsg specificMsg args := by
    rw [Ring.push_errorRing, if_pos rfl]
  refine ⟨.step (link?_eq_some.mpr ⟨hidx.symm, ?_, ?_, ?_⟩) ?_, hslot⟩
  · rw [hidx, Ring.push_maxErrorRingLoc]; exact le_max_of_le_right s.loc_le
  · rw [genericOf_createCode hc' hq, genericField]; omega
  · rw [hidx, hslot]; exact (createCode_and_ringIdMask hc' hq).symm
  · rw [hslot, createEntry_prevError]
    exact hc.push hes (link?_success _)

set_option maxRecDepth 8000 in
/-- A `**fail` create chained from the first code, at slot 1: its walk visits slot 1 and then
slot 0. -/
theorem mpirErrCreateCodeValist_chain_pop :
    (∃ codes, Reachable Config.sample (popRing 1) codes) ∧ (1 : CInt).toNat < 128 ∧
      effectiveClass Config.sample wrapCode 1 ≠ BitVec.ofNat 32 Config.sample.mpiErrInStatus ∧
      0 ≤ findGenericMsgIndex Config.sample "**fail" ∧ IsAscii Config.sample "**fail" none [] ∧
      Chain (popRing 1) wrapCode [0] mpiSuccess ∧ (popRing 1).errorRingLoc ∉ [0] ∧
      Chain (popCreate (popRing 1) wrapCode).2 (popCreate (popRing 1) wrapCode).1 [1, 0]
        mpiSuccess := by
  obtain ⟨codes, hr, -⟩ := popRing_reachable 0
  have hin : effectiveClass Config.sample wrapCode 1 ≠
      BitVec.ofNat 32 Config.sample.mpiErrInStatus := by decide
  have hfound : 0 ≤ findGenericMsgIndex Config.sample "**fail" := by decide
  have hasc : IsAscii Config.sample "**fail" none [] := by unfold IsAscii; decide
  have hc := wrapCode_chain
  have hes : (popRing 1).errorRingLoc ∉ [0] := by decide
  exact ⟨⟨codes, hr⟩, by decide, hin, hfound, hasc, hc, hes,
    (mpirErrCreateCodeValist_chain hr (by decide) hin hfound hasc hc hes).1⟩

/-- The code of a create with a class inside the class field and an ASCII text decodes to what the
create chose: `convertErrcodeToIndexes` gives the slot it wrote, that slot's id and the generic
index, and finds the index in range; `ERROR_GET_CLASS` gives the class after the
`MPI_ERR_OTHER` rule, and `MPIR_Err_is_fatal` the fatality of `fatal` or of `lastcode`. -/
theorem mpirErrCreateCodeValist_decode (hcls : errorClass.toNat < 128)
    (hin : effectiveClass K (checkedLastcode K s lastcode) errorClass ≠
      BitVec.ofNat 32 K.mpiErrInStatus)
    (hasc : IsAscii K genericMsg specificMsg args) :
    convertErrcodeToIndexes
        (mpirErrCreateCodeValist K s lastcode fatal fcname line errorClass genericMsg specificMsg
          args).2
        (mpirErrCreateCodeValist K s lastcode fatal fcname line errorClass genericMsg specificMsg
          args).1 =
      (⟨s.errorRingLoc, ((mpirErrCreateCodeValist K s lastcode fatal fcname line errorClass
          genericMsg specificMsg args).2.errorRing s.errorRingLoc).id,
        findGenericMsgIndex K genericMsg⟩, false) ∧
      errorGetClass (mpirErrCreateCodeValist K s lastcode fatal fcname line errorClass genericMsg
        specificMsg args).1 = effectiveClass K (checkedLastcode K s lastcode) errorClass ∧
      mpirErrIsFatal (mpirErrCreateCodeValist K s lastcode fatal fcname line errorClass genericMsg
        specificMsg args).1 = (fatal || mpirErrIsFatal (checkedLastcode K s lastcode)) := by
  rw [mpirErrCreateCodeValist_of_ne K hin]
  set cls := effectiveClass K (checkedLastcode K s lastcode) errorClass
  have hc : cls.toNat < 128 := effectiveClass_lt K hcls
  have hq : 0 ≤ createSeq K cls genericMsg specificMsg args ∧ _ := createSeq_of_ascii K hasc
  have hidx : ringIdxOf (createCode K s (checkedLastcode K s lastcode) cls fatal genericMsg
      specificMsg args) = s.errorRingLoc := ringIdxOf_createCode hc hq
  have hr := findGenericMsgIndex_range K genericMsg
  refine ⟨?_, errorGetClass_createCode hc hq, mpirErrIsFatal_createCode hc hq⟩
  refine Prod.ext ?_ ?_
  · have eta : ∀ x : ErrIndexes, x = ⟨x.ringIdx, x.ringId, x.genericIdx⟩ := fun _ => rfl
    rw [eta (convertErrcodeToIndexes _ _).1, convertErrcodeToIndexes_ringIdx,
      convertErrcodeToIndexes_ringId, convertErrcodeToIndexes_genericIdx, hidx,
      genericOf_createCode hc hq, genericField, Ring.push_errorRing, if_pos rfl,
      createCode_and_ringIdMask hc hq]
    congr 1
    omega
  · rw [convertErrcodeToIndexes_bad, hidx, Ring.push_maxErrorRingLoc, decide_eq_false_iff_not]
    have := s.loc_le
    omega

set_option maxRecDepth 8000 in
/-- The first `**fail` code decodes to slot 0, the generic index of `**fail`, class 1 and no
fatality. -/
theorem mpirErrCreateCodeValist_decode_pop :
    (1 : CInt).toNat < 128 ∧
      effectiveClass Config.sample (checkedLastcode Config.sample Ring.init mpiSuccess) 1 ≠
        BitVec.ofNat 32 Config.sample.mpiErrInStatus ∧
      IsAscii Config.sample "**fail" none [] ∧
      convertErrcodeToIndexes (popCreate Ring.init mpiSuccess).2
        (popCreate Ring.init mpiSuccess).1 =
        (⟨0, ((popCreate Ring.init mpiSuccess).2.errorRing 0).id,
          findGenericMsgIndex Config.sample "**fail"⟩, false) ∧
      errorGetClass (popCreate Ring.init mpiSuccess).1 = 1 ∧
      mpirErrIsFatal (popCreate Ring.init mpiSuccess).1 = false := by
  have hin : effectiveClass Config.sample (checkedLastcode Config.sample Ring.init mpiSuccess) 1 ≠
      BitVec.ofNat 32 Config.sample.mpiErrInStatus := by decide
  have hasc : IsAscii Config.sample "**fail" none [] := by unfold IsAscii; decide
  obtain ⟨h₁, h₂, h₃⟩ : _ ∧ errorGetClass (popCreate Ring.init mpiSuccess).1 = _ ∧
      mpirErrIsFatal (popCreate Ring.init mpiSuccess).1 = _ :=
    mpirErrCreateCodeValist_decode (by decide) hin hasc
  exact ⟨by decide, hin, hasc, h₁, h₂.trans (by decide), h₃.trans (by decide)⟩

end Create

/-! ## A combine and the slots -/

variable (K) in
/-- A pass of the append loop leaves the ring, or sets the `prev_error` of its slot. -/
theorem combineStep_cases (b cls : CInt) (s : Ring) (i : Nat) :
    combineStep K b cls s i = s ∨ ∃ v, combineStep K b cls s i = s.setPrev i v := by
  dsimp only [combineStep]
  split
  · exact .inr ⟨_, rfl⟩
  · split
    · exact .inr ⟨_, rfl⟩
    · exact .inl rfl

/-- The append loop writes only the slots of the walk it starts on. -/
theorem combineSpecificCodes_frame : ∀ {n : Nat} {s s' : Ring} {c b cls t : CInt}
    {es : List Nat}, Chain s c es t → combineSpecificCodes K n s c b cls = .ok s' →
      ∀ j ∉ es, s'.errorRing j = s.errorRing j
  | 0, _, _, _, _, _, _, _, _, h => by simp [combineSpecificCodes] at h
  | n + 1, s, s', c, b, cls, t, es, hc, h => by
    simp only [combineSpecificCodes] at h
    split at h
    · cases h; exact fun _ _ => rfl
    · rename_i i hi
      have hnd := hc.nodup
      cases hc with
      | stop hn => rw [hn] at hi; cases hi
      | @step _ i' es' _ hl hr =>
        rw [hl] at hi; cases hi
        have hstep : ∀ j, j ≠ i → (combineStep K b cls s i).errorRing j = s.errorRing j := by
          intro j hj
          rcases combineStep_cases K b cls s i with e | ⟨v, e⟩ <;> rw [e]
          rw [Ring.setPrev_errorRing, if_neg hj]
        intro j hj
        have hji : j ≠ i := fun e => hj (e ▸ List.mem_cons_self _ _)
        split at h
        · cases h; exact hstep j hji
        · have hr' : Chain (combineStep K b cls s i) (s.errorRing i).prevError es' t := by
            rcases combineStep_cases K b cls s i with e | ⟨v, e⟩ <;> rw [e]
            · exact hr
            · exact hr.setPrev_of_not_mem (List.nodup_cons.mp hnd).1
          rw [combineSpecificCodes_frame hr' h j fun e => hj (List.mem_cons_of_mem _ e),
            hstep j hji]

/-- A decode reads the ring through its high-water mark only. -/
theorem convertErrcodeToIndexes_of_max_eq {s s' : Ring} (h : s'.maxErrorRingLoc = s.maxErrorRingLoc)
    (c : CInt) : convertErrcodeToIndexes s' c = convertErrcodeToIndexes s c := by
  simp only [convertErrcodeToIndexes, h]

/-- Rewriting `prev_error` fields changes no answer of `checkErrcodeIsValid`. -/
theorem Ring.PrevsOnly.checkErrcodeIsValid_eq {s s' : Ring} (h : s.PrevsOnly s') (c : CInt) :
    checkErrcodeIsValid K s' c = checkErrcodeIsValid K s c := by
  simp only [checkErrcodeIsValid, convertErrcodeToIndexes_of_max_eq h.max_eq, h.max_eq,
    (h.same _).1]

/-- Rewriting `prev_error` fields changes no answer of `checkForUserErrcode`. -/
theorem Ring.PrevsOnly.checkForUserErrcode_eq {s s' : Ring} (h : s.PrevsOnly s') (c : CInt) :
    checkForUserErrcode s' c = checkForUserErrcode s c := by
  simp only [MpichErrhan.checkForUserErrcode, convertErrcodeToIndexes_of_max_eq h.max_eq,
    (h.same _).1, (h.same _).2.1, (h.same _).2.2.1]

/-- A combine that ends leaves the ring as it was, or is a run of the append loop that ends. -/
theorem mpirErrCombineCodes_ring_cases {n : Nat} {s s' : Ring} {a b r : CInt}
    (h : mpirErrCombineCodes K n s a b = .ok (r, s')) :
    s' = s ∨ combineSpecificCodes K n s a b (error2ClassOf K b) = .ok s' := by
  by_cases ha : a = mpiSuccess
  · rw [mpirErrCombineCodes, if_pos ha] at h; cases h; exact .inl rfl
  by_cases hb : b = mpiSuccess
  · rw [mpirErrCombineCodes, if_neg ha, if_pos hb] at h; cases h; exact .inl rfl
  by_cases hda : a &&& errorDynMask ≠ 0
  · rw [mpirErrCombineCodes, if_neg ha, if_neg hb, if_pos hda] at h; cases h; exact .inl rfl
  by_cases hdb : b &&& errorDynMask ≠ 0
  · rw [mpirErrCombineCodes, if_neg ha, if_neg hb, if_neg hda, if_pos hdb] at h; cases h
    exact .inl rfl
  exact .inr (mpirErrCombineCodes_ok K ha hb (not_not.mp hda) (not_not.mp hdb) h).1

/-- A combine that ends rewrites nothing but `prev_error` fields, and only on the slots the walk of
`error1` visits; so every code links, validates and reports its user code as before. -/
theorem mpirErrCombineCodes_frame {n : Nat} {s s' : Ring} {a b r t : CInt} {es : List Nat}
    (h : mpirErrCombineCodes K n s a b = .ok (r, s')) (hc : Chain s a es t) :
    (∀ j ∉ es, s'.errorRing j = s.errorRing j) ∧ (∀ j, (s.errorRing j).SamePrev (s'.errorRing j)) ∧
      ∀ c, s'.link? c = s.link? c ∧ checkErrcodeIsValid K s' c = checkErrcodeIsValid K s c ∧
        checkForUserErrcode s' c = checkForUserErrcode s c := by
  have hp := mpirErrCombineCodes_prevsOnly K h
  refine ⟨?_, hp.same, fun c => ⟨hp.link?_eq c, hp.checkErrcodeIsValid_eq c,
    hp.checkForUserErrcode_eq c⟩⟩
  rcases mpirErrCombineCodes_ring_cases h with rfl | hcs
  · exact fun _ _ => rfl
  · exact combineSpecificCodes_frame hc hcs

set_option maxRecDepth 8000 in
/-- Combining the second `**fail` code with the first writes only slot 1, the one slot of the
second code's walk. -/
theorem mpirErrCombineCodes_frame_pop :
    ∃ r s', mpirErrCombineCodes Config.sample (maxErrorRing + 1) (popRing 2)
        (popCreate (popRing 1) mpiSuccess).1 wrapCode = .ok (r, s') ∧
      Chain (popRing 2) (popCreate (popRing 1) mpiSuccess).1 [1] mpiSuccess ∧
      (∀ j ∉ [1], s'.errorRing j = (popRing 2).errorRing j) ∧
      (∀ j, ((popRing 2).errorRing j).SamePrev (s'.errorRing j)) ∧
      ∀ c, s'.link? c = (popRing 2).link? c ∧
        checkErrcodeIsValid Config.sample s' c = checkErrcodeIsValid Config.sample (popRing 2) c ∧
        checkForUserErrcode s' c = checkForUserErrcode (popRing 2) c := by
  have hp : ((popRing 2).errorRing 1).prevError = mpiSuccess := by decide
  have hc : Chain (popRing 2) (popCreate (popRing 1) mpiSuccess).1 [1] mpiSuccess :=
    .step (by decide) (hp ▸ .stop (link?_success _))
  obtain ⟨p, h⟩ : ∃ p, mpirErrCombineCodes Config.sample (maxErrorRing + 1) (popRing 2)
      (popCreate (popRing 1) mpiSuccess).1 wrapCode = .ok p := ⟨_, rfl⟩
  exact ⟨p.1, p.2, h, hc, mpirErrCombineCodes_frame h hc⟩

end MpichErrhan
