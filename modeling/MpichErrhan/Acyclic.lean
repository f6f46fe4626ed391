import MpichErrhan.Window

/-!
# Before the ring wraps, every walk ends

`cycle_after_wrap` shows a chain loop that never ends once the cursor has wrapped and a create
has reused the slot of a code still in use.  This module shows that nothing of the kind happens
earlier.  In a run of fewer than `MAX_ERROR_RING` creates whose classes fit the class field, every
walk ends, so the chain loops of `MPIR_Err_print_stack_string`, `ErrGetInstanceString` and
`CombineSpecificCodes` all finish.  The texts may be any; a text with bytes above 127 makes a
code that links nowhere (see `create_high_bytes_invalid`).

The argument is an invariant over runs, `Unwrapped`.  Every code the run holds, as a
`prev_error` or as a code it handed out, is *in play* (`InPlay`).  Such a code names no generic
message or a slot already written, and giving it another class in place of `MPI_ERR_OTHER`
never makes it link where it did not.  A create writes the next fresh slot, which no code in
play names, so it adds no link to an old walk.  A combine points the last slot of the walk of
`error1` at `error2`, whose walk shares no slot with it, and its class rewrites link nowhere
new.  Neither closes a cycle (`Ring.Acyclic`).

## Main results

* `ClassRun.walks_end`: every walk ends within `MAX_ERROR_RING + 1` steps.
* `ClassRun.combine_ends`: every `MPIR_Err_combine_codes` ends within `MAX_ERROR_RING + 1`
  passes, whatever its two codes.
-/

namespace MpichErrhan

/-! ## The code of a create, for any text -/

/-- `ring_seq % ERROR_SPECIFIC_SEQ_SIZE` truncates: its sign is the sign of the sum. -/
theorem tmod_sixteen_range (a : Int) : -16 < a.tmod 16 ∧ a.tmod 16 < 16 := by
  cases a <;> simp only [Int.tmod, Int.ofNat_eq_coe] <;> omega

/-- A sequence number shifted into place fills the six bits from bit 26 on, the dynamic and sign
bits included. -/
theorem toNat_seqField {q : Int} (h₀ : -16 < q) (h₁ : q < 16) :
    (BitVec.ofInt 32 q <<< errorSpecificSeqShift).toNat = 67108864 * (q % 64).toNat := by
  rw [BitVec.toNat_shiftLeft, BitVec.toNat_ofInt, Nat.shiftLeft_eq]
  simp only [errorSpecificSeqShift]
  omega

variable {K : Config} {s : Ring} {lastcode errorClass : CInt} {fatal : Bool} {fcname : Option CStr}
  {line : Int} {genericMsg : CStr} {specificMsg : Option CStr} {args : List VaArg}

/-- Every sequence number a create computes lies strictly between -16 and 16. -/
theorem createSeq_range :
    -16 < createSeq K errorClass genericMsg specificMsg args ∧
      createSeq K errorClass genericMsg specificMsg args < 16 :=
  tmod_sixteen_range _

/-- The code as a number for any text: the sequence number, negative for a text with bytes above
127, fills the six bits from bit 26 on. -/
theorem toNat_createCode_seq (hc : errorClass.toNat < 128) :
    (createCode K s lastcode errorClass fatal genericMsg specificMsg args).toNat =
      errorClass.toNat + 128 * (fatal || mpirErrIsFatal lastcode).toNat +
        256 * genericField K genericMsg + 524288 * s.errorRingLoc +
        67108864 * (createSeq K errorClass genericMsg specificMsg args % 64).toNat := by
  have hq : -16 < createSeq K errorClass genericMsg specificMsg args ∧
      createSeq K errorClass genericMsg specificMsg args < 16 := createSeq_range
  have hg := toNat_genericCode K hc genericMsg
  have hf := genericField_lt K genericMsg
  have hl := s.loc_le.trans_lt s.max_lt
  simp only [maxErrorRing, errorSpecificIndexSize] at hl
  have h₁ : (genericCode errorClass (findGenericMsgIndex K genericMsg) |||
      BitVec.ofNat 32 s.errorRingLoc <<< errorSpecificIndexShift).toNat =
      errorClass.toNat + 256 * genericField K genericMsg + 524288 * s.errorRingLoc := by
    rw [toNat_or_shiftLeft (by simp only [errorSpecificIndexShift]; omega)
      (by simp only [BitVec.toNat_ofNat, errorSpecificIndexShift]; omega), hg]
    simp only [BitVec.toNat_ofNat, errorSpecificIndexShift]; omega
  have hy := toNat_seqField hq.1 hq.2
  have h₂ : (genericCode errorClass (findGenericMsgIndex K genericMsg) |||
      BitVec.ofNat 32 s.errorRingLoc <<< errorSpecificIndexShift |||
      BitVec.ofInt 32 (createSeq K errorClass genericMsg specificMsg args) <<<
        errorSpecificSeqShift).toNat =
      errorClass.toNat + 256 * genericField K genericMsg + 524288 * s.errorRingLoc +
        67108864 * (createSeq K errorClass genericMsg specificMsg args % 64).toNat := by
    rw [BitVec.or_comm, toNat_or_of_lt (k := 26) (by rw [hy]; omega) (by rw [h₁]; omega), hy, h₁]
    omega
  simp only [createCode]
  split
  · next h => rw [toNat_or_errorFatalMask (by rw [h₂]; omega), h₂, h, Bool.toNat_true]; omega
  · next h => rw [h₂, Bool.eq_false_iff.mpr h, Bool.toNat_false]; omega

/-- The id of the slot as a number for any text. -/
theorem toNat_createEntry_id_seq (hc : errorClass.toNat < 128) :
    (createEntry K s lastcode errorClass fcname line genericMsg specificMsg args).id.toNat =
      errorClass.toNat + 256 * genericField K genericMsg +
        67108864 * (createSeq K errorClass genericMsg specificMsg args % 64).toNat := by
  have hq : -16 < createSeq K errorClass genericMsg specificMsg args ∧
      createSeq K errorClass genericMsg specificMsg args < 16 := createSeq_range
  have hr := findGenericMsgIndex_range K genericMsg
  have hf := genericField_lt K genericMsg
  have hf' := hf
  simp only [genericField] at hf'
  have e : (createEntry K s lastcode errorClass fcname line genericMsg specificMsg args).id =
      (errorClass &&& errorClassMask |||
        BitVec.ofInt 32 (findGenericMsgIndex K genericMsg + 1) <<< errorGenericShift) |||
      BitVec.ofInt 32 (createSeq K errorClass genericMsg specificMsg args) <<<
        errorSpecificSeqShift := rfl
  have h₁ : (errorClass &&& errorClassMask |||
      BitVec.ofInt 32 (findGenericMsgIndex K genericMsg + 1) <<< errorGenericShift).toNat =
      errorClass.toNat + 256 * genericField K genericMsg := by
    rw [toNat_or_shiftLeft (by rw [toNat_and_errorClassMask]; simp only [errorGenericShift]; omega)
      (by rw [toNat_ofInt_of_lt (by omega) (by omega)]; simp only [errorGenericShift]; omega),
      toNat_and_errorClassMask, toNat_ofInt_of_lt (by omega) (by omega)]
    simp only [genericField, errorGenericShift]; omega
  have hy := toNat_seqField hq.1 hq.2
  rw [e, BitVec.or_comm, toNat_or_of_lt (k := 26) (by rw [hy]; omega) (by rw [h₁]; omega), hy, h₁]
  omega


/-- The fields a slot id is checked against, and the ring index, read off a code laid out with a
six-bit sequence field. -/
theorem layout_fields_seq {x c f g l q : Nat} (hc : c < 128) (hf : f < 2) (hg : g < 2048)
    (hl : l < 128) (hx : x = c + 128 * f + 256 * g + 524288 * l + 67108864 * q) :
    x % 128 = c ∧ x / 256 % 2048 = g ∧ x / 524288 % 128 = l ∧ x / 67108864 % 16 = q % 16 := by
  subst hx
  omega

/-- A create's code names the slot at the cursor, whatever its text. -/
theorem ringIdxOf_createCode_seq (hc : errorClass.toNat < 128) :
    ringIdxOf (createCode K s lastcode errorClass fatal genericMsg specificMsg args) =
      s.errorRingLoc :=
  (layout_fields_seq hc (Bool.toNat_lt _) (genericField_lt K genericMsg)
    (s.loc_le.trans_lt s.max_lt) (toNat_createCode_seq hc)).2.2.1

/-! ## Class rewrites -/

/-- A class rewrite leaves every bit above the class field. -/
theorem toNat_withClass_div (c : CInt) {cls : CInt} (h : cls.toNat < 128) :
    (withClass c cls).toNat / 128 = c.toNat / 128 := by
  rw [toNat_withClass c h]; omega

theorem ringIdxOf_withClass (c : CInt) {cls : CInt} (h : cls.toNat < 128) :
    ringIdxOf (withClass c cls) = ringIdxOf c := by
  rw [ringIdxOf, ringIdxOf, show 524288 = 128 * 4096 from rfl, ← Nat.div_div_eq_div_mul,
    ← Nat.div_div_eq_div_mul c.toNat, toNat_withClass_div c h]

theorem genericOf_withClass (c : CInt) {cls : CInt} (h : cls.toNat < 128) :
    genericOf (withClass c cls) = genericOf c := by
  rw [genericOf, genericOf, show 256 = 128 * 2 from rfl, ← Nat.div_div_eq_div_mul,
    ← Nat.div_div_eq_div_mul c.toNat, toNat_withClass_div c h]

theorem errorGetClass_withClass (c : CInt) {cls : CInt} (h : cls.toNat < 128) :
    errorGetClass (withClass c cls) = cls :=
  BitVec.eq_of_toNat_eq (by rw [toNat_errorGetClass, toNat_withClass c h]; omega)

theorem withClass_withClass (c : CInt) {cls cls' : CInt} (h : cls.toNat < 128)
    (h' : cls'.toNat < 128) : withClass (withClass c cls) cls' = withClass c cls' :=
  BitVec.eq_of_toNat_eq (by
    rw [toNat_withClass _ h', toNat_withClass _ h', toNat_withClass _ h]; omega)

theorem seqOf_withClass (c : CInt) {cls : CInt} (h : cls.toNat < 128) :
    seqOf (withClass c cls) = seqOf c := by
  rw [seqOf, seqOf, show 67108864 = 128 * 524288 from rfl, ← Nat.div_div_eq_div_mul,
    ← Nat.div_div_eq_div_mul c.toNat, toNat_withClass_div c h]

/-- A create's code matches the slot it wrote under its own class only: under another class its
masked fields differ from the id, and for a text with bytes above 127 no masked code matches
the id. -/
theorem withClass_createCode_eq (hc : errorClass.toNat < 128) {cls : CInt}
    (hcls : cls.toNat < 128)
    (h : withClass (createCode K s lastcode errorClass fatal genericMsg specificMsg args) cls &&&
      ringIdMask =
        (createEntry K s lastcode errorClass fcname line genericMsg specificMsg args).id) :
    withClass (createCode K s lastcode errorClass fatal genericMsg specificMsg args) cls =
      createCode K s lastcode errorClass fatal genericMsg specificMsg args := by
  set x := createCode K s lastcode errorClass fatal genericMsg specificMsg args
  have hl := s.loc_le.trans_lt s.max_lt
  have hf := genericField_lt K genericMsg
  have hb := Bool.toNat_lt (fatal || mpirErrIsFatal lastcode)
  simp only [maxErrorRing, errorSpecificIndexSize] at hl
  have hfields : x.toNat % 128 = errorClass.toNat ∧ genericOf x = genericField K genericMsg ∧
      ringIdxOf x = s.errorRingLoc ∧
      seqOf x = (createSeq K errorClass genericMsg specificMsg args % 64).toNat % 16 :=
    layout_fields_seq hc hb hf hl (toNat_createCode_seq hc)
  have h' := congrArg BitVec.toNat h
  rw [toNat_and_ringIdMask, toNat_createEntry_id_seq hc, genericOf_withClass x hcls,
    seqOf_withClass x hcls, toNat_withClass x hcls] at h'
  refine withClass_self (BitVec.eq_of_toNat_eq ?_)
  rw [toNat_errorGetClass]
  omega

/-! ## Codes in play -/

section Play

variable (K)

/-- A code a run holds, as a `prev_error` or as a code it handed out, that no create or combine can
turn into a new link: it names no generic message or a slot already written, and when its class
is `MPI_ERR_OTHER`, giving it another class links it nowhere it did not link before. -/
structure InPlay (s : Ring) (c : CInt) : Prop where
  written : genericOf c = 0 ∨ ringIdxOf c < s.errorRingLoc
  other : errorGetClass c = BitVec.ofNat 32 K.mpiErrOther → ∀ cls : CInt, cls.toNat < 128 →
    ∀ j, s.link? (withClass c cls) = some j → s.link? c = some j

variable {K}

/-- Writing the slot at the cursor changes the link of no code that names no generic message or a
written slot. -/
theorem link?_push_of_written {s : Ring} {e : ErrMsg} {c : CInt}
    (hz : ∀ j, s.maxErrorRingLoc < j → s.errorRing j = .zero)
    (h : genericOf c = 0 ∨ ringIdxOf c < s.errorRingLoc) : (s.push e).link? c = s.link? c := by
  rcases h with h | h
  · rw [link?_of_genericOf_eq_zero h, link?_of_genericOf_eq_zero h]
  · exact Ring.link?_push_of_ringIdx_ne hz (by omega)

namespace InPlay

variable {s : Ring} {c : CInt}

/-- A code that names no generic message never links, under any class. -/
theorem of_genericOf_eq_zero (h : genericOf c = 0) : InPlay K s c :=
  ⟨.inl h, fun _ cls hcls j hj => by
    rw [link?_of_genericOf_eq_zero (by rw [genericOf_withClass c hcls, h])] at hj
    cases hj⟩

theorem success (s : Ring) : InPlay K s mpiSuccess := of_genericOf_eq_zero rfl

/-- A combine keeps every code in play: it changes no id and not the cursor. -/
theorem prevsOnly (h : InPlay K s c) {s' : Ring} (hs : s.PrevsOnly s') : InPlay K s' c :=
  ⟨by rw [hs.loc_eq]; exact h.written, fun ho cls hcls j hj => by
    rw [hs.link?_eq] at hj ⊢; exact h.other ho cls hcls j hj⟩

/-- A write at the cursor, which then advances, keeps every code in play. -/
theorem push (h : InPlay K s c) (hz : ∀ j, s.maxErrorRingLoc < j → s.errorRing j = .zero)
    (e : ErrMsg) (hloc : s.errorRingLoc < s.nextLoc) : InPlay K (s.push e) c where
  written := h.written.imp id fun h' => h'.trans hloc
  other ho cls hcls j hj := by
    have hw : genericOf (withClass c cls) = 0 ∨ ringIdxOf (withClass c cls) < s.errorRingLoc := by
      rw [genericOf_withClass c hcls, ringIdxOf_withClass c hcls]; exact h.written
    rw [link?_push_of_written hz hw] at hj
    rw [link?_push_of_written hz h.written]
    exact h.other ho cls hcls j hj

/-- A code in play of class `MPI_ERR_OTHER` stays in play under a new class. -/
theorem rewrite (h : InPlay K s c) (hc : errorGetClass c = BitVec.ofNat 32 K.mpiErrOther)
    {cls : CInt} (hcls : cls.toNat < 128) : InPlay K s (withClass c cls) where
  written := by rw [genericOf_withClass c hcls, ringIdxOf_withClass c hcls]; exact h.written
  other ho cls' hcls' j hj := by
    rw [errorGetClass_withClass c hcls] at ho
    rw [withClass_withClass c hcls hcls'] at hj
    rw [ho, withClass_self hc]
    exact h.other hc cls' hcls' j hj

end InPlay

/-- The code a create returns is in play in the ring it wrote. -/
theorem inPlay_createCode (hc : errorClass.toNat < 128) (hloc : s.errorRingLoc < s.nextLoc) :
    InPlay K (s.push (createEntry K s lastcode errorClass fcname line genericMsg specificMsg args))
      (createCode K s lastcode errorClass fatal genericMsg specificMsg args) where
  written := .inr (by rw [ringIdxOf_createCode_seq hc]; exact hloc)
  other _ cls hcls j hj := by
    obtain ⟨-, -, -, hid⟩ := link?_eq_some.mp hj
    rw [ringIdxOf_withClass _ hcls, ringIdxOf_createCode_seq hc, Ring.push_errorRing,
      if_pos rfl] at hid
    rwa [withClass_createCode_eq hc hcls hid.symm] at hj

/-- `MPI_ERR_IN_STATUS`, returned as a code, names no generic message. -/
theorem genericOf_inStatus : genericOf (BitVec.ofNat 32 K.mpiErrInStatus) = 0 := by
  have := K.inStatus_le; have := K.lastClass_lt; have := K.firstMpix_lt; have := K.lastMpix_lt
  simp only [genericOf, BitVec.toNat_ofNat]
  omega

end Play

/-! ## Walks that end -/

/-- A finished walk from the `prev_error` of slot `i` never visits `i`: from there it would
repeat itself. -/
theorem Chain.not_mem_of_prev {s : Ring} {i : Nat} {es : List Nat} {t : CInt}
    (h : Chain s (s.errorRing i).prevError es t) : i ∉ es := by
  intro hi
  obtain ⟨k, hk, hki⟩ := List.mem_iff_getElem.mp hi
  have h' := h.drop_succ k hk
  rw [hki] at h'
  have := congrArg List.length (Chain.unique h h').1
  simp only [List.length_drop] at this
  omega

/-- Pointing slot `i` at a code whose walk ends without visiting `i` keeps a walk that ended
finite. -/
theorem Chain.setPrev_exists {s : Ring} {c t : CInt} {es : List Nat} (h : Chain s c es t)
    {i : Nat} {v : CInt} (hv : ∃ es t, Chain s v es t ∧ i ∉ es) :
    ∃ es t, Chain (s.setPrev i v) c es t := by
  induction h with
  | stop hc => exact ⟨[], _, .stop (by rwa [Ring.link?_setPrev])⟩
  | @step c k es t hc _ ih =>
    by_cases hk : k = i
    · subst hk
      obtain ⟨esv, tv, hv, hi⟩ := hv
      exact ⟨_, tv, .step (by rwa [Ring.link?_setPrev]) (by simpa using hv.setPrev_of_not_mem hi)⟩
    · obtain ⟨es', t', h'⟩ := ih
      exact ⟨_, t', .step (by rwa [Ring.link?_setPrev]) (by simpa [hk] using h')⟩

/-- A walk whose codes all name no generic message or a written slot is the same walk after a
write at the cursor. -/
theorem Chain.push_of_written {s : Ring} {e : ErrMsg}
    (hz : ∀ j, s.maxErrorRingLoc < j → s.errorRing j = .zero)
    (hp : ∀ j, genericOf (s.errorRing j).prevError = 0 ∨
      ringIdxOf (s.errorRing j).prevError < s.errorRingLoc)
    {c t : CInt} {es : List Nat} (h : Chain s c es t)
    (hc : genericOf c = 0 ∨ ringIdxOf c < s.errorRingLoc) : Chain (s.push e) c es t := by
  induction h with
  | stop hn => exact .stop (by rwa [link?_push_of_written hz hc])
  | @step c i es t hl _ ih =>
    have hi : i ≠ s.errorRingLoc := by
      obtain ⟨rfl, -, hg, -⟩ := link?_eq_some.mp hl
      omega
    refine .step (by rwa [link?_push_of_written hz hc]) ?_
    rw [Ring.push_errorRing, if_neg hi]
    exact ih (hp i)

/-- After a write at the cursor whose `prev_error`, like every other, names no generic message or
a written slot, every walk still ends. -/
theorem walks_push {s : Ring} {e : ErrMsg}
    (hz : ∀ j, s.maxErrorRingLoc < j → s.errorRing j = .zero)
    (hp : ∀ j, genericOf (s.errorRing j).prevError = 0 ∨
      ringIdxOf (s.errorRing j).prevError < s.errorRingLoc)
    (hw : ∀ c, ∃ es t, Chain s c es t)
    (he : genericOf e.prevError = 0 ∨ ringIdxOf e.prevError < s.errorRingLoc) (c : CInt) :
    ∃ es t, Chain (s.push e) c es t := by
  cases hc : (s.push e).link? c with
  | none => exact ⟨[], c, .stop hc⟩
  | some i =>
    have hprev : ∃ es t, Chain (s.push e) ((s.push e).errorRing i).prevError es t := by
      rw [Ring.push_errorRing]
      split
      · obtain ⟨es, t, h⟩ := hw e.prevError
        exact ⟨es, t, h.push_of_written hz hp he⟩
      · obtain ⟨es, t, h⟩ := hw (s.errorRing i).prevError
        exact ⟨es, t, h.push_of_written hz hp (hp i)⟩
    obtain ⟨es, t, h⟩ := hprev
    exact ⟨i :: es, t, .step hc h⟩


/-! ## Acyclic rings -/

variable (K) in
/-- A ring in which every walk ends and every `prev_error` is in play. -/
structure Ring.Acyclic (s : Ring) : Prop where
  walks : ∀ c, ∃ es t, Chain s c es t
  prev : ∀ j, InPlay K s (s.errorRing j).prevError

/-- Setting a `prev_error` at or below the high-water mark rewrites nothing else. -/
theorem Ring.setPrev_prevsOnly {s : Ring} {i : Nat} (hi : i ≤ s.maxErrorRingLoc) (v : CInt) :
    s.PrevsOnly (s.setPrev i v) :=
  ⟨rfl, rfl, fun j => by by_cases h : j = i <;> simp [ErrMsg.SamePrev, h],
    fun j hj => by rw [Ring.setPrev_errorRing, if_neg (by omega)]⟩

/-- Pointing slot `i` at a code in play whose walk ends without visiting `i` keeps the ring
acyclic. -/
theorem Ring.Acyclic.setPrev {s : Ring} (hs : s.Acyclic K) {i : Nat} (hi : i ≤ s.maxErrorRingLoc)
    {v : CInt} (hv : ∃ es t, Chain s v es t ∧ i ∉ es) (hvp : InPlay K s v) :
    (s.setPrev i v).Acyclic K where
  walks c := by
    obtain ⟨es, t, h⟩ := hs.walks c
    exact h.setPrev_exists hv
  prev j := by
    have hp := Ring.setPrev_prevsOnly hi v
    rw [Ring.setPrev_errorRing]
    split
    · exact hvp.prevsOnly hp
    · exact (hs.prev j).prevsOnly hp

/-- The class rewrite of the `prev_error` of slot `i` has a walk that ends without visiting `i`: it
links, if at all, where the old `prev_error` did. -/
theorem Ring.Acyclic.rewrite_walk {s : Ring} (hs : s.Acyclic K) (i : Nat)
    (ho : errorGetClass (s.errorRing i).prevError = BitVec.ofNat 32 K.mpiErrOther)
    {cls : CInt} (hcls : cls.toNat < 128) :
    ∃ es t, Chain s (withClass (s.errorRing i).prevError cls) es t ∧ i ∉ es := by
  cases hv : s.link? (withClass (s.errorRing i).prevError cls) with
  | none => exact ⟨[], _, .stop hv, List.not_mem_nil _⟩
  | some j =>
    have hj := (hs.prev i).other ho cls hcls j hv
    obtain ⟨es, t, h⟩ := hs.walks (s.errorRing i).prevError
    have hni := h.not_mem_of_prev
    generalize (s.errorRing i).prevError = p at h hj hni hv
    cases h with
    | stop hn => rw [hn] at hj; cases hj
    | step hl hr =>
      rw [hl] at hj; cases hj
      exact ⟨_, _, .step hv hr, hni⟩

variable (K) in
/-- A pass of the append loop: nothing, the append of `error2` at a `MPI_SUCCESS` link, or the
class rewrite of an `MPI_ERR_OTHER` link. -/
theorem combineStep_spec (b cls : CInt) (s : Ring) (i : Nat) :
    combineStep K b cls s i = s ∨
      ((s.errorRing i).prevError = mpiSuccess ∧ combineStep K b cls s i = s.setPrev i b) ∨
      (errorGetClass (s.errorRing i).prevError = BitVec.ofNat 32 K.mpiErrOther ∧
        combineStep K b cls s i = s.setPrev i (withClass (s.errorRing i).prevError cls)) := by
  dsimp only [combineStep]
  split
  · exact .inr (.inl ⟨‹_›, rfl⟩)
  · split
    · exact .inr (.inr ⟨‹_›, rfl⟩)
    · exact .inl rfl

/-- The append loop keeps a ring acyclic when `error2` is in play and its walk shares no slot
with the walk of `error1`: each pass points a slot of that walk at `error2`, whose walk avoids it,
or rewrites a class, which links nowhere new. -/
theorem combineSpecificCodes_acyclic : ∀ {n : Nat} {s s' : Ring} {c b cls tA tB : CInt}
    {esA esB : List Nat}, s.Acyclic K → InPlay K s b → cls.toNat < 128 → Chain s c esA tA →
    Chain s b esB tB → (∀ i ∈ esA, i ∉ esB) → combineSpecificCodes K n s c b cls = .ok s' →
    s'.Acyclic K
  | 0, _, _, _, _, _, _, _, _, _, _, _, _, _, _, _, h => by simp [combineSpecificCodes] at h
  | n + 1, s, s', c, b, cls, tA, tB, esA, esB, hs, hb, hcls, hA, hB, hd, h => by
    simp only [combineSpecificCodes] at h
    split at h
    · cases h; exact hs
    · rename_i i hi
      have hnd := hA.nodup
      cases hA with
      | stop hn => rw [hn] at hi; cases hi
      | @step _ i' es' _ hl hr =>
        rw [hl] at hi; cases hi
        have hmax : i ≤ s.maxErrorRingLoc := by
          obtain ⟨rfl, hm, -⟩ := link?_eq_some.mp hl; exact hm
        have hiB : i ∉ esB := hd i (List.mem_cons_self _ _)
        have hstep : (combineStep K b cls s i).Acyclic K := by
          rcases combineStep_spec K b cls s i with e | ⟨-, e⟩ | ⟨ho, e⟩ <;> rw [e]
          · exact hs
          · exact hs.setPrev hmax ⟨esB, tB, hB, hiB⟩ hb
          · exact hs.setPrev hmax (hs.rewrite_walk i ho hcls) ((hs.prev i).rewrite ho hcls)
        have hframe : ∀ {x t es}, Chain s x es t → i ∉ es →
            Chain (combineStep K b cls s i) x es t := by
          intro x t es h' hi'
          rcases combineStep_cases K b cls s i with e | ⟨v, e⟩ <;> rw [e]
          · exact h'
          · exact h'.setPrev_of_not_mem hi'
        split at h
        · cases h; exact hstep
        · exact combineSpecificCodes_acyclic hstep (hb.prevsOnly (combineStep_prevsOnly K hmax))
            hcls (hframe hr (List.nodup_cons.mp hnd).1) (hframe hB hiB)
            (fun k hk => hd k (List.mem_cons_of_mem _ hk)) h

/-- A combine returns `error1`, `error2`, or `error1` with the class of `error2` in place of
`MPI_ERR_OTHER`. -/
theorem mpirErrCombineCodes_code_cases {n : Nat} {s s' : Ring} {a b r : CInt}
    (h : mpirErrCombineCodes K n s a b = .ok (r, s')) :
    r = a ∨ r = b ∨
      (errorGetClass a = BitVec.ofNat 32 K.mpiErrOther ∧ r = withClass a (error2ClassOf K b)) := by
  by_cases ha : a = mpiSuccess
  · rw [mpirErrCombineCodes, if_pos ha] at h; cases h; exact .inr (.inl rfl)
  by_cases hb : b = mpiSuccess
  · rw [mpirErrCombineCodes, if_neg ha, if_pos hb] at h; cases h; exact .inl rfl
  by_cases hda : a &&& errorDynMask ≠ 0
  · rw [mpirErrCombineCodes, if_neg ha, if_neg hb, if_pos hda] at h; cases h; exact .inl rfl
  by_cases hdb : b &&& errorDynMask ≠ 0
  · rw [mpirErrCombineCodes, if_neg ha, if_neg hb, if_neg hda, if_pos hdb] at h; cases h
    exact .inr (.inl rfl)
  rw [(mpirErrCombineCodes_ok K ha hb (not_not.mp hda) (not_not.mp hdb) h).2]
  split
  · exact .inr (.inr ⟨‹_›, rfl⟩)
  · exact .inl rfl


/-! ## Loops that end -/

/-- The append loop ends once it has a pass for every slot of the walk of `error1`: a pass rewrites
only the slot it stands on, which the rest of the walk never visits. -/
theorem combineSpecificCodes_ends : ∀ {n : Nat} {s : Ring} {c b cls t : CInt} {es : List Nat},
    Chain s c es t → es.length < n → ∃ s', combineSpecificCodes K n s c b cls = .ok s'
  | 0, _, _, _, _, _, _, _, hn => absurd hn (Nat.not_lt_zero _)
  | n + 1, s, c, b, cls, t, es, hc, hn => by
    have hnd := hc.nodup
    cases hc with
    | stop hl => exact ⟨s, by simp only [combineSpecificCodes, hl]⟩
    | @step _ i es' _ hl hr =>
      simp only [combineSpecificCodes, hl]
      split
      · exact ⟨_, rfl⟩
      · have hr' : Chain (combineStep K b cls s i) (s.errorRing i).prevError es' t := by
          rcases combineStep_cases K b cls s i with e | ⟨v, e⟩ <;> rw [e]
          · exact hr
          · exact hr.setPrev_of_not_mem (List.nodup_cons.mp hnd).1
        exact combineSpecificCodes_ends hr' (by simp only [List.length_cons] at hn; omega)

/-! ## Runs before the wrap -/

variable (K) in
/-- The runs of `Reachable` whose creates pass a class inside the class field, with the number of
creates made. -/
inductive ClassRun : Nat → Ring → List CInt → Prop
  | init : ClassRun 0 Ring.init []
  | create {m : Nat} {s : Ring} {codes : List CInt} (lastcode : CInt) (fatal : Bool)
      (fcname : Option CStr) (line : Int) (errorClass : CInt) (genericMsg : CStr)
      (specificMsg : Option CStr) (args : List VaArg) :
      ClassRun m s codes → lastcode = mpiSuccess ∨ lastcode ∈ codes → errorClass.toNat < 128 →
      ClassRun (m + 1)
        (mpirErrCreateCodeValist K s lastcode fatal fcname line errorClass genericMsg specificMsg
          args).2
        ((mpirErrCreateCodeValist K s lastcode fatal fcname line errorClass genericMsg
          specificMsg args).1 :: codes)
  | combine {m : Nat} {s s' : Ring} {codes : List CInt} {a b r : CInt} (n : Nat) :
      ClassRun m s codes → a ∈ codes → b ∈ codes →
      (∀ esA esB tA tB, Chain s a esA tA → Chain s b esB tB → ∀ i ∈ esA, i ∉ esB) →
      mpirErrCombineCodes K n s a b = .ok (r, s') → ClassRun m s' (r :: codes)

/-- Every such run is a run of `Reachable`. -/
theorem ClassRun.reachable {m : Nat} {s : Ring} {codes : List CInt} (h : ClassRun K m s codes) :
    Reachable K s codes := by
  induction h with
  | init => exact .init
  | create lastcode fatal fcname line errorClass genericMsg specificMsg args _ hl _ ih =>
    exact .create lastcode fatal fcname line errorClass genericMsg specificMsg args ih hl
  | combine n _ ha hb hd hc ih => exact .combine n ih ha hb hd hc

variable (K) in
/-- What a run keeps while the cursor has not wrapped: the ring is acyclic, the cursor has moved
once per create at most, and every code handed out is in play. -/
structure Unwrapped (s : Ring) (codes : List CInt) (m : Nat) : Prop where
  acyclic : s.Acyclic K
  loc_le : s.errorRingLoc ≤ m
  codes : ∀ c ∈ codes, InPlay K s c

namespace Unwrapped

variable {s : Ring} {codes : List CInt} {m : Nat}

/-- The zeroed ring: no code links anywhere. -/
theorem init : Unwrapped K Ring.init [] 0 where
  acyclic := ⟨fun c => by
      cases hc : Ring.init.link? c with
      | none => exact ⟨[], c, .stop hc⟩
      | some i => exact (link?_ne_of_zero hc rfl).elim,
    fun _ => .success _⟩
  loc_le := Nat.le_refl 0
  codes _ h := absurd h (List.not_mem_nil _)

/-- A create before the wrap writes a fresh slot that no code in play names, pointed at a code in
play, and hands out a code in play. -/
theorem create (hu : Unwrapped K s codes m)
    (hz : ∀ j, s.maxErrorRingLoc < j → s.errorRing j = .zero)
    (hm : m + 1 < maxErrorRing) (hl : lastcode = mpiSuccess ∨ lastcode ∈ codes)
    (hcls : errorClass.toNat < 128) :
    Unwrapped K
      (mpirErrCreateCodeValist K s lastcode fatal fcname line errorClass genericMsg specificMsg
        args).2
      ((mpirErrCreateCodeValist K s lastcode fatal fcname line errorClass genericMsg specificMsg
        args).1 :: codes) (m + 1) := by
  have hlp : InPlay K s (checkedLastcode K s lastcode) := by
    unfold checkedLastcode
    split
    · exact .success s
    · rcases hl with rfl | hl
      exacts [.success s, hu.codes _ hl]
  by_cases hin : effectiveClass K (checkedLastcode K s lastcode) errorClass =
      BitVec.ofNat 32 K.mpiErrInStatus
  · simp only [mpirErrCreateCodeValist, hin, if_true]
    exact ⟨hu.acyclic, Nat.le_succ_of_le hu.loc_le,
      List.forall_mem_cons.mpr ⟨.of_genericOf_eq_zero genericOf_inStatus, hu.codes⟩⟩
  rw [mpirErrCreateCodeValist_of_ne K hin]
  have hc : (effectiveClass K (checkedLastcode K s lastcode) errorClass).toNat < 128 :=
    effectiveClass_lt K hcls
  have hnext : s.nextLoc = s.errorRingLoc + 1 := by
    have := hu.loc_le
    rw [Ring.nextLoc_eq]; simp only [maxErrorRing, errorSpecificIndexSize] at hm ⊢; omega
  have hloc : s.errorRingLoc < s.nextLoc := by omega
  refine ⟨⟨walks_push hz (fun j => (hu.acyclic.prev j).written) hu.acyclic.walks hlp.written,
    fun j => ?_⟩, ?_, List.forall_mem_cons.mpr ⟨inPlay_createCode hc hloc,
      fun c hc' => (hu.codes c hc').push hz _ hloc⟩⟩
  · rw [Ring.push_errorRing]
    split
    · exact hlp.push hz _ hloc
    · exact (hu.acyclic.prev j).push hz _ hloc
  · show s.nextLoc ≤ m + 1
    have := hu.loc_le
    omega

/-- A combine of two codes in play with walks that share no slot keeps the ring acyclic, and
hands out a code in play. -/
theorem combine (hu : Unwrapped K s codes m) {s' : Ring} {a b r : CInt} {n : Nat}
    (ha : a ∈ codes) (hb : b ∈ codes)
    (hd : ∀ esA esB tA tB, Chain s a esA tA → Chain s b esB tB → ∀ i ∈ esA, i ∉ esB)
    (h : mpirErrCombineCodes K n s a b = .ok (r, s')) : Unwrapped K s' (r :: codes) m := by
  have hp := mpirErrCombineCodes_prevsOnly K h
  have hr : InPlay K s r := by
    rcases mpirErrCombineCodes_code_cases h with rfl | rfl | ⟨ho, rfl⟩
    · exact hu.codes _ ha
    · exact hu.codes _ hb
    · exact (hu.codes a ha).rewrite ho (error2ClassOf_lt K b)
  refine ⟨?_, by rw [hp.loc_eq]; exact hu.loc_le,
    List.forall_mem_cons.mpr ⟨hr.prevsOnly hp, fun c hc => (hu.codes c hc).prevsOnly hp⟩⟩
  rcases mpirErrCombineCodes_ring_cases h with rfl | hcs
  · exact hu.acyclic
  · obtain ⟨esA, tA, hA⟩ := hu.acyclic.walks a
    obtain ⟨esB, tB, hB⟩ := hu.acyclic.walks b
    exact combineSpecificCodes_acyclic hu.acyclic (hu.codes b hb) (error2ClassOf_lt K b) hA hB
      (hd _ _ _ _ hA hB) hcs

end Unwrapped

/-- Every run of fewer than `MAX_ERROR_RING` creates keeps its ring unwrapped. -/
theorem ClassRun.unwrapped {m : Nat} {s : Ring} {codes : List CInt} (h : ClassRun K m s codes)
    (hm : m < maxErrorRing) : Unwrapped K s codes m := by
  induction h with
  | init => exact .init
  | create lastcode fatal fcname line errorClass genericMsg specificMsg args hr hl hcls ih =>
    exact (ih (by omega)).create hr.reachable.above_max hm hl hcls
  | combine n _ ha hb hd hc ih => exact (ih hm).combine ha hb hd hc

/-- Before the ring wraps, every walk ends: in a run of fewer than `MAX_ERROR_RING` creates whose
classes fit the class field, from every code the chain loop reaches its end within
`MAX_ERROR_RING + 1` steps. -/
theorem ClassRun.walks_end {m : Nat} {s : Ring} {codes : List CInt} (h : ClassRun K m s codes)
    (hm : m < maxErrorRing) (c : CInt) :
    ∃ es t, Chain s c es t ∧ s.walk (maxErrorRing + 1) c = .ok (es, t) := by
  obtain ⟨es, t, hc⟩ := (h.unwrapped hm).acyclic.walks c
  exact ⟨es, t, hc, Ring.walk_of_chain hc⟩

/-- Before the ring wraps, every `MPIR_Err_combine_codes` ends: in a run of fewer than
`MAX_ERROR_RING` creates whose classes fit the class field, the append loop finishes within
`MAX_ERROR_RING + 1` passes, whatever the two codes. -/
theorem ClassRun.combine_ends {m : Nat} {s : Ring} {codes : List CInt} (h : ClassRun K m s codes)
    (hm : m < maxErrorRing) (a b : CInt) :
    ∃ r s', mpirErrCombineCodes K (maxErrorRing + 1) s a b = .ok (r, s') := by
  obtain ⟨es, t, hc⟩ := (h.unwrapped hm).acyclic.walks a
  obtain ⟨s', hs'⟩ : ∃ s', combineSpecificCodes K (maxErrorRing + 1) s a b (error2ClassOf K b) =
      .ok s' := combineSpecificCodes_ends hc (Nat.lt_succ_of_le hc.length_le)
  by_cases ha : a = mpiSuccess
  · exact ⟨_, _, by rw [mpirErrCombineCodes, if_pos ha]⟩
  by_cases hb : b = mpiSuccess
  · exact ⟨_, _, by rw [mpirErrCombineCodes, if_neg ha, if_pos hb]⟩
  by_cases hda : a &&& errorDynMask ≠ 0
  · exact ⟨_, _, by rw [mpirErrCombineCodes, if_neg ha, if_neg hb, if_pos hda]⟩
  by_cases hdb : b &&& errorDynMask ≠ 0
  · exact ⟨_, _, by rw [mpirErrCombineCodes, if_neg ha, if_neg hb, if_neg hda, if_pos hdb]⟩
  rw [mpirErrCombineCodes_eq_map K ha hb (not_not.mp hda) (not_not.mp hdb), hs']
  exact ⟨_, _, rfl⟩


/-- The run of one `**fail` create. -/
theorem classRun_pop : ClassRun Config.sample 1 (popRing 1) [wrapCode] :=
  .create mpiSuccess false (some "f") 1 1 "**fail" none [] .init (.inl rfl) (by decide)

set_option maxRecDepth 8000 in
/-- After one `**fail` create, the walk from its code visits slot 0 and stops at `MPI_SUCCESS`. -/
theorem walks_end_pop :
    ClassRun Config.sample 1 (popRing 1) [wrapCode] ∧ 1 < maxErrorRing ∧
      ∃ es t, Chain (popRing 1) wrapCode es t ∧
        (popRing 1).walk (maxErrorRing + 1) wrapCode = .ok (es, t) :=
  ⟨classRun_pop, by decide, classRun_pop.walks_end (by decide) wrapCode⟩

set_option maxRecDepth 8000 in
/-- Combining the first `**fail` code with itself ends too, though it points slot 0 at itself. -/
theorem combine_ends_pop :
    ClassRun Config.sample 1 (popRing 1) [wrapCode] ∧ 1 < maxErrorRing ∧
      ∃ r s', mpirErrCombineCodes Config.sample (maxErrorRing + 1) (popRing 1) wrapCode wrapCode =
        .ok (r, s') :=
  ⟨classRun_pop, by decide, classRun_pop.combine_ends (by decide) wrapCode wrapCode⟩

end MpichErrhan
