import MpichErrhan.Create

/-!
# `MPIR_Err_combine_codes`: merging two chains

`MPIR_Err_combine_codes(error1, error2)` returns a success argument's partner, a dynamic
argument (the first when both are), and otherwise `error1`, after appending `error2` to the
chain of `error1`.  `CombineSpecificCodes` does the append: it walks the chain of `error1`, and
on every slot it passes whose `prev_error` has class `MPI_ERR_OTHER` it rewrites that class
to the class of `error2`; the slot whose `prev_error` is `MPI_SUCCESS` receives `error2`, and
the walk ends.  When the chain ends at a rejected link instead, nothing is appended.  Finally
`error1` itself takes the class of `error2` when its own class is `MPI_ERR_OTHER`.

The walk is a chain loop (`Ring.link?`) over a ring it rewrites as it goes, so a chain that
cycles can still end: a rewritten class cuts the cycle at its second visit.  The loop is
therefore modelled with its number of passes as a parameter, and the results hold for every
run that ends.

Because the class is part of the id a slot is checked against, both rewrites take links out
of the chains they were meant to extend; `Combine.lean` states what the routine does and the
results about chains are proved under the condition that no rewrite fires.
-/

namespace MpichErrhan

/-- `ErrorRing[i].prev_error = c`. -/
def Ring.setPrev (s : Ring) (i : Nat) (c : CInt) : Ring :=
  { s with errorRing := fun j => if j = i then { s.errorRing i with prevError := c }
                                 else s.errorRing j }

@[simp] theorem Ring.setPrev_errorRing (s : Ring) (i : Nat) (c : CInt) (j : Nat) :
    (s.setPrev i c).errorRing j =
      if j = i then { s.errorRing i with prevError := c } else s.errorRing j := rfl

@[simp] theorem Ring.setPrev_maxErrorRingLoc (s : Ring) (i : Nat) (c : CInt) :
    (s.setPrev i c).maxErrorRingLoc = s.maxErrorRingLoc := rfl

@[simp] theorem Ring.setPrev_errorRingLoc (s : Ring) (i : Nat) (c : CInt) :
    (s.setPrev i c).errorRingLoc = s.errorRingLoc := rfl

/-- Rewriting a `prev_error` leaves every chain test as it was: the test reads ids only. -/
@[simp] theorem Ring.link?_setPrev (s : Ring) (i : Nat) (c x : CInt) :
    (s.setPrev i c).link? x = s.link? x := by
  simp only [link?_eq, Ring.setPrev_errorRing, Ring.setPrev_maxErrorRingLoc]
  split <;> simp_all

variable (K : Config)

/-- The class `error2_class`: the class of `error2`, or `MPI_ERR_OTHER` when out of range. -/
def error2ClassOf (error2 : CInt) : CInt :=
  let c := errorGetClass error2
  if c.toInt < 0 ∨ c.toInt > K.mpichErrLastMpix then BitVec.ofNat 32 K.mpiErrOther else c

/-- `(code & ~ERROR_CLASS_MASK) | cls`. -/
def withClass (code cls : CInt) : CInt := (code &&& ~~~errorClassMask) ||| cls

/-- One pass of the loop of `CombineSpecificCodes` at slot `i`: the append when the link is
`MPI_SUCCESS`, else the class rewrite of an `MPI_ERR_OTHER` link. -/
def combineStep (error2Code error2Class : CInt) (s : Ring) (i : Nat) : Ring :=
  let prev := (s.errorRing i).prevError
  if prev = mpiSuccess then s.setPrev i error2Code
  else if errorGetClass prev = BitVec.ofNat 32 K.mpiErrOther then
    s.setPrev i (withClass prev error2Class)
  else s

/-- `CombineSpecificCodes(error1_code, error2_code, error2_class)`, allowed `fuel` passes of
its loop; a run that needs more is `Fault.diverges`. -/
def combineSpecificCodes : (fuel : Nat) → (s : Ring) → (error1Code error2Code error2Class : CInt) →
    Except Fault Ring
  | 0, _, _, _, _ => .error .diverges
  | n + 1, s, errorCode, error2Code, error2Class =>
    match s.link? errorCode with
    | none => .ok s
    | some i =>
      let prev := (s.errorRing i).prevError
      if prev = mpiSuccess then .ok (combineStep K error2Code error2Class s i)
      else combineSpecificCodes n (combineStep K error2Code error2Class s i) prev error2Code
        error2Class

/-- `MPIR_Err_combine_codes(error1, error2)`: the returned code and the ring after it, with
`fuel` passes of the append loop. -/
def mpirErrCombineCodes (fuel : Nat) (s : Ring) (error1 error2 : CInt) :
    Except Fault (CInt × Ring) :=
  if error1 = mpiSuccess then .ok (error2, s)
  else if error2 = mpiSuccess then .ok (error1, s)
  else if error1 &&& errorDynMask ≠ 0 then .ok (error1, s)
  else if error2 &&& errorDynMask ≠ 0 then .ok (error2, s)
  else do
    let error2Class := error2ClassOf K error2
    let s ← combineSpecificCodes K fuel s error1 error2 error2Class
    pure (if errorGetClass error1 = BitVec.ofNat 32 K.mpiErrOther then withClass error1 error2Class
      else error1, s)

/-! ## What a combine returns -/

theorem toNat_withClass (code : CInt) {cls : CInt} (h : cls.toNat < 128) :
    (withClass code cls).toNat = code.toNat - code.toNat % 128 + cls.toNat := by
  have hm : (~~~errorClassMask).toNat = 2 ^ 7 * (2 ^ 25 - 1) := by decide
  rw [withClass, toNat_or_of_lt (k := 7) _ h, toNat_and_mask hm]
  · omega
  · rw [toNat_and_mask hm]; omega

theorem error2ClassOf_lt (error2 : CInt) : (error2ClassOf K error2).toNat < 128 := by
  have := K.other_le; have := K.lastClass_lt; have := K.firstMpix_lt; have := K.lastMpix_lt
  simp only [error2ClassOf]
  split
  · simp only [BitVec.toNat_ofNat]; omega
  · simp only [toNat_errorGetClass]; omega

/-- For two non-success, non-dynamic codes, the result is `error1` with at most its class
changed, whenever the append loop ends. -/
theorem mpirErrCombineCodes_ok {n : Nat} {s s' : Ring} {a b r : CInt} (ha : a ≠ mpiSuccess)
    (hb : b ≠ mpiSuccess) (hda : a &&& errorDynMask = 0) (hdb : b &&& errorDynMask = 0)
    (h : mpirErrCombineCodes K n s a b = .ok (r, s')) :
    combineSpecificCodes K n s a b (error2ClassOf K b) = .ok s' ∧
      r = if errorGetClass a = BitVec.ofNat 32 K.mpiErrOther then withClass a (error2ClassOf K b)
        else a := by
  simp only [mpirErrCombineCodes, ha, hb, hda, hdb, if_false, ne_eq, not_true_eq_false] at h
  cases hc : combineSpecificCodes K n s a b (error2ClassOf K b) with
  | error e => simp [hc] at h
  | ok s₁ =>
    simp only [hc, bind, Except.bind, pure, Except.pure, Except.ok.injEq, Prod.mk.injEq] at h
    exact ⟨h.2 ▸ rfl, h.1.symm⟩

/-- A combine of non-success, non-dynamic codes keeps the fatal and dynamic bits of `error1`:
it is fatal exactly when `error1` is, whatever `error2` is. -/
theorem mpirErrIsFatal_combine {n : Nat} {s s' : Ring} {a b r : CInt} (ha : a ≠ mpiSuccess)
    (hb : b ≠ mpiSuccess) (hda : a &&& errorDynMask = 0) (hdb : b &&& errorDynMask = 0)
    (h : mpirErrCombineCodes K n s a b = .ok (r, s')) : mpirErrIsFatal r = mpirErrIsFatal a := by
  rw [(mpirErrCombineCodes_ok K ha hb hda hdb h).2]
  split
  · have hc := error2ClassOf_lt K b
    have hq : (a.toNat - a.toNat % 128 + (error2ClassOf K b).toNat) / 128 = a.toNat / 128 := by
      omega
    rw [Bool.eq_iff_iff, mpirErrIsFatal_iff, mpirErrIsFatal_iff, toNat_withClass a hc,
      show (1073741824 : Nat) = 128 * 8388608 from rfl, ← Nat.div_div_eq_div_mul,
      ← Nat.div_div_eq_div_mul a.toNat, hq]
  · rfl

theorem withClass_self {c cls : CInt} (h : errorGetClass c = cls) : withClass c cls = c := by
  subst h
  apply BitVec.eq_of_toNat_eq
  rw [toNat_withClass _ (by simp only [toNat_errorGetClass]; omega), toNat_errorGetClass]
  omega

/-! ## Chains through a rewrite -/

theorem Ring.setPrev_self (s : Ring) (i : Nat) : s.setPrev i (s.errorRing i).prevError = s := by
  obtain ⟨ring, loc, max, _, _⟩ := s
  simp only [Ring.setPrev, Ring.mk.injEq, and_true]
  funext j
  split <;> simp_all

/-- A pass that neither appends nor rewrites leaves the ring as it was: the link is not
`MPI_SUCCESS`, and either it is not of class `MPI_ERR_OTHER` or the new class is that one. -/
theorem combineStep_eq_self {b cls : CInt} {s : Ring} {i : Nat}
    (hz : (s.errorRing i).prevError ≠ mpiSuccess)
    (hnr : cls = BitVec.ofNat 32 K.mpiErrOther ∨
      errorGetClass (s.errorRing i).prevError ≠ BitVec.ofNat 32 K.mpiErrOther) :
    combineStep K b cls s i = s := by
  simp only [combineStep, hz, if_false]
  split
  · rename_i hc
    rw [hnr.resolve_right (not_not.mpr hc), withClass_self hc, Ring.setPrev_self]
  · rfl

namespace Chain

variable {s : Ring}

theorem eq_of_nil {c t : CInt} (h : Chain s c [] t) : t = c := by cases h; rfl

/-- A walk that does not pass slot `i` is the same walk after that slot's `prev_error`
changes. -/
theorem setPrev_of_not_mem {c t v : CInt} {es : List Nat} {i : Nat} (h : Chain s c es t)
    (hi : i ∉ es) : Chain (s.setPrev i v) c es t := by
  induction h with
  | stop hc => exact .stop (by rwa [Ring.link?_setPrev])
  | step hc _ ih =>
    rename_i j _ _ _
    have hij : j ≠ i := fun h => hi (h ▸ List.mem_cons_self _ _)
    refine .step (by rwa [Ring.link?_setPrev]) ?_
    simpa [hij] using ih (fun h => hi (List.mem_cons_of_mem _ h))

/-- Pointing the last slot of a chain that ends at `MPI_SUCCESS` at `b` appends the chain of
`b`, when the two share no slot. -/
theorem append_setPrev {a b t : CInt} {es es' : List Nat} (hA : Chain s a es mpiSuccess)
    (hne : es ≠ []) (hB : Chain s b es' t) (hdisj : ∀ i ∈ es, i ∉ es') :
    Chain (s.setPrev (es.getLast hne) b) a (es ++ es') t := by
  induction es generalizing a with
  | nil => exact absurd rfl hne
  | cons i es ih =>
    have hnd := hA.nodup
    cases hA with
    | step hc hr =>
      cases es with
      | nil =>
        refine .step (by rwa [Ring.link?_setPrev]) ?_
        simpa using hB.setPrev_of_not_mem (hdisj i (List.mem_cons_self _ _))
      | cons j es =>
        have hlast : (j :: es).getLast (List.cons_ne_nil _ _) ≠ i := fun h =>
          (List.nodup_cons.mp hnd).1 (h ▸ List.getLast_mem _)
        refine .step (by rwa [Ring.link?_setPrev]) ?_
        simpa [List.getLast_cons, Ne.symm hlast] using
          ih hr (List.cons_ne_nil _ _) fun k hk => hdisj k (List.mem_cons_of_mem _ hk)

end Chain

/-- No pass over the slots `es` rewrites a class: `cls` is `MPI_ERR_OTHER` itself, or no
`prev_error` on those slots has class `MPI_ERR_OTHER`. -/
def NoClassRewrite (s : Ring) (es : List Nat) (cls : CInt) : Prop :=
  cls = BitVec.ofNat 32 K.mpiErrOther ∨
    ∀ i ∈ es, errorGetClass (s.errorRing i).prevError ≠ BitVec.ofNat 32 K.mpiErrOther

theorem NoClassRewrite.tail {s : Ring} {cls : CInt} {i : Nat} {es : List Nat}
    (h : NoClassRewrite K s (i :: es) cls) : NoClassRewrite K s es cls :=
  h.imp_right fun h k hk => h k (List.mem_cons_of_mem _ hk)

theorem NoClassRewrite.step {s : Ring} {b cls : CInt} {i : Nat} {es : List Nat}
    (h : NoClassRewrite K s (i :: es) cls) (hz : (s.errorRing i).prevError ≠ mpiSuccess) :
    combineStep K b cls s i = s :=
  combineStep_eq_self K hz (h.imp_right fun h => h i (List.mem_cons_self _ _))

/-- When no pass rewrites a class, the append loop on a chain that ends at `MPI_SUCCESS` needs
one pass per slot and only points the last slot at `error2`. -/
theorem combineSpecificCodes_of_chain {s : Ring} {a b cls : CInt} {es : List Nat}
    (hA : Chain s a es mpiSuccess) (hne : es ≠ []) (hnr : NoClassRewrite K s es cls)
    (n : Nat) :
    combineSpecificCodes K n s a b cls =
      if es.length ≤ n then .ok (s.setPrev (es.getLast hne) b) else .error .diverges := by
  induction es generalizing a n with
  | nil => exact absurd rfl hne
  | cons i es ih =>
    cases hA with
    | step hc hr =>
      cases n with
      | zero => rfl
      | succ n =>
        simp only [combineSpecificCodes, hc]
        cases es with
        | nil =>
          have hz : (s.errorRing i).prevError = mpiSuccess := hr.eq_of_nil.symm
          simp [combineStep, hz]
        | cons j es =>
          have hz : (s.errorRing i).prevError ≠ mpiSuccess := by
            rintro h
            rw [h] at hr
            cases hr with
            | step hl _ => rw [link?_success] at hl; cases hl
          simp only [hz, if_false, hnr.step K hz]
          rw [ih hr (List.cons_ne_nil _ _) hnr.tail]
          simp [List.getLast_cons]

/-- When no pass rewrites a class, the append loop on a chain that ends at a rejected link
leaves the ring as it was. -/
theorem combineSpecificCodes_of_chain_rejected {s : Ring} {a b t cls : CInt} {es : List Nat}
    (hA : Chain s a es t) (ht : t ≠ mpiSuccess) (hnr : NoClassRewrite K s es cls) (n : Nat)
    (hn : es.length < n) : combineSpecificCodes K n s a b cls = .ok s := by
  induction es generalizing a n with
  | nil =>
    cases hA with
    | stop hc =>
      obtain ⟨m, rfl⟩ : ∃ m, n = m + 1 := ⟨n - 1, by simp at hn; omega⟩
      simp [combineSpecificCodes, hc]
  | cons i es ih =>
    cases hA with
    | step hc hr =>
      obtain ⟨m, rfl⟩ : ∃ m, n = m + 1 := ⟨n - 1, by simp at hn; omega⟩
      have hz : (s.errorRing i).prevError ≠ mpiSuccess := by
        intro h; rw [h] at hr
        cases hr with
        | stop _ => exact ht rfl
        | step h' _ => simp [link?_success] at h'
      simp only [combineSpecificCodes, hc, hz, if_false, hnr.step K hz]
      exact ih hr hnr.tail m (by simpa using hn)

/-! ## What a combine does to two chains -/

/-- Past its guards a combine is the append loop, and its code is `error1` with the class of
`error2` when its own is `MPI_ERR_OTHER`. -/
theorem mpirErrCombineCodes_eq_map {s : Ring} {a b : CInt} (ha : a ≠ mpiSuccess)
    (hb : b ≠ mpiSuccess) (hda : a &&& errorDynMask = 0) (hdb : b &&& errorDynMask = 0)
    (n : Nat) :
    mpirErrCombineCodes K n s a b = (combineSpecificCodes K n s a b (error2ClassOf K b)).map
      fun s' => (if errorGetClass a = BitVec.ofNat 32 K.mpiErrOther then
        withClass a (error2ClassOf K b) else a, s') := by
  simp only [mpirErrCombineCodes, ha, hb, hda, hdb, if_false, ne_eq, not_true_eq_false]
  cases combineSpecificCodes K n s a b (error2ClassOf K b) <;> rfl

/-- `MPIR_Err_combine_codes(a, b)` on two non-success, non-dynamic codes whose chains share no
slot.  Every run that ends returns `a` with its class replaced by `error2_class` when it is
`MPI_ERR_OTHER`.  When no class on `a`'s path is rewritten, the code returned is `a` itself; if
`a`'s chain ends at `MPI_SUCCESS`, the walk from it then visits `a`'s slots and then `b`'s and
stops where `b`'s stopped, and if it ends at a rejected link the ring is left as it was. -/
theorem mpirErrCombineCodes_chains {s : Ring} {a b tA tB : CInt} {esA esB : List Nat}
    (ha : a ≠ mpiSuccess) (hb : b ≠ mpiSuccess) (hda : a &&& errorDynMask = 0)
    (hdb : b &&& errorDynMask = 0) (hA : Chain s a esA tA) (hB : Chain s b esB tB)
    (hdisj : ∀ i ∈ esA, i ∉ esB) :
    (∀ n r s', mpirErrCombineCodes K n s a b = .ok (r, s') →
      r = if errorGetClass a = BitVec.ofNat 32 K.mpiErrOther then withClass a (error2ClassOf K b)
        else a) ∧
    (errorGetClass a ≠ BitVec.ofNat 32 K.mpiErrOther ∨
        error2ClassOf K b = BitVec.ofNat 32 K.mpiErrOther →
      NoClassRewrite K s esA (error2ClassOf K b) →
      (tA = mpiSuccess → ∀ n, esA.length ≤ n →
        ∃ s', mpirErrCombineCodes K n s a b = .ok (a, s') ∧ Chain s' a (esA ++ esB) tB) ∧
      (tA ≠ mpiSuccess → ∀ n, esA.length < n → mpirErrCombineCodes K n s a b = .ok (a, s))) := by
  refine ⟨fun n r s' h => (mpirErrCombineCodes_ok K ha hb hda hdb h).2, fun hca hnr => ?_⟩
  have hr : (if errorGetClass a = BitVec.ofNat 32 K.mpiErrOther then
      withClass a (error2ClassOf K b) else a) = a := by
    split
    · rename_i hc; exact withClass_self (hc.trans (hca.resolve_left (not_not.mpr hc)).symm)
    · rfl
  refine ⟨fun htA n hn => ?_, fun htA n hn => ?_⟩
  · subst htA
    have hne : esA ≠ [] := by rintro rfl; exact ha hA.eq_of_nil.symm
    refine ⟨_, ?_, hA.append_setPrev hne hB hdisj⟩
    rw [mpirErrCombineCodes_eq_map K ha hb hda hdb, combineSpecificCodes_of_chain K hA hne hnr,
      if_pos hn, hr]
    rfl
  · rw [mpirErrCombineCodes_eq_map K ha hb hda hdb,
      combineSpecificCodes_of_chain_rejected K hA htA hnr n hn, hr]
    rfl

set_option maxRecDepth 8000 in
/-- Two `**fail` codes of classes 1 and 5 made from the zeroed ring: their combine appends. -/
theorem mpirErrCombineCodes_chains_two_fails :
    let r₁ := mpirErrCreateCodeValist Config.sample Ring.init mpiSuccess false none 0 1 "**fail"
      none []
    let r₂ := mpirErrCreateCodeValist Config.sample r₁.2 mpiSuccess false none 0 5 "**fail" none []
    ∃ s', mpirErrCombineCodes Config.sample 1 r₂.2 r₁.1 r₂.1 = .ok (r₁.1, s') ∧
      Chain s' r₁.1 [0, 1] mpiSuccess := by
  intro r₁ r₂
  have h₀ : (r₂.2.errorRing 0).prevError = mpiSuccess := by decide
  have h₁ : (r₂.2.errorRing 1).prevError = mpiSuccess := by decide
  have hA : Chain r₂.2 r₁.1 [0] mpiSuccess := .step (by decide) (h₀ ▸ .stop (link?_success _))
  have hB : Chain r₂.2 r₂.1 [1] mpiSuccess := .step (by decide) (h₁ ▸ .stop (link?_success _))
  exact ((mpirErrCombineCodes_chains Config.sample (by decide) (by decide) (by decide) (by decide)
    hA hB (by decide)).2 (.inl (by decide)) (.inr (by decide))).1 rfl 1 (le_refl _)

/-- A `**fail` create of class `MPI_ERR_OTHER` from the zeroed ring, in slot 0. -/
def otherFail : CInt × Ring :=
  mpirErrCreateCodeValist Config.sample Ring.init mpiSuccess false none 0 15 "**fail" none []

/-- A `**fail` create of class 5 after it, in slot 1. -/
def classFiveFail : CInt × Ring :=
  mpirErrCreateCodeValist Config.sample otherFail.2 mpiSuccess false none 0 5 "**fail" none []

set_option maxRecDepth 8000 in
/-- A code of class `MPI_ERR_OTHER` (`0x2000010f`, slot 0) combined with one of class 5
(`0x20080105`, slot 1): the result `0x20000105` takes class 5, which the id of slot 0 does not
have, so the walk from it visits no slot at all, neither its own nor the one appended. -/
theorem mpirErrCombineCodes_cuts_other_class :
    otherFail.1 = 0x2000010f ∧ classFiveFail.1 = 0x20080105 ∧
      Chain classFiveFail.2 otherFail.1 [0] mpiSuccess ∧
      Chain classFiveFail.2 classFiveFail.1 [1] mpiSuccess ∧
      ∃ r s', mpirErrCombineCodes Config.sample 1 classFiveFail.2 otherFail.1 classFiveFail.1 =
        .ok (r, s') ∧ r = 0x20000105 ∧ Chain s' r [] r := by
  have h₀ : (classFiveFail.2.errorRing 0).prevError = mpiSuccess := by decide
  have h₁ : (classFiveFail.2.errorRing 1).prevError = mpiSuccess := by decide
  have hA : Chain classFiveFail.2 otherFail.1 [0] mpiSuccess :=
    .step (by decide) (h₀ ▸ .stop (link?_success _))
  refine ⟨by decide, by decide, hA, .step (by decide) (h₁ ▸ .stop (link?_success _)), ?_⟩
  rw [mpirErrCombineCodes_eq_map _ (by decide) (by decide) (by decide) (by decide),
    combineSpecificCodes_of_chain _ hA (List.cons_ne_nil _ _) (.inr (by decide))]
  refine ⟨_, _, rfl, by decide, .stop ?_⟩
  rw [Ring.link?_setPrev]
  decide

/-! ## Fatality -/

/-- Fatality follows the first code.  A create from a fatal `lastcode` that passes
`checkErrcodeIsValid` returns a fatal code, whatever its message, when its effective class is
not `MPI_ERR_IN_STATUS` and fits the class field and its text is ASCII; a combine of non-success,
non-dynamic codes is fatal exactly when its first argument is, whatever the second is. -/
theorem fatality_follows_first_code :
    (∀ s lastcode fatal fcname line errorClass genericMsg specificMsg args,
      checkErrcodeIsValid K s lastcode = 0 → mpirErrIsFatal lastcode = true →
      effectiveClass K lastcode errorClass ≠ BitVec.ofNat 32 K.mpiErrInStatus →
      (effectiveClass K lastcode errorClass).toNat < 128 → IsAscii K genericMsg specificMsg args →
      mpirErrIsFatal (mpirErrCreateCodeValist K s lastcode fatal fcname line errorClass genericMsg
        specificMsg args).1 = true) ∧
    (∀ n s s' a b r, a ≠ mpiSuccess → b ≠ mpiSuccess → a &&& errorDynMask = 0 →
      b &&& errorDynMask = 0 → mpirErrCombineCodes K n s a b = .ok (r, s') →
      mpirErrIsFatal r = mpirErrIsFatal a) := by
  refine ⟨fun s lastcode fatal fcname line errorClass genericMsg specificMsg args hv hf hne hc
    hasc => ?_, fun n s s' a b r ha hb hda hdb h => mpirErrIsFatal_combine K ha hb hda hdb h⟩
  rw [← checkedLastcode_of_valid K hv] at hne hc
  rw [mpirErrCreateCodeValist_of_ne K hne]
  exact (mpirErrIsFatal_createCode hc (createSeq_of_ascii K hasc)).trans
    (by rw [checkedLastcode_of_valid K hv, hf, Bool.or_true])

set_option maxRecDepth 8000 in
/-- A fatal `**fail` code of class 1, and a create from it of class `MPI_ERR_OTHER`, which takes
the class 1 of its `lastcode`: the new code is fatal too. -/
theorem fatality_follows_first_code_other :
    let r₁ := mpirErrCreateCodeValist Config.sample Ring.init mpiSuccess true none 0 1 "**fail"
      none []
    checkErrcodeIsValid Config.sample r₁.2 r₁.1 = 0 ∧ mpirErrIsFatal r₁.1 = true ∧
      effectiveClass Config.sample r₁.1 15 ≠ BitVec.ofNat 32 Config.sample.mpiErrInStatus ∧
      (effectiveClass Config.sample r₁.1 15).toNat < 128 ∧
      IsAscii Config.sample "**other" none [] ∧
      mpirErrIsFatal (mpirErrCreateCodeValist Config.sample r₁.2 r₁.1 false (some "g") 2 15
        "**other" none []).1 = true := by
  intro r₁
  have hv : checkErrcodeIsValid Config.sample r₁.2 r₁.1 = 0 := by decide
  have hf : mpirErrIsFatal r₁.1 = true := by decide
  have hne : effectiveClass Config.sample r₁.1 15 ≠
      BitVec.ofNat 32 Config.sample.mpiErrInStatus := by decide
  have hc : (effectiveClass Config.sample r₁.1 15).toNat < 128 := by decide
  have hasc : IsAscii Config.sample "**other" none [] := by unfold IsAscii; decide
  exact ⟨hv, hf, hne, hc, hasc,
    (fatality_follows_first_code Config.sample).1 _ _ _ _ _ _ _ _ _ hv hf hne hc hasc⟩

set_option maxRecDepth 8000 in
/-- `MPIR_ERR_ADD` of a fatal code into a non-fatal one: the combine returns the non-fatal
code. -/
theorem mpirErrCombineCodes_drops_fatal :
    let r₁ := mpirErrCreateCodeValist Config.sample Ring.init mpiSuccess false none 0 1 "**fail"
      none []
    let r₂ := mpirErrCreateCodeValist Config.sample r₁.2 mpiSuccess true none 0 1 "**fail" none []
    ∃ r s', mpirErrCombineCodes Config.sample 1 r₂.2 r₁.1 r₂.1 = .ok (r, s') ∧
      mpirErrIsFatal r = false ∧ (mpirErrIsFatal r₁.1 || mpirErrIsFatal r₂.1) = true :=
  ⟨_, _, rfl, by decide, by decide⟩

end MpichErrhan
