import MpichErrhan.Stacks

/-!
# The ring as a window on the slots written

`ErrorRing` is a bounded log.  The abstract view is the **log** of every entry a create has
written, newest first; the ring keeps the last `MAX_ERROR_RING` of them and forgets the rest.
`Ring.Window s log` says that `s` is that window on `log`:

* the cursor is the number of writes modulo `MAX_ERROR_RING`, and the high-water mark is that
  number, held at the last slot once the cursor has wrapped;
* the entry written `k` writes ago, for `k < MAX_ERROR_RING`, sits `k + 1` slots behind the
  cursor, with at most its `prev_error` changed since (a combine rewrites those);
* every slot not yet written is zero.

## Main results

* A write at the cursor puts its entry at the head of the log (`Ring.Window.push`), and a combine
  keeps the log (`Ring.Window.prevsOnly`): the ring refines the log step for step.  A combine
  never touches a slot no code links to (`combineSpecificCodes_zero`), so it leaves the slots
  not yet written zero.
* Every reachable ring is a window on a log (`Reachable.window`), and along any run of creates
  and combines the log only grows at its head, by at most one entry per create
  (`CarryRun.window`).
* So the entry a create wrote keeps its slot, apart from its `prev_error`, and the code the create
  returned keeps linking to it and passing `checkErrcodeIsValid`, through every run of fewer than
  `MAX_ERROR_RING` further creates with any combines (`mpirErrCreateCodeValist_retained`).
-/

namespace MpichErrhan

/-! ## The window -/

theorem ErrMsg.SamePrev.refl (e : ErrMsg) : e.SamePrev e := ⟨rfl, rfl, rfl, rfl, rfl⟩

theorem ErrMsg.SamePrev.trans {e₁ e₂ e₃ : ErrMsg} (h₁ : e₁.SamePrev e₂) (h₂ : e₂.SamePrev e₃) :
    e₁.SamePrev e₃ :=
  ⟨h₂.1.trans h₁.1, h₂.2.1.trans h₁.2.1, h₂.2.2.1.trans h₁.2.2.1, h₂.2.2.2.1.trans h₁.2.2.2.1,
    h₂.2.2.2.2.trans h₁.2.2.2.2⟩

/-- `s` is the window on `log`, the entries written so far, newest first. -/
structure Ring.Window (s : Ring) (log : List ErrMsg) : Prop where
  loc_eq : s.errorRingLoc = log.length % maxErrorRing
  max_eq : s.maxErrorRingLoc = min log.length (maxErrorRing - 1)
  slot : ∀ k (hk : k < log.length), k < maxErrorRing →
    log[k].SamePrev (s.errorRing ((log.length - 1 - k) % maxErrorRing))
  zero : ∀ j, log.length ≤ j → s.errorRing j = .zero

namespace Ring.Window

theorem init : Ring.init.Window [] :=
  ⟨rfl, rfl, fun _ hk => absurd hk (Nat.not_lt_zero _), fun _ _ => rfl⟩

/-- A write at the cursor is the entry at the head of the log. -/
theorem push {s : Ring} {log : List ErrMsg} (hw : s.Window log) (e : ErrMsg) :
    (s.push e).Window (e :: log) := by
  have hloc := hw.loc_eq
  have hmax := hw.max_eq
  simp only [maxErrorRing, errorSpecificIndexSize] at hloc hmax
  refine ⟨?_, ?_, fun k hk hk' => ?_, fun j hj => ?_⟩
  · rw [Ring.push_errorRingLoc, Ring.nextLoc_eq, hloc, List.length_cons]
    simp only [maxErrorRing, errorSpecificIndexSize]; omega
  · rw [Ring.push_maxErrorRingLoc, Ring.nextLoc_eq, hloc, hmax, List.length_cons]
    simp only [maxErrorRing, errorSpecificIndexSize]; omega
  · rw [Ring.push_errorRing, hloc]
    cases k with
    | zero =>
      rw [if_pos (by simp only [List.length_cons, maxErrorRing, errorSpecificIndexSize]; omega)]
      exact .refl e
    | succ k =>
      simp only [List.length_cons, maxErrorRing, errorSpecificIndexSize] at hk hk' ⊢
      rw [if_neg (by omega), List.getElem_cons_succ,
        show log.length + 1 - 1 - (k + 1) = log.length - 1 - k by omega]
      exact hw.slot k (by omega) (by simp only [maxErrorRing, errorSpecificIndexSize]; omega)
  · simp only [List.length_cons] at hj
    rw [Ring.push_errorRing, hloc, if_neg (by omega)]
    exact hw.zero j (by omega)

/-- Rewriting `prev_error` fields, and no slot still zero, keeps the log. -/
theorem prevsOnly {s s' : Ring} {log : List ErrMsg} (hw : s.Window log) (hp : s.PrevsOnly s')
    (hz : ∀ j, s.errorRing j = .zero → s'.errorRing j = .zero) : s'.Window log :=
  ⟨hp.loc_eq.trans hw.loc_eq, hp.max_eq.trans hw.max_eq,
    fun k hk hk' => (hw.slot k hk hk').trans (hp.same _), fun j hj => hz j (hw.zero j hj)⟩

/-- The high-water mark covers the slot of every entry of the window. -/
theorem slot_le_max {s : Ring} {log : List ErrMsg} (hw : s.Window log) {k : Nat}
    (hk : k < log.length) : (log.length - 1 - k) % maxErrorRing ≤ s.maxErrorRingLoc := by
  rw [hw.max_eq]
  simp only [maxErrorRing, errorSpecificIndexSize]
  omega

end Ring.Window

/-! ## Combines leave unwritten slots alone -/

section Combine

variable {K : Config}

/-- No code links to a zero slot: its id has no generic message. -/
theorem link?_ne_of_zero {s : Ring} {c : CInt} {i : Nat} (hl : s.link? c = some i)
    (hz : s.errorRing i = .zero) : False := by
  obtain ⟨rfl, -, hg, hid⟩ := link?_eq_some.mp hl
  have h0 : genericOf (s.errorRing (ringIdxOf c)).id = 0 := by rw [hz]; rfl
  rw [hid, genericOf_and_ringIdMask] at h0
  omega

/-- The append loop writes only slots it reached through a link, so never a zero slot. -/
theorem combineSpecificCodes_zero : ∀ {n : Nat} {s s' : Ring} {c b cls : CInt},
    combineSpecificCodes K n s c b cls = .ok s' → ∀ j, s.errorRing j = .zero →
      s'.errorRing j = .zero
  | 0, _, _, _, _, _, h => by simp [combineSpecificCodes] at h
  | n + 1, s, s', c, b, cls, h => by
    simp only [combineSpecificCodes] at h
    intro j hj
    split at h
    · cases h; exact hj
    · rename_i i hi
      have hji : j ≠ i := fun e => link?_ne_of_zero hi (e ▸ hj)
      have hstep : (combineStep K b cls s i).errorRing j = .zero := by
        rcases combineStep_cases K b cls s i with e | ⟨v, e⟩ <;> rw [e]
        · exact hj
        · rw [Ring.setPrev_errorRing, if_neg hji, hj]
      split at h
      · cases h; exact hstep
      · exact combineSpecificCodes_zero h j hstep

theorem mpirErrCombineCodes_zero {n : Nat} {s s' : Ring} {a b r : CInt}
    (h : mpirErrCombineCodes K n s a b = .ok (r, s')) (j : Nat) (hj : s.errorRing j = .zero) :
    s'.errorRing j = .zero := by
  rcases mpirErrCombineCodes_ring_cases h with rfl | hcs
  · exact hj
  · exact combineSpecificCodes_zero hcs j hj

theorem Ring.Window.combine {s s' : Ring} {log : List ErrMsg} {n : Nat} {a b r : CInt}
    (hw : s.Window log) (h : mpirErrCombineCodes K n s a b = .ok (r, s')) : s'.Window log :=
  hw.prevsOnly (mpirErrCombineCodes_prevsOnly K h) (mpirErrCombineCodes_zero h)

/-- A create writes the head of the log, or nothing. -/
theorem Ring.Window.create {s : Ring} {log : List ErrMsg} (hw : s.Window log) (lastcode : CInt)
    (fatal : Bool) (fcname : Option CStr) (line : Int) (errorClass : CInt) (genericMsg : CStr)
    (specificMsg : Option CStr) (args : List VaArg) :
    ∃ new : List ErrMsg, new.length ≤ 1 ∧
      (mpirErrCreateCodeValist K s lastcode fatal fcname line errorClass genericMsg specificMsg
        args).2.Window (new ++ log) := by
  rcases mpirErrCreateCodeValist_ring K s lastcode fatal fcname line errorClass genericMsg
    specificMsg args with h | ⟨e, h⟩ <;> rw [h]
  · exact ⟨[], Nat.zero_le _, hw⟩
  · exact ⟨[e], le_refl _, hw.push e⟩

end Combine

/-! ## Runs -/

section Runs

variable {K : Config}

/-- Every reachable ring is a window on a log. -/
theorem Reachable.window {s : Ring} {codes : List CInt} (h : Reachable K s codes) :
    ∃ log, s.Window log := by
  induction h with
  | init => exact ⟨[], .init⟩
  | create lastcode fatal fcname line errorClass genericMsg specificMsg args _ _ ih =>
    obtain ⟨log, hw⟩ := ih
    obtain ⟨new, -, hw'⟩ := hw.create (K := K) lastcode fatal fcname line errorClass genericMsg
      specificMsg args
    exact ⟨_, hw'⟩
  | combine n _ _ _ _ hc ih =>
    obtain ⟨log, hw⟩ := ih
    exact ⟨log, hw.combine hc⟩

/-- Along a run, the log grows only at its head, by at most one entry per create. -/
theorem CarryRun.window {s₀ : Ring} {a₀ : CInt} {log₀ : List ErrMsg} (hw₀ : s₀.Window log₀)
    {m : Nat} {s : Ring} {hs : List CInt} (h : CarryRun K s₀ a₀ m s hs) :
    ∃ new : List ErrMsg, new.length ≤ m ∧ s.Window (new ++ log₀) := by
  induction h with
  | start => exact ⟨[], Nat.zero_le _, hw₀⟩
  | chain fatal fcname line errorClass genericMsg specificMsg args _ _ _ _ _ _ ih =>
    obtain ⟨new, hn, hw⟩ := ih
    obtain ⟨new', hn', hw'⟩ := hw.create (K := K) _ fatal fcname line errorClass genericMsg
      specificMsg args
    exact ⟨new' ++ new, by rw [List.length_append]; omega, by rwa [List.append_assoc]⟩
  | create lastcode fatal fcname line errorClass genericMsg specificMsg args _ ih =>
    obtain ⟨new, hn, hw⟩ := ih
    obtain ⟨new', hn', hw'⟩ := hw.create (K := K) lastcode fatal fcname line errorClass genericMsg
      specificMsg args
    exact ⟨new' ++ new, by rw [List.length_append]; omega, by rwa [List.append_assoc]⟩
  | combine n _ hc ih =>
    obtain ⟨new, hn, hw⟩ := ih
    exact ⟨new, hn, hw.combine hc⟩

variable {s : Ring} {codes : List CInt} {lastcode errorClass : CInt} {fatal : Bool}
  {fcname : Option CStr} {line : Int} {genericMsg : CStr} {specificMsg : Option CStr}
  {args : List VaArg}

/-- In a reachable ring, the code of a create with a class inside the class field, a key found in
the table and an ASCII text keeps its slot through any run of fewer than `MAX_ERROR_RING` further
creates, with any combines: the slot keeps the entry the create wrote, apart from its
`prev_error`, and the code links to it and passes `checkErrcodeIsValid`. -/
theorem mpirErrCreateCodeValist_retained (hr : Reachable K s codes)
    (hcls : errorClass.toNat < 128)
    (hin : effectiveClass K (checkedLastcode K s lastcode) errorClass ≠
      BitVec.ofNat 32 K.mpiErrInStatus)
    (hfound : 0 ≤ findGenericMsgIndex K genericMsg) (hasc : IsAscii K genericMsg specificMsg args)
    {m : Nat} {s' : Ring} {hs : List CInt}
    (hrun : CarryRun K (mpirErrCreateCodeValist K s lastcode fatal fcname line errorClass
        genericMsg specificMsg args).2
      (mpirErrCreateCodeValist K s lastcode fatal fcname line errorClass genericMsg specificMsg
        args).1 m s' hs)
    (hm : m < maxErrorRing) :
    s'.link? (mpirErrCreateCodeValist K s lastcode fatal fcname line errorClass genericMsg
        specificMsg args).1 = some s.errorRingLoc ∧
      (createEntry K s (checkedLastcode K s lastcode)
        (effectiveClass K (checkedLastcode K s lastcode) errorClass) fcname line genericMsg
        specificMsg args).SamePrev (s'.errorRing s.errorRingLoc) ∧
      checkErrcodeIsValid K s' (mpirErrCreateCodeValist K s lastcode fatal fcname line errorClass
        genericMsg specificMsg args).1 = 0 := by
  obtain ⟨log, hw⟩ := hr.window
  rw [mpirErrCreateCodeValist_of_ne K hin] at hrun ⊢
  set cls := effectiveClass K (checkedLastcode K s lastcode) errorClass
  set e := createEntry K s (checkedLastcode K s lastcode) cls fcname line genericMsg specificMsg
    args
  have hc : cls.toNat < 128 := effectiveClass_lt K hcls
  have hq : 0 ≤ createSeq K cls genericMsg specificMsg args ∧ _ := createSeq_of_ascii K hasc
  have hidx : ringIdxOf (createCode K s (checkedLastcode K s lastcode) cls fatal genericMsg
      specificMsg args) = s.errorRingLoc := ringIdxOf_createCode hc hq
  have hgen : genericOf (createCode K s (checkedLastcode K s lastcode) cls fatal genericMsg
      specificMsg args) = genericField K genericMsg := genericOf_createCode hc hq
  have hrg := findGenericMsgIndex_range K genericMsg
  obtain ⟨new, hn, hw'⟩ := CarryRun.window (hw.push e) hrun
  have hk : new.length < (new ++ e :: log).length := by simp
  have hpos : ((new ++ e :: log).length - 1 - new.length) % maxErrorRing = s.errorRingLoc := by
    rw [hw.loc_eq]; simp
  have hslot := hw'.slot new.length hk (by omega)
  have he : (new ++ e :: log)[new.length] = e := by
    rw [List.getElem_append_right (Nat.le_refl _)]; simp
  rw [he, hpos] at hslot
  have hlink : s'.link? (createCode K s (checkedLastcode K s lastcode) cls fatal genericMsg
      specificMsg args) = some s.errorRingLoc := by
    refine link?_eq_some.mpr ⟨hidx.symm, ?_, ?_, ?_⟩
    · rw [hidx, ← hpos]; exact hw'.slot_le_max hk
    · rw [hgen, genericField]; omega
    · rw [hidx, hslot.1]; exact (createCode_and_ringIdMask hc hq).symm
  refine ⟨hlink, hslot, valid_of_link_of_genericOf_le hlink ?_⟩
  rw [hgen, genericField]; omega

set_option maxRecDepth 8000 in
/-- The first `**fail` code still links to slot 0, which still holds its entry, after a second
create. -/
theorem mpirErrCreateCodeValist_retained_pop :
    Reachable Config.sample Ring.init [] ∧ (1 : CInt).toNat < 128 ∧
      effectiveClass Config.sample (checkedLastcode Config.sample Ring.init mpiSuccess) 1 ≠
        BitVec.ofNat 32 Config.sample.mpiErrInStatus ∧
      0 ≤ findGenericMsgIndex Config.sample "**fail" ∧ IsAscii Config.sample "**fail" none [] ∧
      CarryRun Config.sample (popRing 1) wrapCode 1 (popRing 2) [wrapCode] ∧ 1 < maxErrorRing ∧
      (popRing 2).link? wrapCode = some 0 ∧
      (createEntry Config.sample Ring.init (checkedLastcode Config.sample Ring.init mpiSuccess)
        (effectiveClass Config.sample (checkedLastcode Config.sample Ring.init mpiSuccess) 1)
        (some "f") 1 "**fail" none []).SamePrev ((popRing 2).errorRing 0) ∧
      checkErrcodeIsValid Config.sample (popRing 2) wrapCode = 0 := by
  have hin : effectiveClass Config.sample (checkedLastcode Config.sample Ring.init mpiSuccess) 1 ≠
      BitVec.ofNat 32 Config.sample.mpiErrInStatus := by decide
  have hfound : 0 ≤ findGenericMsgIndex Config.sample "**fail" := by decide
  have hasc : IsAscii Config.sample "**fail" none [] := by unfold IsAscii; decide
  have hrun : CarryRun Config.sample (popRing 1) wrapCode 1 (popRing 2) [wrapCode] :=
    .create mpiSuccess false (some "f") 1 1 "**fail" none [] .start
  exact ⟨.init, by decide, hin, hfound, hasc, hrun, by decide,
    mpirErrCreateCodeValist_retained .init (by decide) hin hfound hasc hrun (by decide)⟩

end Runs

end MpichErrhan
