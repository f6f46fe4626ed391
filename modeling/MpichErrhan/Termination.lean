import MpichErrhan.Acyclic
import MpichErrhan.Fatal

/-!
# Before the ring wraps, the message routines do not hang

Three loops of `errutil.c` stop on a test, not on a count: the walk of `ErrGetInstanceString`,
the two walks of `MPIR_Err_print_stack_string`, and its loop that wraps a long message at the
chop width.  The model gives each a fuel argument and the fault `Fault.diverges` for fuel that
runs out; every other step of these routines returns, or faults on an access outside its object.

`cycle_after_wrap` shows a ring, after the wrap, whose walk never ends.  Before the wrap every
walk ends (`ClassRun.walks_end`), and the wrapping loop ends in every state, because a pass that
goes on lowers `maxlen` by the chop width.  So `MPIR_Err_get_string`, and the abort path
`MPIR_Handle_fatal_error` through it, never hang before the wrap, whatever the configuration,
the code and the buffer.

## Main results

* `wrapLoop_returns`: `maxlen + 1` passes are enough for the wrapping loop.
* `mpirErrGetString_returns`: where the walk of the code ends and the slots above the high-water
  mark are zero, `MPIR_Err_get_string` does not hang.
* `ClassRun.messages_return`: before the wrap, neither `MPIR_Err_get_string` nor
  `MPIR_Handle_fatal_error` hangs.
-/

namespace MpichErrhan

/-- A modelled call that does not hang: it returns, or it faults on an access outside its
object. -/
def Returns {α : Type} (x : Except Fault α) : Prop := x ≠ .error .diverges

namespace Returns

variable {α β : Type}

theorem ok (a : α) : Returns (.ok a : Except Fault α) := nofun

theorem outOfBounds : Returns (.error .outOfBounds : Except Fault α) := nofun

/-- A call that does not hang, followed by one that does not hang on any of its results. -/
theorem bind {x : Except Fault α} {f : α → Except Fault β} (hx : Returns x)
    (hf : ∀ a, x = .ok a → Returns (f a)) : Returns (x >>= f) := by
  cases x with
  | error e => cases e; exacts [outOfBounds, absurd rfl hx]
  | ok a => exact hf a rfl

theorem map {x : Except Fault α} {f : α → β} (hx : Returns x) : Returns (x.map f) := by
  cases x with
  | error e => cases e; exacts [outOfBounds, absurd rfl hx]
  | ok a => exact ok _

end Returns

/-! ## Calls without a loop -/

section Straight

theorem storeAll_returns (buf : List Char) (p : Int) (l : List Char) :
    Returns (storeAll buf p l) := by
  unfold storeAll
  split_ifs
  exacts [.ok _, .ok _, .outOfBounds]

theorem store_returns (buf : List Char) (p : Int) (c : Char) : Returns (store buf p c) :=
  storeAll_returns _ _ _

theorem snprintf_returns (buf : List Char) (p : Int) (n : Nat) (t : CStr) :
    Returns (snprintf buf p n t) := by
  unfold snprintf
  split
  exacts [.ok _, storeAll_returns _ _ _]

theorem cstrAt_returns (buf : List Char) (p : Int) : Returns (cstrAt buf p) := by
  unfold cstrAt
  split
  exacts [.ok _, .outOfBounds]

theorem strlen_returns (buf : List Char) (p : Int) : Returns (strlen buf p) :=
  (cstrAt_returns _ _).map

theorem mplStrncpy_returns (buf : List Char) (p : Int) (src : CStr) (n : Nat) :
    Returns (mplStrncpy buf p src n) := by
  unfold mplStrncpy
  split_ifs
  · exact .ok _
  · exact (storeAll_returns _ _ _).map
  · exact (storeAll_returns _ _ _).bind fun _ _ => (store_returns _ _ _).bind fun _ _ => .ok _

theorem copyCut_returns (buf : List Char) (p length : Int) (text : CStr) :
    Returns (copyCut buf p length text) := by
  refine (mplStrncpy_returns _ _ _ _).bind fun ⟨_, cut⟩ _ => ?_
  cases cut
  exacts [.ok _, store_returns _ _ _]

variable (K : Config)

theorem genericLongName_returns (i : Nat) : Returns (genericLongName K i) := by
  unfold genericLongName
  split
  exacts [.ok _, .outOfBounds]

theorem getClassMsg_returns (errorClass : CInt) : Returns (getClassMsg K errorClass) := by
  unfold getClassMsg
  split
  · split
    exacts [genericLongName_returns K _, .outOfBounds]
  · exact .ok _

end Straight

/-! ## The writers of the stack -/

namespace Out

theorem print_returns (o : Out) (t : CStr) : Returns (o.print t) :=
  (snprintf_returns _ _ _ _).bind fun _ _ => (strlen_returns _ _).bind fun _ _ => .ok _

theorem put_returns (o : Out) (c : Char) : Returns (o.put c) :=
  (store_returns _ _ _).bind fun _ _ => .ok _

theorem putIf_returns (o : Out) (c : Char) : Returns (o.putIf c) := by
  unfold putIf
  split
  exacts [put_returns _ _, .ok _]

theorem pad_returns : ∀ (n : Nat) (o : Out), Returns (o.pad n)
  | 0, _ => .ok _
  | n + 1, o => by
    unfold pad
    split
    exacts [(put_returns _ _).bind fun o _ => pad_returns n o, .ok _]

theorem spaces_returns : ∀ (n : Nat) (o : Out), Returns (o.spaces n)
  | 0, _ => .ok _
  | n + 1, _ => (snprintf_returns _ _ _ _).bind fun _ _ => spaces_returns n _

/-- Each space lowers `maxlen` by one. -/
theorem spaces_maxlen : ∀ {n : Nat} {o o' : Out}, o.spaces n = .ok o' → o'.maxlen = o.maxlen - n
  | 0, o, o', h => by cases h; simp
  | n + 1, o, o', h => by
    cases hb : snprintf o.buf o.str (sizeT o.maxlen) " " with
    | error e => simp only [spaces, hb] at h; cases h
    | ok buf =>
      simp only [spaces, hb, ok_bind] at h
      rw [spaces_maxlen h]
      push_cast
      ring

end Out

/-! ## The wrapping loop

A pass goes on only when `maxlen` holds the rest of the text, and it then gives up
`width - mll` bytes for the cut text and its newline and `mll` for the indent: `width` in all,
so `maxlen` falls by the chop width at every pass that goes on. -/

/-- With a positive chop width, a fuel above `maxlen` is enough for the wrapping loop. -/
theorem wrapLoop_returns {width mll : Int} (hw : 0 < width) (m : List Char) :
    ∀ (fuel : Nat) (o : Out) (q : Int), o.maxlen.toNat < fuel →
      Returns (wrapLoop width mll m fuel o q)
  | 0, _, _, h => absurd h (Nat.not_lt_zero _)
  | fuel + 1, o, q, h => by
    unfold wrapLoop
    refine (strlen_returns _ _).bind fun len _ => ?_
    split_ifs with hlen hcut hroom
    · exact .ok _
    · exact .ok _
    · refine (cstrAt_returns _ _).bind fun _ _ => (snprintf_returns _ _ _ _).bind fun _ _ =>
        (store_returns _ _ _).bind fun _ _ => ?_
      dsimp only
      split
      · exact .ok _
      · rename_i hmll
        refine (Out.spaces_returns _ _).bind fun o' ho' => wrapLoop_returns hw m fuel o' _ ?_
        rw [Out.spaces_maxlen ho']
        dsimp only at hmll ⊢
        omega
    · exact (cstrAt_returns _ _).bind fun _ _ => Out.print_returns _ _

variable (K : Config)

theorem printEntry_returns (M : Nat) (o : Out) (e : ErrMsg) : Returns (printEntry K M o e) := by
  refine (Out.print_returns _ _).bind fun _ _ => (Out.pad_returns _ _).bind fun _ _ =>
    (Out.putIf_returns _ _).bind fun _ _ => (Out.putIf_returns _ _).bind fun _ _ => ?_
  split
  · have hwrap : ∀ o : Out, Returns (wrapLoop K.chopErrorStack ((M : Int) + 2) (slotObj e)
        (o.maxlen.toNat + 1) o ((maxLocationLen + 1 : Nat) : Int)) := fun o =>
      wrapLoop_returns ‹_› _ _ o _ (Nat.lt_succ_self _)
    dsimp only
    split
    exacts [(Out.put_returns _ _).bind fun o _ => hwrap o, hwrap _]
  · exact Out.print_returns _ _

theorem stackFallback_returns (o : Out) (errcode : CInt) :
    Returns (stackFallback K o errcode) := by
  unfold stackFallback
  split_ifs
  · exact .ok _
  · exact (genericLongName_returns K _).bind fun _ _ => Out.print_returns _ _
  · exact (getClassMsg_returns K _).bind fun _ _ => Out.print_returns _ _
  · exact Out.print_returns _ _

/-! ## The walks -/

section Walks

variable {K} {s : Ring}

theorem instanceLoop_returns {c t : CInt} {es : List Nat} (hc : Chain s c es t) (p n : Int) :
    ∀ {fuel : Nat} (buf : List Char), es.length < fuel →
      Returns (instanceLoop s p n fuel buf c) := by
  induction hc with
  | stop hl =>
    rintro (_ | fuel) buf h
    · exact absurd h (Nat.not_lt_zero _)
    · unfold instanceLoop
      split
      · exact .ok _
      · rw [hl]; exact .ok _
  | @step c i es t hl _ ih =>
    rintro (_ | fuel) buf h
    · exact absurd h (Nat.not_lt_zero _)
    · have hc0 : c ≠ mpiSuccess := by rintro rfl; rw [link?_success] at hl; cases hl
      rw [instanceLoop, if_neg hc0, hl]
      exact (snprintf_returns _ _ _ _).bind fun _ _ => (store_returns _ _ _).bind fun _ _ =>
        ih _ (Nat.lt_of_succ_lt_succ h)

variable (hz : ∀ j, s.maxErrorRingLoc < j → s.errorRing j = .zero)
include hz

theorem printEntries_returns (M : Nat) {c t : CInt} {es : List Nat} (hc : Chain s c es t) :
    ∀ {fuel : Nat} (o : Out), es.length < fuel → Returns (printEntries K s M fuel o c) := by
  induction hc with
  | stop hl =>
    rintro (_ | fuel) o h
    · exact absurd h (Nat.not_lt_zero _)
    · rw [printEntries_of_link_none hz hl]; exact .ok _
  | step hl _ ih =>
    rintro (_ | fuel) o h
    · exact absurd h (Nat.not_lt_zero _)
    · rw [printEntries_of_link_some hl]
      exact (printEntry_returns K _ _ _).bind fun o _ => ih o (Nat.lt_of_succ_lt_succ h)

theorem mpirErrPrintStackString_returns {c t : CInt} {es : List Nat} (hc : Chain s c es t)
    (buf : List Char) (str maxlen : Int) :
    Returns (mpirErrPrintStackString K s c buf str maxlen) := by
  rw [mpirErrPrintStackString, longestLocation_of_chain hc, ok_bind]
  refine (printEntries_returns hz _ hc _ (Nat.lt_succ_of_le hc.length_le)).bind
    fun ⟨o, e⟩ _ => (stackFallback_returns K o e).bind fun o _ => ?_
  split
  exacts [store_returns _ _ _, .ok _]

theorem errGetInstanceString_returns {c t : CInt} {es : List Nat} (hc : Chain s c es t)
    (buf : List Char) (p n : Int) : Returns (errGetInstanceString K s c buf p n) := by
  unfold errGetInstanceString
  split
  · exact (mplStrncpy_returns _ _ _ _).bind fun _ _ => (store_returns _ _ _).bind fun _ _ =>
      (strlen_returns _ _).bind fun _ _ =>
        (mpirErrPrintStackString_returns hz hc _ _ _).bind fun _ _ =>
          (store_returns _ _ _).bind fun _ _ => .ok _
  · exact (instanceLoop_returns hc _ _ _ (Nat.lt_succ_of_le hc.length_le)).bind fun _ _ => .ok _

/-- Where the walk of the code ends and the slots above the high-water mark are zero,
`MPIR_Err_get_string` does not hang, whatever the configuration and the buffer. -/
theorem mpirErrGetString_returns {c t : CInt} {es : List Nat} (hc : Chain s c es t)
    (buf : List Char) (p length : Int) : Returns (mpirErrGetString K s c buf p length) := by
  unfold mpirErrGetString
  split_ifs
  · exact .ok _
  · exact copyCut_returns _ _ _ _
  · exact (getClassMsg_returns K _).bind fun _ _ => copyCut_returns _ _ _ _
  · exact (getClassMsg_returns K _).bind fun _ _ => (mplStrncpy_returns _ _ _ _).bind fun _ _ =>
      (store_returns _ _ _).bind fun _ _ => (strlen_returns _ _).bind fun _ _ =>
        (errGetInstanceString_returns hz hc _ _ _).bind fun _ _ => .ok _

theorem mpirHandleFatalError_returns {c t : CInt} {es : List Nat} (hc : Chain s c es t)
    (M : Nat) (errorMsg : List Char) (commPtr : Option Comm) (fcname : CStr) :
    Returns (mpirHandleFatalError K s M errorMsg commPtr fcname c) :=
  (snprintf_returns _ _ _ _).bind fun _ _ => (strlen_returns _ _).bind fun _ _ =>
    (mpirErrGetString_returns hz hc _ _ _).bind fun _ _ => (cstrAt_returns _ _).bind fun _ _ =>
      .ok _

end Walks

/-! ## Runs before the wrap -/

variable {K}

/-- Before the ring wraps, neither `MPIR_Err_get_string` nor `MPIR_Handle_fatal_error` hangs: in
a run of fewer than `MAX_ERROR_RING` creates whose classes fit the class field, for every code
and every buffer, each returns or faults on an access outside its buffer. -/
theorem ClassRun.messages_return {m : Nat} {s : Ring} {codes : List CInt}
    (h : ClassRun K m s codes) (hm : m < maxErrorRing) (c : CInt) :
    (∀ buf p length, mpirErrGetString K s c buf p length ≠ .error .diverges) ∧
      ∀ M errorMsg commPtr fcname,
        mpirHandleFatalError K s M errorMsg commPtr fcname c ≠ .error .diverges := by
  obtain ⟨es, t, hc⟩ := (h.unwrapped hm).acyclic.walks c
  exact ⟨mpirErrGetString_returns h.reachable.above_max hc,
    mpirHandleFatalError_returns h.reachable.above_max hc⟩

/-- The error string and the abort message of the first `**fail` code are written without
hanging. -/
theorem messages_return_pop :
    ClassRun Config.sample 1 (popRing 1) [wrapCode] ∧ 1 < maxErrorRing ∧
      mpirErrGetString Config.sample (popRing 1) wrapCode (List.replicate 64 'x') 0 64 ≠
        .error .diverges :=
  ⟨classRun_pop, by decide,
    (classRun_pop.messages_return (by decide) wrapCode).1 (List.replicate 64 'x') 0 64⟩

end MpichErrhan
