import MpichErrhan.Runs

/-!
# Reporting an error: the `MPIR_Err_return_*` entry points

An MPI routine that fails hands its code to one of six entry points, by the object it failed on:
`MPIR_Err_return_comm`, `_win`, `_session`, `_group`, `_session_init` and
`_comm_create_from_group`.  Each finds an error handler, the object's own or the one the
communicator fallback picks (`MPI_COMM_SELF`'s, else `MPI_COMM_WORLD`'s), and then
* aborts through `MPIR_Handle_fatal_error` for a fatal code, no handler, or a handler that is
  `MPI_ERRORS_ARE_FATAL` or `MPI_ERRORS_ABORT`;
* else replaces a code that carries a user code by it (`checkForUserErrcode`) and calls the
  handler: `MPI_ERRORS_RETURN` and `MPIR_ERRORS_THROW_EXCEPTIONS` return the code, a user
  handler's function is called and the entry point returns `MPI_SUCCESS`.

Before all this the code's class is checked (`checkValidErrcode`).  What an entry point does is an
`Outcome`; the objects are reduced to what the dispatch reads of them.

## Main results

* `entry_points_agree`: in an initialised process five of the six entry points make one
  decision, `referenceDecision`, for the handler each resolves; `_session_init` makes it too,
  except that for a returning handler it returns the checked code at once.
* `sessionInit_returns_fatal`: that early return hands back a fatal code instead of aborting.
* `user_code_returned`: the codes of a chain built on a `**user` create all carry its user code,
  and `MPIR_Err_return_comm` with `MPI_ERRORS_RETURN` returns that code for each of them that is
  not fatal.
-/

namespace MpichErrhan

/-! ## Handlers, objects and outcomes -/

/-- `MPIR_Errhandler`, by its handle. -/
structure Errhandler where
  handle : CInt
deriving DecidableEq

/-- A communicator, as the dispatch reads it. -/
structure Comm where
  errhandler : Option Errhandler

/-- A window, as the dispatch reads it. -/
structure Win where
  errhandler : Option Errhandler

/-- A session: its error handler and its reference count. -/
structure Session where
  errhandler : Option Errhandler
  ref : Int

/-- A group: the session it belongs to, if any. -/
structure Group where
  sessionPtr : Option Session

/-- `MPIR_Process` as the dispatch reads it: whether the library is initialised, and the two
predefined communicators. -/
structure Process where
  initialized : Bool
  commSelf : Option Comm
  commWorld : Option Comm

/-- What a call to an entry point comes to. -/
inductive Outcome
  /-- `MPIR_Handle_fatal_error` with this code: the process aborts, the call never returns. -/
  | aborts (errcode : CInt)
  /-- The call returns this code. -/
  | returns (errcode : CInt)
  /-- The user handler's function is called with this code, and the call returns
  `MPI_SUCCESS`. -/
  | invokes (errhandler : Errhandler) (errcode : CInt)
deriving DecidableEq

variable (K : Config)

/-- `checkValidErrcode(ERROR_GET_CLASS(errcode), fcname, &errcode)`. -/
def checkedCode (errcode : CInt) : CInt := checkValidErrcode K (errorGetClass errcode) errcode

/-- `MPIR_call_errhandler`: the returning handlers return the code; any other handler's function
is called, and `MPI_SUCCESS` is returned. -/
def mpirCallErrhandler (errhandler : Errhandler) (errorcode : CInt) : Outcome :=
  if errhandler.handle = K.handles.errorsReturn ∨
      errhandler.handle = K.handles.errorsThrowExceptions then .returns errorcode
  else .invokes errhandler errorcode

/-- The last step the entry points share once a handler is found: abort on a fatal code or a
fatal handler, else substitute a user code and call the handler. -/
def dispatchTo (s : Ring) (errhandler : Errhandler) (errcode : CInt) : Outcome :=
  if mpirErrIsFatal errcode ∨ errhandler.handle = K.handles.errorsAreFatal ∨
      errhandler.handle = K.handles.errorsAbort then .aborts errcode
  else mpirCallErrhandler K errhandler (checkForUserErrcode s errcode)

/-! ## The six entry points -/

/-- The communicator `MPIR_Err_return_comm` turns to when `commPtr` has no handler:
`MPI_COMM_SELF` if it has one, else `MPI_COMM_WORLD` if it has one, else `commPtr` itself. -/
def commFallback (P : Process) (commPtr : Option Comm) : Option Comm :=
  if (commPtr.bind (·.errhandler)).isNone then
    if (P.commSelf.bind (·.errhandler)).isSome then P.commSelf
    else if (P.commWorld.bind (·.errhandler)).isSome then P.commWorld
    else commPtr
  else commPtr

/-- `MPIR_Err_return_comm`. -/
def mpirErrReturnComm (P : Process) (s : Ring) (commPtr : Option Comm) (errcode : CInt) :
    Outcome :=
  let errcode := checkedCode K errcode
  if !P.initialized then .aborts errcode
  else
    let commPtr := commFallback P commPtr
    if mpirErrIsFatal errcode ∨ commPtr.isNone then .aborts errcode
    else
      match commPtr.bind (·.errhandler) with
      | none => .aborts errcode
      | some errhandler =>
        if errhandler.handle = K.handles.errorsAreFatal ∨
            errhandler.handle = K.handles.errorsAbort then .aborts errcode
        else mpirCallErrhandler K errhandler (checkForUserErrcode s errcode)

/-- `MPIR_Err_return_win`. -/
def mpirErrReturnWin (P : Process) (s : Ring) (winPtr : Option Win) (errcode : CInt) : Outcome :=
  match winPtr.bind (·.errhandler) with
  | none => mpirErrReturnComm K P s none errcode
  | some errhandler => dispatchTo K s errhandler (checkedCode K errcode)

/-- `MPIR_Err_return_session`. -/
def mpirErrReturnSession (P : Process) (s : Ring) (sessionPtr : Option Session)
    (errcode : CInt) : Outcome :=
  let errcode := checkedCode K errcode
  if !P.initialized then .aborts errcode
  else
    match sessionPtr with
    | none => mpirErrReturnComm K P s none errcode
    | some sp =>
      if sp.ref ≤ 0 then mpirErrReturnComm K P s none errcode
      else
        match sp.errhandler with
        | none => mpirErrReturnComm K P s none errcode
        | some errhandler => dispatchTo K s errhandler errcode

/-- `MPIR_Err_return_session_init`: a returning handler returns the checked code before any
other test. -/
def mpirErrReturnSessionInit (P : Process) (s : Ring) (errhandlerPtr : Option Errhandler)
    (errcode : CInt) : Outcome :=
  let errcode := checkedCode K errcode
  if errhandlerPtr.any fun eh => eh.handle = K.handles.errorsReturn ∨
      eh.handle = K.handles.errorsThrowExceptions then .returns errcode
  else if !P.initialized then .aborts errcode
  else
    match errhandlerPtr with
    | none => mpirErrReturnComm K P s none errcode
    | some errhandler => dispatchTo K s errhandler errcode

/-- `MPIR_Err_return_group`. -/
def mpirErrReturnGroup (P : Process) (s : Ring) (groupPtr : Option Group) (errcode : CInt) :
    Outcome :=
  match groupPtr.bind (·.sessionPtr) with
  | none => mpirErrReturnComm K P s none errcode
  | some sp => mpirErrReturnSession K P s (some sp) errcode

/-- `MPIR_Err_return_comm_create_from_group`: it calls the handler only when it does not
return. -/
def mpirErrReturnCommCreateFromGroup (P : Process) (s : Ring)
    (errhandlerPtr : Option Errhandler) (errcode : CInt) : Outcome :=
  let errcode := checkedCode K errcode
  if !P.initialized then .aborts errcode
  else
    match errhandlerPtr with
    | none => mpirErrReturnComm K P s none errcode
    | some errhandler =>
      if mpirErrIsFatal errcode ∨ errhandler.handle = K.handles.errorsAreFatal ∨
          errhandler.handle = K.handles.errorsAbort then .aborts errcode
      else
        let errcode := checkForUserErrcode s errcode
        if errhandler.handle ≠ K.handles.errorsReturn ∧
            errhandler.handle ≠ K.handles.errorsThrowExceptions then
          mpirCallErrhandler K errhandler errcode
        else .returns errcode

/-! ## The documented decision -/

/-- The handler the communicator fallback finds: `MPI_COMM_SELF`'s, else `MPI_COMM_WORLD`'s. -/
def fallbackHandler (P : Process) : Option Errhandler :=
  (P.commSelf.bind (·.errhandler)).orElse fun _ => P.commWorld.bind (·.errhandler)

/-- The handler of a communicator: its own, else the fallback's. -/
def commHandler (P : Process) (commPtr : Option Comm) : Option Errhandler :=
  (commPtr.bind (·.errhandler)).orElse fun _ => fallbackHandler P

/-- The handler of a window: its own, else the fallback's. -/
def winHandler (P : Process) (winPtr : Option Win) : Option Errhandler :=
  (winPtr.bind (·.errhandler)).orElse fun _ => fallbackHandler P

/-- The handler of a session: a live session's own, else the fallback's. -/
def sessionHandler (P : Process) (sessionPtr : Option Session) : Option Errhandler :=
  match sessionPtr with
  | some sp => if 0 < sp.ref then sp.errhandler.orElse fun _ => fallbackHandler P
    else fallbackHandler P
  | none => fallbackHandler P

/-- The handler of a group: its session's path. -/
def groupHandler (P : Process) (groupPtr : Option Group) : Option Errhandler :=
  sessionHandler P (groupPtr.bind (·.sessionPtr))

/-- The handler given to `_session_init` and `_comm_create_from_group`, else the fallback's. -/
def suppliedHandler (P : Process) (errhandlerPtr : Option Errhandler) : Option Errhandler :=
  errhandlerPtr.orElse fun _ => fallbackHandler P

/-- The decision for the handler `H` and the code `e`, as documented: abort for no handler, a
fatal handler, or a fatal checked code; else return the checked code after the user-code
substitution for a returning handler, or call a user handler with it. -/
def referenceDecision (s : Ring) (H : Option Errhandler) (e : CInt) : Outcome :=
  let e' := checkedCode K e
  match H with
  | none => .aborts e'
  | some eh =>
    if eh.handle = K.handles.errorsAreFatal ∨ eh.handle = K.handles.errorsAbort ∨
        mpirErrIsFatal e' then .aborts e'
    else if eh.handle = K.handles.errorsReturn ∨ eh.handle = K.handles.errorsThrowExceptions
    then .returns (checkForUserErrcode s e')
    else .invokes eh (checkForUserErrcode s e')

/-! ## Agreement -/

theorem checkedCode_of_le {e : CInt} (h : (errorGetClass e).toNat ≤ K.mpichErrLastMpix) :
    checkedCode K e = e := by
  rw [checkedCode, checkValidErrcode, if_neg]
  rw [toInt_errorGetClass]
  simp only [toNat_errorGetClass] at h
  omega

/-- The checked code passes the check unchanged: its class was valid, or is now
`MPI_ERR_UNKNOWN`. -/
@[simp] theorem checkedCode_checkedCode (e : CInt) :
    checkedCode K (checkedCode K e) = checkedCode K e := by
  have := K.unknown_le; have := K.lastClass_lt; have := K.firstMpix_lt; have := K.lastMpix_lt
  apply checkedCode_of_le
  unfold checkedCode checkValidErrcode
  split
  · rw [show (e &&& ~~~errorClassMask) ||| BitVec.ofNat 32 K.mpiErrUnknown =
      withClass e (BitVec.ofNat 32 K.mpiErrUnknown) from rfl, toNat_errorGetClass,
      toNat_withClass _ (by simp; omega)]
    simp only [BitVec.toNat_ofNat]
    omega
  · rename_i h
    rw [toInt_errorGetClass] at h
    simp only [toNat_errorGetClass]
    omega

/-- The documented decision is the shared last step, for a handler that exists. -/
theorem referenceDecision_eq (s : Ring) (H : Option Errhandler) (e : CInt) :
    referenceDecision K s H e =
      H.elim (.aborts (checkedCode K e)) fun eh => dispatchTo K s eh (checkedCode K e) := by
  cases H with
  | none => rfl
  | some eh =>
    simp only [referenceDecision, Option.elim, dispatchTo, mpirCallErrhandler]
    by_cases h : mpirErrIsFatal (checkedCode K e) = true ∨ eh.handle = K.handles.errorsAreFatal ∨
      eh.handle = K.handles.errorsAbort
    · rw [if_pos h, if_pos (by tauto)]
    · rw [if_neg h, if_neg (by tauto)]

@[simp] theorem referenceDecision_checkedCode (s : Ring) (H : Option Errhandler) (e : CInt) :
    referenceDecision K s H (checkedCode K e) = referenceDecision K s H e := by
  simp only [referenceDecision_eq, checkedCode_checkedCode]

theorem commFallback_errhandler (P : Process) (c : Option Comm) :
    (commFallback P c).bind (·.errhandler) = commHandler P c := by
  unfold commFallback commHandler fallbackHandler
  rcases hc : c.bind (·.errhandler) with _ | eh
  · rcases hs : P.commSelf.bind (·.errhandler) with _ | es
    · rcases hw : P.commWorld.bind (·.errhandler) with _ | ew <;> simp [hc, hs, hw]
    · simp [hs]
  · simp [hc]

section Initialised

variable {K} {P : Process} (hP : P.initialized = true) (s : Ring) (e : CInt)
include hP

theorem mpirErrReturnComm_eq (c : Option Comm) :
    mpirErrReturnComm K P s c e = referenceDecision K s (commHandler P c) e := by
  rw [referenceDecision_eq, ← commFallback_errhandler]
  simp only [mpirErrReturnComm, hP, Bool.not_true, Bool.false_eq_true, if_false]
  rcases hf : commFallback P c with _ | ⟨_ | eh⟩
  · simp
  · simp
  · simp only [Option.isNone_some, Bool.false_eq_true, or_false, Option.some_bind,
      Option.elim, dispatchTo]
    by_cases h : mpirErrIsFatal (checkedCode K e) = true <;> simp [h]

theorem mpirErrReturnWin_eq (w : Option Win) :
    mpirErrReturnWin K P s w e = referenceDecision K s (winHandler P w) e := by
  unfold mpirErrReturnWin winHandler
  rcases hw : w.bind (·.errhandler) with _ | eh
  · rw [mpirErrReturnComm_eq hP]; rfl
  · rw [referenceDecision_eq]; rfl

theorem mpirErrReturnSession_eq (sp : Option Session) :
    mpirErrReturnSession K P s sp e = referenceDecision K s (sessionHandler P sp) e := by
  have hc : ∀ e', mpirErrReturnComm K P s none (checkedCode K e') =
      referenceDecision K s (fallbackHandler P) e' := fun e' => by
    rw [mpirErrReturnComm_eq hP, referenceDecision_checkedCode]; rfl
  simp only [mpirErrReturnSession, hP, Bool.not_true, Bool.false_eq_true, if_false]
  rcases sp with _ | ⟨_ | eh, ref⟩
  · exact hc e
  · by_cases h : ref ≤ 0 <;> simp [h, hc, sessionHandler]
  · by_cases h : ref ≤ 0
    · simp [h, hc, sessionHandler, not_lt.mpr h]
    · simp [h, sessionHandler, referenceDecision_eq, not_le.mp h]

theorem mpirErrReturnGroup_eq (g : Option Group) :
    mpirErrReturnGroup K P s g e = referenceDecision K s (groupHandler P g) e := by
  unfold mpirErrReturnGroup groupHandler
  rcases g.bind (·.sessionPtr) with _ | sp
  · rw [mpirErrReturnComm_eq hP]; rfl
  · exact mpirErrReturnSession_eq hP s e (some sp)

theorem mpirErrReturnCommCreateFromGroup_eq (eh : Option Errhandler) :
    mpirErrReturnCommCreateFromGroup K P s eh e =
      referenceDecision K s (suppliedHandler P eh) e := by
  simp only [mpirErrReturnCommCreateFromGroup, hP, Bool.not_true, Bool.false_eq_true, if_false]
  rcases eh with _ | eh
  · rw [mpirErrReturnComm_eq hP, referenceDecision_checkedCode]; rfl
  · rw [referenceDecision_eq]
    show _ = dispatchTo K s eh (checkedCode K e)
    simp only [dispatchTo, mpirCallErrhandler]
    split_ifs <;> simp_all

theorem mpirErrReturnSessionInit_eq (eh : Option Errhandler) :
    mpirErrReturnSessionInit K P s eh e =
      if eh.any fun h => h.handle = K.handles.errorsReturn ∨
          h.handle = K.handles.errorsThrowExceptions then .returns (checkedCode K e)
      else referenceDecision K s (suppliedHandler P eh) e := by
  simp only [mpirErrReturnSessionInit, hP, Bool.not_true, Bool.false_eq_true, if_false]
  split_ifs with h
  · rfl
  · rcases eh with _ | eh
    · rw [mpirErrReturnComm_eq hP, referenceDecision_checkedCode]; rfl
    · rw [referenceDecision_eq]; rfl

end Initialised

/-- In an initialised process `MPIR_Err_return_comm`, `_win`, `_session`, `_group` and
`_comm_create_from_group` make the documented decision for the handler each resolves;
`_session_init` makes it too unless its handler returns, in which case it returns the checked
code before the fatal test and the user-code substitution. -/
theorem entry_points_agree {P : Process} (hP : P.initialized = true) (s : Ring) (e : CInt) :
    (∀ c, mpirErrReturnComm K P s c e = referenceDecision K s (commHandler P c) e) ∧
    (∀ w, mpirErrReturnWin K P s w e = referenceDecision K s (winHandler P w) e) ∧
    (∀ sp, mpirErrReturnSession K P s sp e = referenceDecision K s (sessionHandler P sp) e) ∧
    (∀ g, mpirErrReturnGroup K P s g e = referenceDecision K s (groupHandler P g) e) ∧
    (∀ eh, mpirErrReturnCommCreateFromGroup K P s eh e =
      referenceDecision K s (suppliedHandler P eh) e) ∧
    (∀ eh, mpirErrReturnSessionInit K P s eh e =
      if eh.any fun h => h.handle = K.handles.errorsReturn ∨
          h.handle = K.handles.errorsThrowExceptions then .returns (checkedCode K e)
      else referenceDecision K s (suppliedHandler P eh) e) :=
  ⟨mpirErrReturnComm_eq hP s e, mpirErrReturnWin_eq hP s e, mpirErrReturnSession_eq hP s e,
    mpirErrReturnGroup_eq hP s e, mpirErrReturnCommCreateFromGroup_eq hP s e,
    mpirErrReturnSessionInit_eq hP s e⟩

/-- An initialised process with no predefined communicators. -/
def Process.bare : Process := ⟨true, none, none⟩

/-- The agreement in the bare process, for the zeroed ring and the code 0. -/
theorem entry_points_agree_bare :
    Process.bare.initialized = true ∧
    (∀ c, mpirErrReturnComm Config.sample Process.bare Ring.init c 0 =
      referenceDecision Config.sample Ring.init (commHandler Process.bare c) 0) ∧
    (∀ w, mpirErrReturnWin Config.sample Process.bare Ring.init w 0 =
      referenceDecision Config.sample Ring.init (winHandler Process.bare w) 0) ∧
    (∀ sp, mpirErrReturnSession Config.sample Process.bare Ring.init sp 0 =
      referenceDecision Config.sample Ring.init (sessionHandler Process.bare sp) 0) ∧
    (∀ g, mpirErrReturnGroup Config.sample Process.bare Ring.init g 0 =
      referenceDecision Config.sample Ring.init (groupHandler Process.bare g) 0) ∧
    (∀ eh, mpirErrReturnCommCreateFromGroup Config.sample Process.bare Ring.init eh 0 =
      referenceDecision Config.sample Ring.init (suppliedHandler Process.bare eh) 0) ∧
    (∀ eh, mpirErrReturnSessionInit Config.sample Process.bare Ring.init eh 0 =
      if eh.any fun h => h.handle = Config.sample.handles.errorsReturn ∨
          h.handle = Config.sample.handles.errorsThrowExceptions then
        .returns (checkedCode Config.sample 0)
      else referenceDecision Config.sample Ring.init (suppliedHandler Process.bare eh) 0) :=
  ⟨rfl, entry_points_agree Config.sample rfl Ring.init 0⟩

/-- Code 129 has class 1 and the fatal bit.  Handed to `_session_init` with `MPI_ERRORS_RETURN`
in an initialised process it comes back, where `_comm_create_from_group`, given the same handler,
aborts, as the documented decision for that handler does. -/
theorem sessionInit_returns_fatal :
    Process.bare.initialized = true ∧ mpirErrIsFatal 129 = true ∧
    mpirErrReturnSessionInit Config.sample Process.bare Ring.init
      (some ⟨Config.sample.handles.errorsReturn⟩) 129 = .returns 129 ∧
    mpirErrReturnCommCreateFromGroup Config.sample Process.bare Ring.init
      (some ⟨Config.sample.handles.errorsReturn⟩) 129 = .aborts 129 ∧
    referenceDecision Config.sample Ring.init
      (suppliedHandler Process.bare (some ⟨Config.sample.handles.errorsReturn⟩)) 129 =
      .aborts 129 := by
  decide

/-! ## A user code reaches the caller -/

/-- The codes of a chain of creates built on a `**user` create all carry its user code `u`,
through other creates and combines, while fewer than `MAX_ERROR_RING` creates follow it; and
`MPIR_Err_return_comm` with `MPI_ERRORS_RETURN` returns `u` for each of them that is not fatal. -/
theorem user_code_returned {s : Ring} {lastcode errorClass : CInt} {fatal : Bool}
    {fcname : Option CStr} {line : Int} {sm : CStr} {u : CInt} {rest : List VaArg}
    (hcls : isValidErrorClass K errorClass)
    (hin : effectiveClass K (checkedLastcode K s lastcode) errorClass ≠
      BitVec.ofNat 32 K.mpiErrInStatus)
    (hfound : 0 ≤ findGenericMsgIndex K "**user")
    (hasc : IsAscii K "**user" (some sm) (.int u :: rest)) {m : Nat} {s' : Ring}
    {hs : List CInt}
    (h : CarryRun K (mpirErrCreateCodeValist K s lastcode fatal fcname line errorClass "**user"
        (some sm) (.int u :: rest)).2
      (mpirErrCreateCodeValist K s lastcode fatal fcname line errorClass "**user" (some sm)
        (.int u :: rest)).1 m s' hs)
    (hm : m < maxErrorRing) :
    ∀ a ∈ hs, checkForUserErrcode s' a = u ∧
      (mpirErrIsFatal a = false → ∀ (P : Process) (c : Option Comm), P.initialized = true →
        commHandler P c = some ⟨K.handles.errorsReturn⟩ →
          mpirErrReturnComm K P s' c a = .returns u) := by
  intro a ha
  have hc := carryRun_carries K hcls hin hfound hasc h hm a ha
  refine ⟨hc.checkForUserErrcode, fun hf P c hP hH => ?_⟩
  have hd := K.handles.errors_nodup
  simp only [List.nodup_cons, List.mem_cons, List.mem_singleton, not_or, List.not_mem_nil,
    not_false_eq_true, List.nodup_nil, and_true] at hd
  rw [mpirErrReturnComm_eq hP, hH, referenceDecision, checkedCode_of_le K hc.class_le]
  simp [Ne.symm hd.1.1, hd.2.1.2, hf, hc.checkForUserErrcode]

/-- A `**user` create of class 1 with the user code 5, from the zeroed ring. -/
def userCreate : CInt × Ring :=
  mpirErrCreateCodeValist Config.sample Ring.init mpiSuccess false (some "f") 1 1 "**user"
    (some "x") [.int 5]

/-- A `**fail` create from `MPI_SUCCESS` after the `**user` one, on a chain of its own. -/
def otherCreate : CInt × Ring :=
  mpirErrCreateCodeValist Config.sample userCreate.2 mpiSuccess false (some "g") 2 1 "**fail"
    none []

/-- A `**fail` create chained from the `**user` code, after the other create. -/
def chainedCreate : CInt × Ring :=
  mpirErrCreateCodeValist Config.sample otherCreate.2 userCreate.1 false (some "h") 3 1 "**fail"
    none []

set_option maxRecDepth 8000 in
/-- A run after the `**user` create: a create on another chain, then a create chained from the
user code.  Both codes of the chain give back the user code 5. -/
theorem user_code_returned_chain :
    isValidErrorClass Config.sample 1 ∧
    effectiveClass Config.sample (checkedLastcode Config.sample Ring.init mpiSuccess) 1 ≠
      BitVec.ofNat 32 Config.sample.mpiErrInStatus ∧
    0 ≤ findGenericMsgIndex Config.sample "**user" ∧
    IsAscii Config.sample "**user" (some "x") [.int 5] ∧
    CarryRun Config.sample userCreate.2 userCreate.1 2 chainedCreate.2
      [chainedCreate.1, userCreate.1] ∧ 2 < maxErrorRing ∧
    ∀ a ∈ [chainedCreate.1, userCreate.1], checkForUserErrcode chainedCreate.2 a = 5 ∧
      (mpirErrIsFatal a = false → ∀ (P : Process) (c : Option Comm), P.initialized = true →
        commHandler P c = some ⟨Config.sample.handles.errorsReturn⟩ →
        mpirErrReturnComm Config.sample P chainedCreate.2 c a = .returns 5) := by
  have hcls : isValidErrorClass Config.sample 1 := by decide
  have hin : effectiveClass Config.sample (checkedLastcode Config.sample Ring.init mpiSuccess) 1 ≠
      BitVec.ofNat 32 Config.sample.mpiErrInStatus := by decide
  have hfound : 0 ≤ findGenericMsgIndex Config.sample "**user" := by decide
  have hasc : IsAscii Config.sample "**user" (some "x") [.int 5] := by unfold IsAscii; decide
  have hrun : CarryRun Config.sample userCreate.2 userCreate.1 2 chainedCreate.2
      [chainedCreate.1, userCreate.1] :=
    .chain false (some "h") 3 1 "**fail" none []
      (.create mpiSuccess false (some "g") 2 1 "**fail" none [] .start) (by decide) (by decide)
      (by decide) (by decide) (by unfold IsAscii; decide)
  exact ⟨hcls, hin, hfound, hasc, hrun, by decide,
    user_code_returned Config.sample hcls hin hfound hasc hrun (by decide)⟩

/-- The same create with class `MPI_ERR_IN_STATUS` (17). -/
def inStatusCreate : CInt × Ring :=
  mpirErrCreateCodeValist Config.sample Ring.init mpiSuccess false (some "f") 1 17 "**user"
    (some "x") [.int 5]

set_option maxRecDepth 8000 in
/-- A create of class `MPI_ERR_IN_STATUS` returns the class itself and writes no slot, so
`checkForUserErrcode` gives back 17, not the user code 5. -/
theorem user_code_lost_in_status :
    inStatusCreate.1 = 17 ∧ inStatusCreate.2 = Ring.init ∧
      checkForUserErrcode inStatusCreate.2 inStatusCreate.1 = 17 :=
  ⟨by decide, rfl, by decide⟩

end MpichErrhan
