import MpichErrhan.GetString
import MpichErrhan.Dispatch

/-!
# The abort message: `MPIR_Handle_fatal_error`

An entry point whose decision is `Outcome.aborts` calls `MPIR_Handle_fatal_error(comm_ptr, fcname,
errcode)`.  It prints `"Fatal error in <fcname>: "` into a local array of `MAX_ERRMSG_STRING`
bytes, lets `MPIR_Err_get_string` write the text of the code after it, and hands the array to
`MPID_Abort`, which does not return.  The model is the call to `MPID_Abort` the routine makes, or
the `Fault` of a write on the way.

## Main results

* `mpirHandleFatalError_of_chain`: with `MPIR_CVAR_PRINT_ERROR_STACK` off, the abort message for a
  code whose walk ends is the prefix, the class message and the text of the oldest slot the walk
  reaches, cut to `MAX_ERRMSG_STRING - 1` bytes, whatever the array held before the call.
-/

namespace MpichErrhan

/-- `MAX_ERRMSG_STRING`: `MPI_MAX_ERROR_STRING`, but at least 4096. -/
def maxErrmsgString (mpiMaxErrorString : Nat) : Nat :=
  if mpiMaxErrorString < 4096 then 4096 else mpiMaxErrorString

/-- For an `int` `MPI_MAX_ERROR_STRING`, `MAX_ERRMSG_STRING` is at least 4096 and an `int`. -/
theorem maxErrmsgString_bounds {mpiMaxErrorString : Nat} (h : mpiMaxErrorString < 2 ^ 31) :
    4096 ≤ maxErrmsgString mpiMaxErrorString ∧ maxErrmsgString mpiMaxErrorString < 2 ^ 31 := by
  unfold maxErrmsgString
  split <;> omega

/-- The call `MPID_Abort(comm_ptr, MPI_SUCCESS, errcode, error_msg)`. -/
structure AbortCall where
  commPtr : Option Comm
  exitCode : CInt
  errcode : CInt
  errorMsg : CStr

variable (K : Config)

/-- `MPIR_Handle_fatal_error(comm_ptr, fcname, errcode)`.  `errorMsg` is the local array as the
call finds it: its `MAX_ERRMSG_STRING` bytes are not initialised. -/
def mpirHandleFatalError (s : Ring) (mpiMaxErrorString : Nat) (errorMsg : List Char)
    (commPtr : Option Comm) (fcname : CStr) (errcode : CInt) : Except Fault AbortCall := do
  let errorMsg ← snprintf errorMsg 0 (maxErrmsgString mpiMaxErrorString)
    ("Fatal error in " ++ fcname ++ ": ")
  let len ← strlen errorMsg 0
  let errorMsg ←
    mpirErrGetString K s errcode errorMsg len (maxErrmsgString mpiMaxErrorString - len)
  let msg ← cstrAt errorMsg 0
  pure ⟨commPtr, mpiSuccess, errcode, msg⟩

section Chain

variable {K} {s : Ring} {M : Nat} {errorMsg : List Char}

/-- With `MPIR_CVAR_PRINT_ERROR_STACK` off, a code that is neither dynamic nor a bare class, whose
walk ends, aborts with `"Fatal error in <fcname>: "`, its class message and `", "` and the text of
the oldest slot the walk reaches, all cut to `MAX_ERRMSG_STRING - 1` bytes.  The message does not
depend on what the array held: the prefix ends where `MPIR_Err_get_string` starts, and
`MPIR_Err_get_string` ends its text in a NUL within the array. -/
theorem mpirHandleFatalError_of_chain (hps : K.printErrorStack = false) {c t : CInt}
    {es : List Nat} (hc : Chain s c es t) (hdyn : c &&& errorDynMask = 0)
    (hcls : c &&& errorClassMask ≠ c) {m : CStr} (hm : getClassMsg K (errorGetClass c) = .ok m)
    (hM : M < 2 ^ 31) (hbuf : errorMsg.length = maxErrmsgString M) (commPtr : Option Comm)
    (fcname : CStr) :
    mpirHandleFatalError K s M errorMsg commPtr fcname c = .ok ⟨commPtr, mpiSuccess, c,
      CStr.take (maxErrmsgString M - 1) ("Fatal error in " ++ fcname ++ ": " ++
        (m ++ (es.getLast?.map fun i => ", " ++ (s.errorRing i).msg).getD ∅))⟩ := by
  obtain ⟨hlo, hhi⟩ := maxErrmsgString_bounds hM
  rw [mpirHandleFatalError]
  set n := maxErrmsgString M
  set P : CStr := "Fatal error in " ++ fcname ++ ": "
  set T : CStr := m ++ (es.getLast?.map fun i => ", " ++ (s.errorRing i).msg).getD ∅
  set w := P.take (n - 1)
  have hw : w.chars.length = min (n - 1) P.chars.length := List.length_take _ _
  -- the prefix and its NUL, and `strlen` of it
  have hpre : snprintf errorMsg 0 n P = .ok (splice errorMsg 0 (w.chars ++ ['\x00'])) :=
    snprintf_of_pos P (le_refl 0) (by omega) (by omega)
  have hb₁ : (splice errorMsg 0 (w.chars ++ ['\x00'])).length = n :=
    hbuf ▸ length_splice (by simp only [List.length_append, List.length_singleton]; omega)
  have hlen : strlen (splice errorMsg 0 (w.chars ++ ['\x00'])) 0 = .ok w.chars.length :=
    congrArg (Except.map CStr.length) (cstrAt_splice (p := 0) (by rw [CStr.length_eq]; omega))
  -- the text of the code after it
  have hroom : ((w.chars.length : Nat) : Int) + ((n : Int) - w.chars.length) ≤
      (splice errorMsg 0 (w.chars ++ ['\x00'])).length := by omega
  obtain ⟨rest, hget, hrest⟩ :=
    mpirErrGetString_of_chain hps hc hdyn hcls hm (by omega) (by omega) (by omega) hroom
  have hk : ((n : Int) - w.chars.length).toNat = n - w.chars.length := by omega
  rw [hk] at hget hrest
  rw [Int.toNat_ofNat] at hget
  set x := T.take (n - w.chars.length - 1)
  have hsplice : splice (splice errorMsg 0 (w.chars ++ ['\x00'])) w.chars.length
      (x.chars ++ '\x00' :: rest) = splice errorMsg 0 ((w ++ x).chars ++ '\x00' :: rest) := by
    have h := splice_append_overwrite (w := w.chars) (l := x.chars ++ '\x00' :: rest)
      (Nat.zero_le errorMsg.length)
      (show (['\x00'] : List Char).length ≤ (x.chars ++ '\x00' :: rest).length by
        simp only [List.length_cons, List.length_append, List.length_nil]; omega)
    rw [Nat.zero_add] at h
    rw [CStr.append_chars, List.append_assoc, ← h]
  -- the message is the whole array up to that NUL
  have hmsg : cstrAt (splice errorMsg 0 ((w ++ x).chars ++ '\x00' :: rest)) 0 = .ok (w ++ x) :=
    cstrAt_splice (p := 0) (by simp only [CStr.length_eq, CStr.append_chars,
      List.length_append] at hrest ⊢; omega)
  have htext : w ++ x = (P ++ T).take (n - 1) := by
    refine CStr.ext' ?_
    show P.chars.take (n - 1) ++ T.chars.take (n - w.chars.length - 1) =
      (P.chars ++ T.chars).take (n - 1)
    rw [List.take_append_eq_append_take, hw,
      show n - min (n - 1) P.chars.length - 1 = n - 1 - P.chars.length by omega]
  rw [hpre, ok_bind, hlen, ok_bind, hget, ok_bind, hsplice, hmsg, ok_bind, htext]
  rfl

end Chain

/-- The sample configuration with `MPIR_CVAR_PRINT_ERROR_STACK` off. -/
def noStackConfig : Config := { Config.sample with printErrorStack := false }

set_option maxRecDepth 8000 in
/-- Without the stack, a fatal error on the `MPI_Send` code, whose walk visits its own slot and
then `wrapCode`'s, aborts with the message of the last slot of the walk only, the oldest:
`Fatal error in MPI_Send: Other MPI error, Failure`, for an `MPI_MAX_ERROR_STRING` of 1024 and an
array of any 4096 bytes. -/
theorem mpirHandleFatalError_of_chain_pop :
    noStackConfig.printErrorStack = false ∧ Chain sendCreate.2 sendCreate.1 [1, 0] mpiSuccess ∧
      sendCreate.1 &&& errorDynMask = 0 ∧ sendCreate.1 &&& errorClassMask ≠ sendCreate.1 ∧
      getClassMsg noStackConfig (errorGetClass sendCreate.1) = .ok "Other MPI error" ∧
      1024 < 2 ^ 31 ∧ (List.replicate 4096 'x').length = maxErrmsgString 1024 ∧
      mpirHandleFatalError noStackConfig sendCreate.2 1024 (List.replicate 4096 'x') none
        "MPI_Send" sendCreate.1 = .ok ⟨none, mpiSuccess, sendCreate.1,
          "Fatal error in MPI_Send: Other MPI error, Failure"⟩ := by
  have hc := sendCreate_chain
  obtain ⟨hdyn, hcls⟩ := sendCreate_code_fields
  have hm : getClassMsg noStackConfig (errorGetClass sendCreate.1) = .ok "Other MPI error" := rfl
  have hbuf : (List.replicate 4096 'x').length = maxErrmsgString 1024 := List.length_replicate _ _
  exact ⟨rfl, hc, hdyn, hcls, hm, by decide, hbuf,
    (mpirHandleFatalError_of_chain rfl hc hdyn hcls hm (by decide) hbuf none "MPI_Send").trans
      rfl⟩

end MpichErrhan
