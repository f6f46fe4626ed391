import MpichErrhan.Stack

/-!
# `MPIR_Err_get_string`: the text of a code

`MPIR_Err_get_string(errorcode, msg, length, NULL)` is what `MPI_Error_string` runs on a code
the user hands in, so its argument is any 32-bit value.  It writes:

* for a dynamic code, the text the dynamic-code hook gives, or `Undefined dynamic error code`;
* for a code that is a bare class, the class message;
* otherwise the class message, then `ErrGetInstanceString`: `, error stack:` and the stack
  (`MPIR_Err_print_stack_string`) when `MPIR_CVAR_PRINT_ERROR_STACK` is set, and else the last
  slot text of the chain, each slot overwriting the one before.

Every step bounds its write by what is left of `length`, but the stack's last line comes from the
generic table at the index a code's generic field names, and a code that no create made can name
any index (`mpirErrGetString_reads_past_table`).

## Main results

* `instanceLoop_of_chain`: along a walk that ends, the loop without the stack leaves at `msg` the
  text of the last slot it visits, cut to `num_remaining - 1` bytes, in `num_remaining` bytes.
* `mpirErrGetString_of_chain`: without the stack, the text of a code whose walk ends is its class
  message and then `", "` and the last slot text, cut to `length - 1` bytes and terminated, and
  nothing outside the `length` bytes at `msg` changes.
* `mpirErrGetString_reads_past_table`: a code with a generic field past the table makes the
  routine read `generic_err_msgs` out of its bounds, with all the room the object has.
-/

namespace MpichErrhan

variable (K : Config)

/-! ## `ErrGetInstanceString` -/

/-- The loop of `ErrGetInstanceString` without the stack: each slot of the chain overwrites
`msg` with `", "` and its text, cut to `num_remaining`.  It returns the link it stopped at. -/
def instanceLoop (s : Ring) (p numRemaining : Int) :
    Nat → List Char → CInt → Except Fault (List Char × CInt)
  | 0, _, _ => .error .diverges
  | fuel + 1, buf, errorcode =>
    if errorcode = mpiSuccess then .ok (buf, errorcode)
    else
      match s.link? errorcode with
      | none => .ok (buf, errorcode)
      | some i => do
        let buf ← snprintf buf p (sizeT numRemaining) (", " ++ (s.errorRing i).msg)
        let buf ← store buf (p + numRemaining - 1) '\x00'
        instanceLoop s p numRemaining fuel buf (s.errorRing i).prevError

/-- `ErrGetInstanceString(errorcode, msg, num_remaining)`, writing into `buf` from `p`; the flag
is its return value, that the walk did not end at `MPI_SUCCESS`. -/
def errGetInstanceString (s : Ring) (errorcode : CInt) (buf : List Char) (p numRemaining : Int) :
    Except Fault (List Char × Bool) :=
  if K.printErrorStack then do
    let (buf, _) ← mplStrncpy buf p ", error stack:\n" (sizeT numRemaining)
    let buf ← store buf (p + numRemaining - 1) '\x00'
    let len ← strlen buf p
    let buf ← mpirErrPrintStackString K s errorcode buf (p + len) (numRemaining - len)
    let buf ← store buf (p + len + (numRemaining - len) - 1) '\x00'
    pure (buf, errorcode ≠ mpiSuccess)
  else do
    let (buf, errorcode) ← instanceLoop s p numRemaining (maxErrorRing + 1) buf errorcode
    pure (buf, errorcode ≠ mpiSuccess)

section Walks

variable {s : Ring}

/-- Each pass of the loop overwrites the `num_remaining` bytes at `msg`, so along a walk that ends
only the last slot's text is left, with a NUL after it. -/
theorem instanceLoop_of_chain {c t : CInt} {es : List Nat} (hc : Chain s c es t) {p n : Nat}
    (hn : 0 < n) (h63 : n < 2 ^ 63) {fuel : Nat} (hfuel : es.length < fuel) {buf : List Char}
    (hbuf : p + n ≤ buf.length) :
    ∃ out, instanceLoop s p n fuel buf c = .ok (out, t) ∧ (es = [] → out = buf) ∧
      ∀ i ∈ es.getLast?, ∃ rest,
        out = splice buf p
          (((", " ++ (s.errorRing i).msg).take (n - 1)).chars ++ '\x00' :: rest) ∧
        ((", " ++ (s.errorRing i).msg).take (n - 1)).length + 1 + rest.length = n := by
  induction hc generalizing fuel buf with
  | stop hl =>
    obtain ⟨f, rfl⟩ : ∃ f, fuel = f + 1 :=
      ⟨fuel - 1, by simp only [List.length_nil] at hfuel; omega⟩
    exact ⟨buf, by simp only [instanceLoop, hl, ite_self], fun _ => rfl, nofun⟩
  | @step c i es t hl _ ih =>
    have hc0 : c ≠ mpiSuccess := by rintro rfl; rw [link?_success] at hl; cases hl
    obtain ⟨f, rfl⟩ : ∃ f, fuel = f + 1 :=
      ⟨fuel - 1, by simp only [List.length_cons] at hfuel; omega⟩
    have hT : ((", " ++ (s.errorRing i).msg).take (n - 1)).chars.length < n := by
      simp only [CStr.take_chars, List.length_take]; omega
    obtain ⟨rest, hst, hlen⟩ :=
      store_nul_within (p := p) (by omega) hT (show (p : Int) + n ≤ buf.length by omega)
    simp only [Int.toNat_ofNat] at hst
    have hb₁ : p + n ≤ (splice buf p (((", " ++ (s.errorRing i).msg).take (n - 1)).chars ++
        '\x00' :: rest)).length := by
      rw [length_splice (by simp only [List.length_append, List.length_cons]; omega)]; exact hbuf
    obtain ⟨out, hrun, hnil, hlast⟩ :=
      ih (by simp only [List.length_cons] at hfuel; omega : es.length < f) hb₁
    refine ⟨out, ?_, nofun, ?_⟩
    · simp only [instanceLoop, hc0, hl, if_false]
      rw [sizeT_of_nonneg (by omega) (by omega), Int.toNat_ofNat,
        snprintf_of_pos _ (by omega) hn (by omega), ok_bind, Int.toNat_ofNat, hst, ok_bind, hrun]
    · cases es with
      | nil =>
        rintro k ⟨⟩
        exact ⟨rest, hnil rfl, hlen⟩
      | cons j es =>
        intro k hk
        obtain ⟨rest', rfl, hlen'⟩ := hlast k (by simpa using hk)
        refine ⟨rest', ?_, hlen'⟩
        have hd : (((", " ++ (s.errorRing i).msg).take (n - 1)).chars ++ '\x00' :: rest).length ≤
            (((", " ++ (s.errorRing k).msg).take (n - 1)).chars ++ '\x00' :: rest').length := by
          simp only [List.length_append, List.length_cons, CStr.length_eq] at hlen hlen' ⊢; omega
        rw [splice_overwrite (by omega), List.drop_eq_nil_of_le hd, List.append_nil]

end Walks

/-! ## `MPIR_Err_get_string` -/

/-- `MPL_strncpy(msg, text, length)`, then the NUL at `msg[length - 1]` when the copy was cut. -/
def copyCut (buf : List Char) (p length : Int) (text : CStr) : Except Fault (List Char) := do
  let (buf, cut) ← mplStrncpy buf p text (sizeT length)
  if cut then store buf (p + length - 1) '\x00' else pure buf

/-- `MPIR_Err_get_string(errorcode, msg, length, NULL)`, writing into `buf` from `p`. -/
def mpirErrGetString (s : Ring) (errorcode : CInt) (buf : List Char) (p length : Int) :
    Except Fault (List Char) :=
  if length = 0 then .ok buf
  else if errorcode &&& errorDynMask ≠ 0 then
    copyCut buf p length
      ((K.errcodeToString.map fun f => f errorcode).getD "Undefined dynamic error code")
  else if errorcode &&& errorClassMask = errorcode then do
    let m ← getClassMsg K errorcode
    copyCut buf p length m
  else do
    let m ← getClassMsg K (errorGetClass errorcode)
    let (buf, _) ← mplStrncpy buf p m (sizeT length)
    let buf ← store buf (p + length - 1) '\x00'
    let len ← strlen buf p
    let (buf, _) ← errGetInstanceString K s errorcode buf (p + len) (length - len)
    pure buf

section Text

variable {K} {s : Ring}

/-- With `MPIR_CVAR_PRINT_ERROR_STACK` off, a code that is neither dynamic nor a bare class, whose
walk ends, gets its class message and then `", "` and the text of the oldest slot the walk reaches,
cut to `length - 1` bytes; the `length` bytes at `msg` are that text, a NUL, and what the passes
left after it. -/
theorem mpirErrGetString_of_chain (hps : K.printErrorStack = false) {c t : CInt} {es : List Nat}
    (hc : Chain s c es t) (hdyn : c &&& errorDynMask = 0) (hcls : c &&& errorClassMask ≠ c)
    {m : CStr} (hm : getClassMsg K (errorGetClass c) = .ok m) {buf : List Char} {p length : Int}
    (h0 : 0 ≤ p) (hlen : 0 < length) (h31 : length < 2 ^ 31) (hbuf : p + length ≤ buf.length) :
    ∃ rest, mpirErrGetString K s c buf p length = .ok (splice buf p.toNat
      (((m ++ (es.getLast?.map fun i => ", " ++ (s.errorRing i).msg).getD ∅).take
        (length.toNat - 1)).chars ++ '\x00' :: rest)) ∧
      ((m ++ (es.getLast?.map fun i => ", " ++ (s.errorRing i).msg).getD ∅).take
        (length.toNat - 1)).length + 1 + rest.length = length.toNat := by
  obtain ⟨q, rfl⟩ : ∃ q : Nat, p = q := ⟨p.toNat, by omega⟩
  obtain ⟨L, rfl⟩ : ∃ L : Nat, length = L := ⟨length.toNat, by omega⟩
  simp only [Int.toNat_ofNat]
  obtain ⟨cut, hcp⟩ := mplStrncpy_of_pos (n := L) m h0 (by omega) hbuf
  obtain ⟨r₁, hst, hl₁⟩ := store_nul_within (n := L) (x := (m.take (L - 1)).chars) h0
    (by simp only [CStr.take_chars, List.length_take]; omega) hbuf
  simp only [Int.toNat_ofNat] at hcp hst
  have hb₁ : (splice buf q ((m.take (L - 1)).chars ++ '\x00' :: r₁)).length = buf.length :=
    length_splice (by simp only [List.length_append, List.length_cons] at hl₁ ⊢; omega)
  have hstr : strlen (splice buf q ((m.take (L - 1)).chars ++ '\x00' :: r₁)) q =
      .ok (m.take (L - 1)).chars.length := by
    rw [strlen, cstrAt_splice (by simp only [CStr.length_eq]; omega)]; rfl
  have hwl : (m.take (L - 1)).chars.length = min (L - 1) m.chars.length := by
    rw [CStr.take_chars, List.length_take]
  generalize hw : (m.take (L - 1)).chars = w at hcp hst hl₁ hb₁ hstr hwl
  obtain ⟨out, hrun, hnil, hlast⟩ := instanceLoop_of_chain hc (p := q + w.length)
    (n := L - w.length) (by omega) (by omega) (Nat.lt_succ_of_le hc.length_le)
    (show q + w.length + (L - w.length) ≤ (splice buf q (w ++ '\x00' :: r₁)).length by omega)
  have hrun' : mpirErrGetString K s c buf q L = .ok out := by
    rw [mpirErrGetString, if_neg (by omega), if_neg (by simp [hdyn]), if_neg hcls, hm, ok_bind,
      sizeT_of_nonneg (by omega) (by omega), Int.toNat_ofNat, hcp, ok_bind]
    dsimp only
    rw [hst, ok_bind, hstr, ok_bind, errGetInstanceString, hps, if_neg Bool.false_ne_true,
      ← Nat.cast_add q w.length, ← Nat.cast_sub (show w.length ≤ L by omega), hrun]
    rfl
  rw [CStr.take_chars] at hw
  rw [hrun']
  cases hes : es.getLast? with
  | none =>
    refine ⟨r₁, ?_, ?_⟩
    · simp only [Option.map_none', Option.getD_none, CStr.take_chars, CStr.append_chars,
        CStr.empty_chars, List.append_nil, hw, hnil (List.getLast?_eq_none_iff.mp hes)]
    · simp only [Option.map_none', Option.getD_none, CStr.length_eq, CStr.take_chars,
        CStr.append_chars, CStr.empty_chars, List.append_nil, hw, hl₁]
  | some i =>
    obtain ⟨rest, hout, hlr⟩ := hlast i hes
    simp only [Option.map_some', Option.getD_some]
    generalize ", " ++ (s.errorRing i).msg = x at hout hlr ⊢
    rw [CStr.length_eq, CStr.take_chars] at hlr
    have htext : ((m ++ x).take (L - 1)).chars = w ++ x.chars.take (L - w.length - 1) := by
      rw [CStr.take_chars, CStr.append_chars, List.take_append_eq_append_take, hw,
        show L - 1 - m.chars.length = L - w.length - 1 by omega]
    have htail :
        ('\x00' :: r₁).length ≤ (x.chars.take (L - w.length - 1) ++ '\x00' :: rest).length := by
      rw [List.length_cons, List.length_append, List.length_cons]; omega
    refine ⟨rest, ?_, ?_⟩
    · rw [hout, CStr.take_chars, splice_append_overwrite (by omega) htail, htext,
        List.append_assoc]
    · rw [CStr.length_eq, htext, List.length_append]
      omega

end Text

set_option maxRecDepth 8000 in
/-- Code `0x7ff01` has class 1, ring index 0, and generic field 2047, past the four entries of
the sample table.  Its walk stops at once, and the stack's last line looks up
`generic_err_msgs[2046]`, with a 256-byte object and `length = 256`. -/
theorem mpirErrGetString_reads_past_table :
    Reachable Config.sample Ring.init [] ∧
      Config.sample.genericErrMsgs.length ≤ genericOf 0x7ff01 - 1 ∧
      Chain Ring.init 0x7ff01 [] 0x7ff01 ∧
      mpirErrGetString Config.sample Ring.init 0x7ff01 (List.replicate 256 '\x00') 0 256 =
        .error .outOfBounds :=
  ⟨.init, by decide, .stop (by decide), rfl⟩

end MpichErrhan
