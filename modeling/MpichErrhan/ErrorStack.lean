import MpichErrhan.Fatal

/-!
# The message with the error stack

With `MPIR_CVAR_PRINT_ERROR_STACK` on, as MPICH sets it by default, `MPIR_Err_get_string` writes
the class message, `ErrGetInstanceString` writes `", error stack:\n"` after it, and
`MPIR_Err_print_stack_string` writes the stack after that.  Each write, and each NUL the routines
store at the last of their bytes, keeps one shape: the `length` bytes at `msg` are a text, a NUL
and any bytes, and the object is unchanged outside them (`TextIn`).  A write that fits after the
text lengthens it (`TextIn.write`); a NUL at the last byte keeps it (`TextIn.store_last`).

## Main results

* `mpirErrGetString_stack`: in a reachable state, without a chop width and with room, the text
  of a code is its class message, `", error stack:\n"` and the documented stack of its walk
  without the last newline; no byte outside the `length` bytes at `msg` changes.
* `mpirHandleFatalError_stack`: the abort message is then `"Fatal error in <fcname>: "` and that
  text.
-/

namespace MpichErrhan

/-! ## The bytes a routine writes -/

/-- The `L` bytes from `q` of `buf` are the text `P`, a NUL and any bytes, and outside them `buf`
is the object `B` as it was before the writes. -/
def TextIn (B : List Char) (q L : Nat) (P buf : List Char) : Prop :=
  ∃ rest, buf = splice B q (P ++ '\x00' :: rest) ∧ P.length + 1 + rest.length = L

/-- A write inside an earlier one, from the end of its first part `w`. -/
theorem splice_append_write {buf w v l : List Char} {q : Nat} (hq : q ≤ buf.length) :
    splice (splice buf q (w ++ v)) (q + w.length) l =
      splice buf q (w ++ (l ++ v.drop l.length)) := by
  have hw : q + w.length ≤ (splice buf q w).length := by
    simp only [splice, List.length_append, List.length_take]; omega
  rw [← splice_splice hq, splice_overwrite hw, splice_splice hq]

/-- `p[n] = c` over the last byte of a write of `w ++ [a]` from `q`. -/
theorem store_splice_last {B w : List Char} {a c : Char} {q : Nat}
    (h : q + w.length + 1 ≤ B.length) :
    store (splice B q (w ++ [a])) (q + w.length : Nat) c = .ok (splice B q (w ++ [c])) := by
  have hlen : (splice B q (w ++ [a])).length = B.length :=
    length_splice (by simp only [List.length_append, List.length_singleton]; omega)
  rw [store, storeAll_of_le (by omega) (by rw [hlen, List.length_singleton]; omega),
    Int.toNat_ofNat, splice_append_overwrite (by omega) (by simp)]

namespace TextIn

variable {B : List Char} {q L : Nat} {P buf : List Char}

theorem length_lt (hw : TextIn B q L P buf) : P.length < L := by
  obtain ⟨rest, -, hl⟩ := hw
  omega

theorem length_eq (hw : TextIn B q L P buf) (hB : q + L ≤ B.length) : buf.length = B.length := by
  obtain ⟨rest, rfl, hl⟩ := hw
  exact length_splice (by simp only [List.length_append, List.length_cons]; omega)

/-- A text and its NUL that fit. -/
theorem of_write (hB : q + L ≤ B.length) (hP : P.length < L) :
    TextIn B q L P (splice B q (P ++ ['\x00'])) := by
  refine ⟨(B.drop (q + (P ++ ['\x00']).length)).take (L - P.length - 1), ?_, ?_⟩
  · rw [← splice_append_drop_take (v := P ++ ['\x00']) (k := L - P.length - 1)
      (by simp only [List.length_append, List.length_singleton]; omega),
      List.append_assoc, List.singleton_append]
  · simp only [List.length_take, List.length_drop, List.length_append, List.length_singleton]
    omega

/-- A NUL stored at the last of the `L` bytes keeps the text. -/
theorem store_last (hw : TextIn B q L P buf) (hB : q + L ≤ B.length) :
    ∃ buf', store buf ((q : Int) + L - 1) '\x00' = .ok buf' ∧ TextIn B q L P buf' := by
  obtain ⟨rest, rfl, hl⟩ := hw
  rcases List.eq_nil_or_concat' rest with rfl | ⟨r, a, rfl⟩
  · simp only [List.length_nil] at hl
    refine ⟨_, ?_, [], rfl, by simpa using hl⟩
    rw [show (q : Int) + L - 1 = ((q + P.length : Nat) : Int) by omega]
    exact store_splice_last (by omega)
  · simp only [List.length_append, List.length_singleton] at hl
    have hy : P ++ '\x00' :: (r ++ [a]) = (P ++ '\x00' :: r) ++ [a] := by simp
    refine ⟨splice B q ((P ++ '\x00' :: r) ++ ['\x00']), ?_, r ++ ['\x00'], by simp,
      by simp only [List.length_append, List.length_singleton]; omega⟩
    rw [hy, show (q : Int) + L - 1 = ((q + (P ++ '\x00' :: r).length : Nat) : Int) by
      simp only [List.length_append, List.length_cons]; omega]
    exact store_splice_last (by simp only [List.length_append, List.length_cons]; omega)

/-- A write of `l`, a NUL and `u` right after the text, within the bytes, lengthens the text
by `l`. -/
theorem write (hw : TextIn B q L P buf) (hB : q + L ≤ B.length) {l u : List Char}
    (hl : P.length + l.length + 1 + u.length ≤ L) :
    TextIn B q L (P ++ l) (splice buf (q + P.length) (l ++ '\x00' :: u)) := by
  obtain ⟨rest, rfl, hr⟩ := hw
  refine ⟨u ++ rest.drop (l.length + u.length), ?_, ?_⟩
  · rw [splice_append_write (by omega), List.length_append, List.length_cons,
      show l.length + (u.length + 1) = l.length + u.length + 1 by omega, List.drop_succ_cons]
    simp only [List.append_assoc, List.cons_append]
  · simp only [List.length_append, List.length_drop]
    omega

/-- What a routine writes in the bytes after the text, ending in a NUL, lengthens it. -/
theorem append (hw : TextIn B q L P buf) (hB : q + L ≤ B.length) {q' L' : Nat}
    (hq' : q' = q + P.length) (hL' : L' = L - P.length) {T out : List Char}
    (hT : TextIn buf q' L' T out) : TextIn B q L (P ++ T) out := by
  obtain ⟨r, rfl, hr⟩ := hT
  have := hw.length_lt
  subst hq' hL'
  exact hw.write hB (by omega)

/-- The C string at a point of the text is the rest of the text. -/
theorem cstrAt_eq {T : List Char} (hw : TextIn B q L (P ++ T) buf) (hB : q + L ≤ B.length)
    {t : CStr} (ht : t.chars = T) {pos : Int} (hpos : pos = ((q + P.length : Nat) : Int)) :
    cstrAt buf pos = .ok t := by
  obtain ⟨rest, rfl, hl⟩ := hw
  subst ht hpos
  simp only [List.length_append] at hl
  rw [List.append_assoc, ← splice_splice (by omega)]
  exact cstrAt_splice (by rw [length_splice (by omega), CStr.length_eq]; omega)

end TextIn

/-! ## The text of the stack has no NUL -/

theorem nul_not_mem_stackLine (M : Nat) (e : ErrMsg) : '\x00' ∉ stackLine M e := by
  simp [stackLine, e.location.nul_not_mem, e.msg.nul_not_mem, List.mem_replicate]

theorem nul_not_mem_stackTail {K : Config} {t : CInt} {x : List Char}
    (hx : stackTail K t = .ok x) : '\x00' ∉ x := by
  unfold stackTail at hx
  split_ifs at hx
  · cases hx; exact List.not_mem_nil _
  · obtain ⟨p, -, rfl⟩ := map_eq_ok.mp hx
    simp [p.nul_not_mem]
  · obtain ⟨m, -, rfl⟩ := map_eq_ok.mp hx
    simp [m.nul_not_mem]
  · cases hx
    simp [(decimal _).nul_not_mem]

theorem nul_not_mem_stackText {K : Config} {s : Ring} {es : List Nat} {t : CInt}
    {x : List Char} (hx : stackText K s es t = .ok x) : '\x00' ∉ x := by
  obtain ⟨tl, htl, rfl⟩ := map_eq_ok.mp hx
  have hlines : '\x00' ∉ stackLines s (longest s es) es := by
    simp only [stackLines, List.mem_flatMap, not_exists, not_and]
    exact fun i _ => nul_not_mem_stackLine _ _
  simp only [List.mem_append, not_or]
  exact ⟨hlines, nul_not_mem_stackTail htl⟩

/-- A walk from a code other than `MPI_SUCCESS` prints at least one line. -/
theorem Chain.prints {s : Ring} {c t : CInt} {es : List Nat} (hc : Chain s c es t)
    (h : c ≠ mpiSuccess) : es ≠ [] ∨ t ≠ mpiSuccess := by
  cases hc with
  | stop => exact .inr h
  | step => exact .inl (List.cons_ne_nil _ _)

/-! ## The writes before the stack

The class message that `MPIR_Err_get_string` writes first, and the `", error stack:\n"` that
`ErrGetInstanceString` writes after it, whatever the stack printer then does. -/

section Prefix

variable {K : Config} {s : Ring} {c : CInt}

/-- For a code that is neither dynamic nor a bare class, `MPIR_Err_get_string` writes the class
message and its NUL, ends the `length` bytes in a NUL, and hands the bytes after the message to
`ErrGetInstanceString`. -/
theorem mpirErrGetString_stack_eq (hdyn : c &&& errorDynMask = 0)
    (hcls : c &&& errorClassMask ≠ c) {m : CStr} (hm : getClassMsg K (errorGetClass c) = .ok m)
    {buf : List Char} {q L : Nat} (hbuf : q + L ≤ buf.length) (hL : L < 2 ^ 31)
    (hroom : m.length < L) :
    ∃ buf₁, TextIn buf q L m.chars buf₁ ∧ mpirErrGetString K s c buf q L = (do
      let (buf, _) ← errGetInstanceString K s c buf₁ ((q + m.chars.length : Nat) : Int)
        ((L : Int) - m.chars.length)
      pure buf) := by
  have hml : m.length = m.chars.length := rfl
  obtain ⟨buf₁, hst₁, hw₁⟩ := (TextIn.of_write (P := m.chars) hbuf (by omega)).store_last hbuf
  have hlen : strlen buf₁ q = .ok m.length := by
    rw [strlen, hw₁.cstrAt_eq (P := []) hbuf rfl (by simp)]
    rfl
  refine ⟨buf₁, hw₁, ?_⟩
  rw [mpirErrGetString, if_neg (by omega), if_neg (by simp [hdyn]), if_neg hcls, hm, ok_bind,
    sizeT_of_nonneg (by omega) (by omega), Int.toNat_ofNat,
    mplStrncpy_of_lt (by omega) (by omega) (by omega), ok_bind]
  dsimp only
  rw [Int.toNat_ofNat, hst₁, ok_bind, hlen, ok_bind, hml, Nat.cast_add]

/-- With the stack on, `ErrGetInstanceString` writes `", error stack:\n"` after the text and
ends its bytes in a NUL; the stack printer then gets the bytes after it, and its bytes end in a
NUL again. -/
theorem errGetInstanceString_stack_eq (hps : K.printErrorStack = true) {B buf P : List Char}
    {q L : Nat} (hw : TextIn B q L P buf) (hB : q + L ≤ B.length) (hL : L < 2 ^ 31)
    (hroom : P.length + 15 < L) {p n : Int} (hp : p = ((q + P.length : Nat) : Int))
    (hn : n = (L : Int) - P.length) :
    ∃ buf₂, TextIn B q L (P ++ ", error stack:\n".toList) buf₂ ∧
      errGetInstanceString K s c buf p n = (do
        let buf ← mpirErrPrintStackString K s c buf₂ ((q + (P.length + 15) : Nat) : Int)
          ((L : Int) - (P.length + 15 : Nat))
        let buf ← store buf ((q : Int) + L - 1) '\x00'
        pure (buf, decide (c ≠ mpiSuccess))) := by
  subst hp hn
  have hlen := hw.length_eq hB
  have hE : (", error stack:\n" : CStr).chars = ", error stack:\n".toList := rfl
  have hEl : (", error stack:\n" : CStr).length = 15 := rfl
  have hEt : ", error stack:\n".toList.length = 15 := rfl
  obtain ⟨buf₂, hst₂, hw₂⟩ := (hw.write hB (l := ", error stack:\n".toList) (u := [])
    (by simp only [List.length_nil, hEt]; omega)).store_last hB
  refine ⟨buf₂, hw₂, ?_⟩
  rw [errGetInstanceString, if_pos hps, sizeT_of_nonneg (by omega) (by omega),
    mplStrncpy_of_lt (by omega) (by rw [hEl]; omega) (by rw [hlen, hEl]; omega), ok_bind]
  dsimp only
  rw [Int.toNat_ofNat, hE, show ((q + P.length : Nat) : Int) + ((L : Int) - P.length) - 1 =
      (q : Int) + L - 1 by omega, hst₂, ok_bind, strlen, hw₂.cstrAt_eq hB hE (by rfl),
    Except.map, ok_bind, hEl,
    show ((q + P.length : Nat) : Int) + ((15 : Nat) : Int) = ((q + (P.length + 15) : Nat) : Int)
      by omega,
    show (L : Int) - P.length - ((15 : Nat) : Int) = (L : Int) - ((P.length + 15 : Nat) : Int)
      by omega,
    show ((q + (P.length + 15) : Nat) : Int) + ((L : Int) - ((P.length + 15 : Nat) : Int)) - 1 =
      (q : Int) + L - 1 by omega]

/-- With the stack on, `MPIR_Err_get_string` writes the class message and `", error stack:\n"`,
the stack printer writes after them, and the last byte is set to NUL. -/
theorem mpirErrGetString_stack_print (hps : K.printErrorStack = true)
    (hdyn : c &&& errorDynMask = 0) (hcls : c &&& errorClassMask ≠ c) {m : CStr}
    (hm : getClassMsg K (errorGetClass c) = .ok m) {buf : List Char} {q L : Nat}
    (hbuf : q + L ≤ buf.length) (hL : L < 2 ^ 31) (hroom : m.length + 15 < L) :
    ∃ buf₂, TextIn buf q L (m.chars ++ ", error stack:\n".toList) buf₂ ∧
      mpirErrGetString K s c buf q L = (do
        let buf ← mpirErrPrintStackString K s c buf₂ ((q + (m.length + 15) : Nat) : Int)
          ((L : Int) - (m.length + 15 : Nat))
        store buf ((q : Int) + L - 1) '\x00') := by
  obtain ⟨buf₁, hw₁, heq₁⟩ := mpirErrGetString_stack_eq (s := s) hdyn hcls hm hbuf hL (by omega)
  obtain ⟨buf₂, hw₂, heq₂⟩ := errGetInstanceString_stack_eq (s := s) (c := c) hps hw₁ hbuf hL
    (by rw [← CStr.length_eq]; omega) rfl rfl
  refine ⟨buf₂, hw₂, ?_⟩
  rw [heq₁, heq₂]
  simp only [bind_assoc, pure_bind, bind_pure]
  rfl

end Prefix

/-! ## The writes with the stack on -/

section Stack

variable {K : Config} {s : Ring} (hz : ∀ j, s.maxErrorRingLoc < j → s.errorRing j = .zero)
  (hchop : K.chopErrorStack ≤ 0)
include hz hchop

variable {c t : CInt} {es : List Nat} (hc : Chain s c es t) {x : List Char}
  (hx : stackText K s es t = .ok x)
include hc hx

/-- Without a chop width and with room, the stack printer writes, right after the text, the
documented stack of a walk that prints a line, all but its last newline, and a NUL. -/
theorem mpirErrPrintStackString_textIn (hne : es ≠ [] ∨ t ≠ mpiSuccess) {B buf P : List Char}
    {q L : Nat} (hw : TextIn B q L P buf) (hB : q + L ≤ B.length) (hL : L < 2 ^ 31)
    (hroom : P.length + x.length < L) {str maxlen : Int} (hstr : str = ((q + P.length : Nat) : Int))
    (hmax : maxlen = (L : Int) - P.length) :
    ∃ out, mpirErrPrintStackString K s c buf str maxlen = .ok out ∧
      TextIn B q L (P ++ x.dropLast) out := by
  subst hstr hmax
  obtain ⟨tl, htl, rfl⟩ := map_eq_ok.mp hx
  have hlen := hw.length_eq hB
  have hP := hw.length_lt
  rw [List.length_append] at hroom
  have hbuf : ((q + P.length : Nat) : Int) + ((L : Int) - P.length) ≤ buf.length := by omega
  have hnil : stackLines s (longest s es) es ++ tl ≠ [] := by
    rcases hne with hne | hne
    · exact fun h => hne (stackLines_eq_nil.mp (List.append_eq_nil.mp h).1)
    · exact fun h => hne ((stackTail_eq_nil K htl).mp (List.append_eq_nil.mp h).2)
  have hx0 := List.length_pos.mpr hnil
  have hnul : (!es.isEmpty || decide (t ≠ mpiSuccess)) = true := by
    simpa [List.isEmpty_iff] using hne
  rw [mpirErrPrintStackString, longestLocation_of_chain hc, ok_bind, ← Out.written_nil,
    printEntries_written hz (by omega) hbuf (by omega) hchop _ hc
      (Nat.lt_succ_of_le hc.length_le) (by simp; omega), ok_bind]
  dsimp only
  rw [stackFallback_written (by omega) hbuf (by omega) htl (by simp; omega), ok_bind,
    Out.written_str, if_pos (by simp only [List.nil_append]; omega), Bool.false_or, hnul,
    List.nil_append]
  refine ⟨_, store_last_nul (by omega) hnil (by simp; omega), ?_⟩
  rw [Int.toNat_ofNat]
  exact hw.write hB (u := ['\x00']) (by
    simp only [List.length_dropLast, List.length_append, List.length_singleton] at hx0 ⊢; omega)

/-- With the stack on, `MPIR_Err_get_string` writes the class message of a code that is neither
dynamic nor a bare class, `", error stack:\n"` and the stack of its walk without the last
newline, within the `length` bytes at `msg`. -/
theorem mpirErrGetString_stack_textIn (hps : K.printErrorStack = true)
    (hdyn : c &&& errorDynMask = 0) (hcls : c &&& errorClassMask ≠ c) {m : CStr}
    (hm : getClassMsg K (errorGetClass c) = .ok m) {buf : List Char} {q L : Nat}
    (hbuf : q + L ≤ buf.length) (hL : L < 2 ^ 31) (hroom : m.length + 15 + x.length < L) :
    ∃ out, mpirErrGetString K s c buf q L = .ok out ∧
      TextIn buf q L (m.chars ++ ", error stack:\n".toList ++ x.dropLast) out := by
  have hc0 : c ≠ mpiSuccess := by rintro rfl; exact hcls (by decide)
  have hEt : ", error stack:\n".toList.length = 15 := rfl
  obtain ⟨buf₂, hw₂, heq⟩ := mpirErrGetString_stack_print (s := s) hps hdyn hcls hm hbuf hL
    (by omega)
  obtain ⟨out, hpr, hw₃⟩ := mpirErrPrintStackString_textIn hz hchop hc hx (hc.prints hc0) hw₂ hbuf
    hL (by simp only [List.length_append, hEt, ← CStr.length_eq]; omega)
    (show ((q + (m.length + 15) : Nat) : Int) =
      ((q + (m.chars ++ ", error stack:\n".toList).length : Nat) : Int) by
      simp only [List.length_append, hEt, CStr.length_eq])
    (show (L : Int) - ((m.length + 15 : Nat) : Int) =
      (L : Int) - ((m.chars ++ ", error stack:\n".toList).length : Nat) by
      simp only [List.length_append, hEt, CStr.length_eq])
  obtain ⟨out', hst, hw₄⟩ := hw₃.store_last hbuf
  exact ⟨out', by rw [heq, hpr, ok_bind, hst], hw₄⟩

end Stack

/-! ## The message and the abort message -/

section Message

variable {K : Config} {s : Ring}

theorem chars_stackMessage {m : CStr} {x : List Char} (hx : '\x00' ∉ x) :
    (m ++ ", error stack:\n" ++ CStr.ofChars x.dropLast).chars =
      m.chars ++ ", error stack:\n".toList ++ x.dropLast := by
  rw [CStr.append_chars, CStr.append_chars,
    CStr.ofChars_chars_of_nul_not_mem fun h => hx (List.mem_of_mem_dropLast h)]
  rfl

/-- With `MPIR_CVAR_PRINT_ERROR_STACK` on and no chop width, in a reachable state, the text of a
code that is neither dynamic nor a bare class is its class message, `", error stack:\n"` and the
documented stack of its walk without the last newline, when they fit in `length - 1` bytes: that
is the C string at `msg`, and no byte outside the `length` bytes at `msg` changes. -/
theorem mpirErrGetString_stack {codes : List CInt} (hr : Reachable K s codes)
    (hps : K.printErrorStack = true) (hchop : K.chopErrorStack = 0) {c t : CInt} {es : List Nat}
    (hc : Chain s c es t) (hdyn : c &&& errorDynMask = 0) (hcls : c &&& errorClassMask ≠ c)
    {m : CStr} (hm : getClassMsg K (errorGetClass c) = .ok m) {x : List Char}
    (hx : stackText K s es t = .ok x) {buf : List Char} {q L : Nat} (hbuf : q + L ≤ buf.length)
    (hL : L < 2 ^ 31) (hroom : m.length + 15 + x.length < L) :
    ∃ out, mpirErrGetString K s c buf q L = .ok out ∧
      TextIn buf q L (m.chars ++ ", error stack:\n".toList ++ x.dropLast) out ∧
      cstrAt out q = .ok (m ++ ", error stack:\n" ++ CStr.ofChars x.dropLast) := by
  obtain ⟨out, hget, hw⟩ :=
    mpirErrGetString_stack_textIn hr.above_max hchop.le hc hx hps hdyn hcls hm hbuf hL hroom
  exact ⟨out, hget, hw, hw.cstrAt_eq (P := []) hbuf
    (chars_stackMessage (nul_not_mem_stackText hx)) (by simp)⟩

set_option maxRecDepth 8000 in
/-- The `MPI_Send` code, written into 96 bytes with the stack on: `Other MPI error, error stack:`,
its own line and then `wrapCode`'s, padded with dots to `MPI_Send(12)`. -/
theorem mpirErrGetString_stack_pop :
    Reachable Config.sample sendCreate.2 [sendCreate.1, wrapCode] ∧
      Config.sample.printErrorStack = true ∧ Config.sample.chopErrorStack = 0 ∧
      Chain sendCreate.2 sendCreate.1 [1, 0] mpiSuccess ∧
      sendCreate.1 &&& errorDynMask = 0 ∧ sendCreate.1 &&& errorClassMask ≠ sendCreate.1 ∧
      getClassMsg Config.sample (errorGetClass sendCreate.1) = .ok "Other MPI error" ∧
      stackText Config.sample sendCreate.2 [1, 0] mpiSuccess =
        .ok "MPI_Send(12): send failed\nf(1)........: Failure\n".toList ∧
      ∃ out, mpirErrGetString Config.sample sendCreate.2 sendCreate.1 (List.replicate 96 'x') 0
          96 = .ok out ∧
        cstrAt out 0 = .ok ("Other MPI error, error stack:\nMPI_Send(12): send failed\n" ++
          "f(1)........: Failure") := by
  have hr := sendCreate_reachable
  have hc := sendCreate_chain
  obtain ⟨hdyn, hcls⟩ := sendCreate_code_fields
  have hm : getClassMsg Config.sample (errorGetClass sendCreate.1) = .ok "Other MPI error" := rfl
  have hx := sendCreate_stackText
  obtain ⟨out, hget, -, hmsg⟩ := mpirErrGetString_stack hr rfl rfl hc hdyn hcls hm hx
    (show 0 + 96 ≤ (List.replicate 96 'x').length by simp) (by decide) (by decide)
  exact ⟨hr, rfl, rfl, hc, hdyn, hcls, hm, hx, out, hget, hmsg.trans rfl⟩

/-- The prefix `"Fatal error in <fcname>: "` is 17 bytes longer than the name. -/
theorem length_fatalPrefix (fcname : CStr) :
    ("Fatal error in " ++ fcname ++ ": " : CStr).length = fcname.length + 17 := by
  rw [CStr.length_eq, CStr.append_chars, CStr.append_chars, List.length_append, List.length_append,
    show ("Fatal error in " : CStr).chars.length = 15 from rfl,
    show (": " : CStr).chars.length = 2 from rfl, CStr.length_eq]
  omega

/-- When the prefix fits, `MPIR_Handle_fatal_error` writes it and its NUL, hands the rest of its
array to `MPIR_Err_get_string`, and aborts with the C string at the start of the array. -/
theorem mpirHandleFatalError_eq {M : Nat} (hM : M < 2 ^ 31) {errorMsg : List Char}
    (hbuf : errorMsg.length = maxErrmsgString M) (commPtr : Option Comm) (fcname : CStr)
    (hfit : fcname.length + 17 < maxErrmsgString M) (c : CInt) :
    ∃ buf₁, TextIn errorMsg 0 (maxErrmsgString M)
        ("Fatal error in " ++ fcname ++ ": " : CStr).chars buf₁ ∧
      mpirHandleFatalError K s M errorMsg commPtr fcname c = (do
        let errorMsg ← mpirErrGetString K s c buf₁ ((fcname.length + 17 : Nat) : Int)
          ((maxErrmsgString M : Int) - (fcname.length + 17 : Nat))
        let msg ← cstrAt errorMsg 0
        pure ⟨commPtr, mpiSuccess, c, msg⟩) := by
  obtain ⟨-, hhi⟩ := maxErrmsgString_bounds hM
  have hPl := length_fatalPrefix fcname
  rw [mpirHandleFatalError]
  set P : CStr := "Fatal error in " ++ fcname ++ ": "
  have hw₀ : TextIn errorMsg 0 (maxErrmsgString M) P.chars
      (splice errorMsg 0 (P.chars ++ ['\x00'])) :=
    TextIn.of_write (by omega) (by rw [← CStr.length_eq]; omega)
  refine ⟨_, hw₀, ?_⟩
  rw [snprintf_of_lt le_rfl (by omega) (by omega), ok_bind, Int.toNat_zero, strlen,
    hw₀.cstrAt_eq (P := []) (T := P.chars) (t := P) (by omega) rfl (by simp), Except.map, ok_bind,
    hPl]

/-- With the stack on, for a code that is neither dynamic nor a bare class: once the prefix, the
class message and `", error stack:\n"` are out, the rest of the local array goes to the stack
printer, and the abort call is made from what it leaves. -/
theorem mpirHandleFatalError_stack_print (hps : K.printErrorStack = true) {c : CInt}
    (hdyn : c &&& errorDynMask = 0) (hcls : c &&& errorClassMask ≠ c) {m : CStr}
    (hm : getClassMsg K (errorGetClass c) = .ok m) {M : Nat} (hM : M < 2 ^ 31)
    {errorMsg : List Char} (hbuf : errorMsg.length = maxErrmsgString M) (commPtr : Option Comm)
    (fcname : CStr) (hfit : fcname.length + 17 + m.length + 15 < maxErrmsgString M) :
    ∃ (buf : List Char) (rest : List Char → Except Fault AbortCall),
      buf.length = maxErrmsgString M ∧ mpirHandleFatalError K s M errorMsg commPtr fcname c =
        mpirErrPrintStackString K s c buf ((fcname.length + 17 + (m.length + 15) : Nat) : Int)
          (((maxErrmsgString M - (fcname.length + 17) : Nat) : Int) - (m.length + 15 : Nat)) >>=
            rest := by
  obtain ⟨buf₁, hw₀, heq₀⟩ :=
    mpirHandleFatalError_eq (K := K) (s := s) hM hbuf commPtr fcname (by omega) c
  have hb₁ : fcname.length + 17 + (maxErrmsgString M - (fcname.length + 17)) ≤ buf₁.length := by
    rw [hw₀.length_eq (by omega)]
    omega
  obtain ⟨buf₂, hw₂, heq⟩ := mpirErrGetString_stack_print (s := s) hps hdyn hcls hm hb₁
    (by have := (maxErrmsgString_bounds hM).2; omega) (by omega)
  rw [heq₀, ← Nat.cast_sub (by omega), heq, bind_assoc]
  exact ⟨buf₂, _, by rw [hw₂.length_eq hb₁, hw₀.length_eq (by omega), hbuf], rfl⟩

/-- With `MPIR_CVAR_PRINT_ERROR_STACK` on and no chop width, in a reachable state, a code that is
neither dynamic nor a bare class aborts with `"Fatal error in <fcname>: "`, its class message,
`", error stack:\n"` and the documented stack of its walk without the last newline, when they fit
in `MAX_ERRMSG_STRING - 1` bytes, whatever the array held before the call. -/
theorem mpirHandleFatalError_stack {codes : List CInt} (hr : Reachable K s codes)
    (hps : K.printErrorStack = true) (hchop : K.chopErrorStack = 0) {c t : CInt} {es : List Nat}
    (hc : Chain s c es t) (hdyn : c &&& errorDynMask = 0) (hcls : c &&& errorClassMask ≠ c)
    {m : CStr} (hm : getClassMsg K (errorGetClass c) = .ok m) {x : List Char}
    (hx : stackText K s es t = .ok x) {M : Nat} (hM : M < 2 ^ 31) {errorMsg : List Char}
    (hbuf : errorMsg.length = maxErrmsgString M) (commPtr : Option Comm) (fcname : CStr)
    (hroom : fcname.length + 17 + m.length + 15 + x.length < maxErrmsgString M) :
    mpirHandleFatalError K s M errorMsg commPtr fcname c = .ok ⟨commPtr, mpiSuccess, c,
      "Fatal error in " ++ fcname ++ ": " ++ m ++ ", error stack:\n" ++
        CStr.ofChars x.dropLast⟩ := by
  obtain ⟨-, hhi⟩ := maxErrmsgString_bounds hM
  have hPl := length_fatalPrefix fcname
  obtain ⟨buf₁, hw₀, heq⟩ := mpirHandleFatalError_eq (K := K) (s := s) hM hbuf commPtr fcname
    (by omega) c
  obtain ⟨out, hget, hwT⟩ := mpirErrGetString_stack_textIn hr.above_max hchop.le hc hx hps hdyn
    hcls hm (show fcname.length + 17 + (maxErrmsgString M - (fcname.length + 17)) ≤ buf₁.length by
      rw [hw₀.length_eq (by omega)]; omega) (by omega) (by omega)
  rw [Nat.cast_sub (by omega)] at hget
  have hw := hw₀.append (by omega) (by rw [Nat.zero_add, ← CStr.length_eq, hPl])
    (by rw [← CStr.length_eq, hPl]) hwT
  have ht : ("Fatal error in " ++ fcname ++ ": " ++ m ++ ", error stack:\n" ++
      CStr.ofChars x.dropLast).chars = ("Fatal error in " ++ fcname ++ ": " : CStr).chars ++
        (m.chars ++ ", error stack:\n".toList ++ x.dropLast) := by
    rw [← chars_stackMessage (nul_not_mem_stackText hx)]
    simp only [CStr.append_chars, List.append_assoc]
  rw [heq, hget, ok_bind, hw.cstrAt_eq (P := []) (by omega) ht (by simp), ok_bind]
  rfl

set_option maxRecDepth 8000 in
/-- A fatal error on the `MPI_Send` code in `MPI_Send`, with the stack on, for an
`MPI_MAX_ERROR_STRING` of 1024 and an array of any 4096 bytes: the abort message holds both lines
of its walk. -/
theorem mpirHandleFatalError_stack_pop :
    Reachable Config.sample sendCreate.2 [sendCreate.1, wrapCode] ∧
      Config.sample.printErrorStack = true ∧ Config.sample.chopErrorStack = 0 ∧
      Chain sendCreate.2 sendCreate.1 [1, 0] mpiSuccess ∧
      sendCreate.1 &&& errorDynMask = 0 ∧ sendCreate.1 &&& errorClassMask ≠ sendCreate.1 ∧
      getClassMsg Config.sample (errorGetClass sendCreate.1) = .ok "Other MPI error" ∧
      stackText Config.sample sendCreate.2 [1, 0] mpiSuccess =
        .ok "MPI_Send(12): send failed\nf(1)........: Failure\n".toList ∧
      1024 < 2 ^ 31 ∧ (List.replicate 4096 'x').length = maxErrmsgString 1024 ∧
      ("MPI_Send" : CStr).length + 17 + ("Other MPI error" : CStr).length + 15 +
        "MPI_Send(12): send failed\nf(1)........: Failure\n".toList.length <
          maxErrmsgString 1024 ∧
      mpirHandleFatalError Config.sample sendCreate.2 1024 (List.replicate 4096 'x') none
        "MPI_Send" sendCreate.1 = .ok ⟨none, mpiSuccess, sendCreate.1,
          "Fatal error in MPI_Send: Other MPI error, error stack:\n" ++
            "MPI_Send(12): send failed\nf(1)........: Failure"⟩ := by
  have hr := sendCreate_reachable
  have hc := sendCreate_chain
  obtain ⟨hdyn, hcls⟩ := sendCreate_code_fields
  have hm : getClassMsg Config.sample (errorGetClass sendCreate.1) = .ok "Other MPI error" := rfl
  have hx := sendCreate_stackText
  have hbuf : (List.replicate 4096 'x').length = maxErrmsgString 1024 := List.length_replicate _ _
  have hroom : ("MPI_Send" : CStr).length + 17 + ("Other MPI error" : CStr).length + 15 +
      "MPI_Send(12): send failed\nf(1)........: Failure\n".toList.length <
        maxErrmsgString 1024 := by decide
  exact ⟨hr, rfl, rfl, hc, hdyn, hcls, hm, hx, by decide, hbuf, hroom,
    (mpirHandleFatalError_stack hr rfl rfl hc hdyn hcls hm hx (by decide) hbuf none "MPI_Send"
      hroom).trans rfl⟩

end Message

end MpichErrhan
