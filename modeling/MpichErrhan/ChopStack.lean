import MpichErrhan.Termination
import MpichErrhan.Overrun

/-!
# With a chop width, the error string stops at the first cut

`MPIR_CVAR_CHOP_ERROR_STACK` asks for stack lines at most `W` characters wide.  Its loop in
`MPIR_Err_print_stack_string` was meant to emit each slot's message as lines of `W` characters,
each continuation indented by the location column `max_location_len = M + 2`.  For a width
`W = M + 4 + k` past that column, each cut is `snprintf(str, k + 1, "%s", cur_pos)`: it writes `k`
bytes of the message and its NUL, and the newline stored one byte further covers the message's
byte `k + 1`.  So every cut leaves a NUL inside the stack (`wrapLoop_pass`).

`wrapText` is what the loop writes for a message, as the code computes it, and `chopText` the
whole stack under a chop width.  The printer writes `chopText` (`mpirErrPrintStackString_chop`);
the C string a caller reads back then ends at the first NUL, so a first slot whose message is cut
leaves only its location, dots, `": "` and the first `k` bytes of its message, and the rest of the
stack is lost.

## Main results

* `Reachable.msg_length_le`: in every reachable ring every message fits `MPIR_MAX_ERROR_LINE`, so
  each slot's `msg` array keeps its NUL.
* `wrapLoop_written`: the wrapping loop writes `wrapText` when it has the room.
* `mpirErrGetString_chop_cut`: `MPIR_Err_get_string` returns the class message,
  `", error stack:\n"` and the first line up to its first cut, and nothing after.
* `mpirHandleFatalError_chop_cut`: the abort path aborts with that message.
-/

namespace MpichErrhan

/-! ## The messages of the ring -/

variable {K : Config}

/-- In every reachable ring every slot's message fits `MPIR_MAX_ERROR_LINE` bytes: a create
stores a message it cut to that length, and a combine changes no message. -/
theorem Reachable.msg_length_le {s : Ring} {codes : List CInt} (h : Reachable K s codes)
    (j : Nat) : (s.errorRing j).msg.length ≤ mpirMaxErrorLine := by
  induction h generalizing j with
  | init => exact Nat.zero_le _
  | @create s codes lastcode fatal fcname line errorClass genericMsg specificMsg args _ _ ih =>
    by_cases hin : effectiveClass K (checkedLastcode K s lastcode) errorClass =
        BitVec.ofNat 32 K.mpiErrInStatus
    · simp only [mpirErrCreateCodeValist, hin, if_true]; exact ih j
    rw [mpirErrCreateCodeValist_of_ne K hin, Ring.push_errorRing]
    split
    · exact createMsg_length_le K genericMsg specificMsg args
    · exact ih j
  | combine n _ _ _ _ hc ih =>
    rw [((mpirErrCombineCodes_prevsOnly K hc).same j).2.2.2.2]; exact ih j

/-! ## What the wrapping loop writes -/

/-- The bytes the wrapping loop writes for the text `t`, with `k + 1 = W - 1 - mll` bytes of text
to a cut and a fuel `n` of at least `t.length`: while more than `k + 1` bytes are left, `k` of
them, the NUL of their `snprintf`, the newline over the next byte and `mll` spaces, and then the
text from `k + 1` bytes on; the last piece goes out with its newline. -/
def wrapText (k mll : Nat) : Nat → List Char → List Char
  | 0, t => t ++ ['\n']
  | n + 1, t =>
    if k + 1 < t.length then
      t.take k ++ ['\x00', '\n'] ++ List.replicate mll ' ' ++ wrapText k mll n (t.drop (k + 1))
    else t ++ ['\n']

theorem wrapText_cut {k mll n : Nat} {t : List Char} (h : k + 1 < t.length) :
    wrapText k mll (n + 1) t =
      t.take k ++ ['\x00', '\n'] ++ List.replicate mll ' ' ++ wrapText k mll n (t.drop (k + 1)) :=
  if_pos h

theorem wrapText_last {k mll n : Nat} {t : List Char} (h : t.length ≤ k + 1) :
    wrapText k mll n t = t ++ ['\n'] := by
  cases n
  · rfl
  · exact if_neg (by omega)

/-- The loop writes at least the text: a cut writes `k + 2 + mll` bytes for `k + 1`. -/
theorem length_lt_wrapText (k mll : Nat) :
    ∀ (n : Nat) (t : List Char), t.length < (wrapText k mll n t).length
  | 0, t => by simp [wrapText]
  | n + 1, t => by
    by_cases h : k + 1 < t.length
    · have ih := length_lt_wrapText k mll n (t.drop (k + 1))
      simp only [wrapText_cut h, List.length_append, List.length_take, List.length_drop,
        List.length_replicate, List.length_cons, List.length_nil] at ih ⊢
      omega
    · rw [wrapText_last (by omega), List.length_append, List.length_singleton]
      omega

section Wrap

variable {buf : List Char} {str maxlen : Int} (h0 : 0 ≤ str) (hbuf : str + maxlen ≤ buf.length)
  (hint : maxlen < 2 ^ 31) {width mll : Int} {k : Nat} (hmll : 0 < mll)
  (hk : width = k + 2 + mll) {e : ErrMsg} (hm : e.msg.length ≤ mpirMaxErrorLine)
include h0 hbuf hint hmll hk hm

/-- With the room for what it writes, the wrapping loop from `cur_pos = msg + q` writes `wrapText`
of the rest of the message, its last `snprintf` leaving a NUL after it. -/
theorem wrapLoop_written (fuel : Nat) : ∀ (n q : Nat) {w : List Char} {b : Bool},
    q < e.msg.length → e.msg.length - q < fuel → e.msg.length - q ≤ n →
    w.length + (wrapText k mll.toNat n (e.msg.chars.drop q)).length < maxlen →
    wrapLoop width mll (slotObj e) fuel (Out.written buf str maxlen w b)
        ((maxLocationLen + 1 + q : Nat) : Int) =
      .ok (Out.written buf str maxlen (w ++ wrapText k mll.toNat n (e.msg.chars.drop q)) true) := by
  induction fuel with
  | zero => exact fun _ _ _ _ _ hf => absurd hf (Nat.not_lt_zero _)
  | succ fuel ih =>
    intro n q w b hq hf hn hroom
    obtain ⟨n, rfl⟩ : ∃ n', n = n' + 1 := ⟨n - 1, by omega⟩
    obtain ⟨t, ht, htc⟩ := cstrAt_slotObj_msg hm hq.le
    have htl : t.length = e.msg.length - q := by
      rw [CStr.length_eq, htc, List.length_drop, ← CStr.length_eq]
    have hdl : (e.msg.chars.drop q).length = e.msg.length - q := by
      rw [List.length_drop, ← CStr.length_eq]
    by_cases hcut : k + 1 < e.msg.length - q
    · have hrest := length_lt_wrapText k mll.toNat n (e.msg.chars.drop (q + (k + 1)))
      have htk : ((e.msg.chars.drop q).take k).length = k := by
        rw [List.length_take, hdl]; exact Nat.min_eq_left (by omega)
      have hml : (mll.toNat : Int) = mll := Int.toNat_of_nonneg hmll.le
      rw [wrapText_cut (by rw [hdl]; exact hcut), List.drop_drop] at hroom ⊢
      simp only [List.length_append, htk, List.length_cons, List.length_nil,
        List.length_replicate, List.length_drop, hdl] at hroom hrest
      rw [← CStr.length_eq] at hrest
      obtain ⟨h₁, h₂, h₃, h₄⟩ : mll + 1 < width ∧ width - mll ≤ t.length ∧
          w.length + t.length ≤ maxlen ∧ w.length + width < maxlen := by omega
      obtain ⟨h₅, h₆, h₇⟩ : q + (k + 1) < e.msg.length ∧ e.msg.length - (q + (k + 1)) < fuel ∧
          e.msg.length - (q + (k + 1)) ≤ n := by omega
      rw [wrapLoop_pass h0 hbuf hint fuel hmll h₁ ht h₂ h₃ h₄, htc,
        show (width - 2 - mll).toNat = k by omega,
        show ((maxLocationLen + 1 + q : Nat) : Int) + (width - 1 - mll) =
          ((maxLocationLen + 1 + (q + (k + 1)) : Nat) : Int) by push_cast; omega,
        ih n (q + (k + 1)) h₅ h₆ h₇ (by
          simp only [List.length_append, htk, List.length_cons, List.length_nil,
            List.length_replicate]
          omega)]
      simp only [List.append_assoc]
    · rw [wrapText_last (by omega)] at hroom ⊢
      simp only [List.length_append, List.length_singleton, hdl] at hroom
      rw [wrapLoop, strlen, ht]
      simp only [Except.map, ok_bind, Out.written_maxlen]
      rw [if_neg (by omega), if_neg (by omega)]
      exact Out.print_written_of_chars h0 hbuf hint
        (by simp only [List.length_append, List.length_singleton, hdl]; omega)
        (by rw [CStr.append_chars, htc]; rfl)

end Wrap

/-! ## The stack under a chop width -/

/-- One slot's line under the chop width `M + 4 + k`: the location, dots up to the longest
location `M`, `": "` and the wrapped message; an empty message is a newline. -/
def chopLine (k M : Nat) (e : ErrMsg) : List Char :=
  e.location.chars ++ List.replicate (M - e.location.length) '.' ++ [':', ' '] ++
    wrapText k (M + 2) e.msg.length e.msg.chars

/-- The lines of the slots `es`. -/
def chopLines (s : Ring) (k M : Nat) (es : List Nat) : List Char :=
  es.flatMap fun i => chopLine k M (s.errorRing i)

/-- What the printer writes for a walk that visits `es` and stops at `t`, under the chop width
`longest s es + 4 + k`. -/
def chopText (K : Config) (s : Ring) (k : Nat) (es : List Nat) (t : CInt) :
    Except Fault (List Char) :=
  (stackTail K t).map fun tail => chopLines s k (longest s es) es ++ tail

/-- A walk whose first slot's message is cut: the stack is that slot's location, dots, `": "`
and the first `k` bytes of its message, then a NUL and the newline of the cut. -/
theorem chopText_cut {s : Ring} {k i : Nat} {es : List Nat} {t : CInt} {x : List Char}
    (hx : chopText K s k (i :: es) t = .ok x) (hcut : k + 1 < (s.errorRing i).msg.length) :
    ∃ R, x = (s.errorRing i).location.chars ++
      List.replicate (longest s (i :: es) - (s.errorRing i).location.length) '.' ++ [':', ' '] ++
        (s.errorRing i).msg.chars.take k ++ '\x00' :: '\n' :: R := by
  obtain ⟨tl, -, rfl⟩ := map_eq_ok.mp hx
  obtain ⟨n, hn⟩ : ∃ n, (s.errorRing i).msg.length = n + 1 :=
    ⟨_, (Nat.succ_pred_eq_of_pos (by omega)).symm⟩
  rw [chopLines, List.flatMap_cons, chopLine, hn, wrapText_cut (by rw [← CStr.length_eq]; omega)]
  simp only [List.append_assoc, List.cons_append, List.singleton_append, List.nil_append]
  exact ⟨_, rfl⟩

/-- `*--str = '\0'` over the last byte of a text, whether or not a NUL follows it. -/
theorem store_last_nulTail {buf x : List Char} {p : Int} (h0 : 0 ≤ p) (hx : x ≠ []) (nul : Bool)
    (h : p + x.length + (nulTail nul).length ≤ buf.length) :
    store (splice buf p.toNat (x ++ nulTail nul)) (p + x.length - 1) '\x00' =
      .ok (splice buf p.toNat (x.dropLast ++ '\x00' :: nulTail nul)) := by
  obtain ⟨d, a, rfl⟩ : ∃ d a, x = d ++ [a] := ⟨_, _, (List.dropLast_append_getLast hx).symm⟩
  have hp : p.toNat ≤ buf.length := by omega
  have hd : p.toNat + d.length ≤ (splice buf p.toNat d).length := by
    simp only [splice, List.length_append, List.length_take]; omega
  simp only [List.length_append, List.length_singleton] at h ⊢
  have hlen : (splice buf p.toNat (d ++ [a] ++ nulTail nul)).length = buf.length :=
    length_splice (by simp only [List.length_append, List.length_singleton]; omega)
  rw [store, storeAll_of_le (by omega) (by rw [hlen, List.length_singleton]; omega),
    show (p + (d.length + 1 : Nat) - 1).toNat = p.toNat + d.length by omega, List.append_assoc,
    ← splice_splice hp, splice_overwrite hd, splice_splice hp, List.dropLast_concat]
  rfl

section Written

variable {buf : List Char} {str maxlen : Int} {w : List Char} {b : Bool}
variable (h0 : 0 ≤ str) (hbuf : str + maxlen ≤ buf.length) (hint : maxlen < 2 ^ 31)
include h0 hbuf hint

/-- Under a chop width past the location column, a slot whose message fits writes its
`chopLine`. -/
theorem printEntry_chop_written {k M : Nat} (hk : K.chopErrorStack = k + 2 + ((M : Int) + 2))
    {e : ErrMsg} (hmsg : e.msg.length ≤ mpirMaxErrorLine)
    (hroom : w.length + (chopLine k M e).length < maxlen) :
    ∃ nul', printEntry K M (Out.written buf str maxlen w b) e =
      .ok (Out.written buf str maxlen (w ++ chopLine k M e) nul') := by
  have hwl := length_lt_wrapText k (M + 2) e.msg.length e.msg.chars
  have hmll : ((M : Int) + 2).toNat = M + 2 := by omega
  simp only [chopLine, List.length_append, List.length_replicate, List.length_cons,
    List.length_nil, ← CStr.length_eq] at hroom hwl
  have hpad : ((M : Int) + 2 - e.location.length - 2).toNat = M - e.location.length := by omega
  rw [printEntry, Out.print_written h0 hbuf hint (by omega), ok_bind, hpad,
    Out.pad_written h0 hbuf _ (by simp only [List.length_append, ← CStr.length_eq]; omega), ok_bind,
    Out.putIf_written h0 hbuf
      (by simp only [List.length_append, List.length_replicate, ← CStr.length_eq]; omega),
    ok_bind, Out.putIf_written h0 hbuf (by
      simp only [List.length_append, List.length_replicate, List.length_singleton,
        ← CStr.length_eq]; omega), ok_bind, if_pos (by omega)]
  dsimp only
  set w₄ := w ++ e.location.chars ++ List.replicate (M - e.location.length) '.' ++ [':'] ++ [' ']
  have hw₄ : w₄.length = w.length + e.location.length + (M - e.location.length) + 2 := by
    simp only [w₄, List.length_append, List.length_replicate, List.length_singleton,
      ← CStr.length_eq]
  have hline : w ++ chopLine k M e = w₄ ++ wrapText k (M + 2) e.msg.length e.msg.chars := by
    simp only [w₄, chopLine, List.append_assoc, List.singleton_append, List.cons_append,
      List.nil_append]
  rw [hline]
  by_cases hz : e.msg.length = 0
  · have hnil : e.msg.chars = [] := List.eq_nil_of_length_eq_zero hz
    rw [if_pos ⟨hz, by rw [Out.written_maxlen]; omega⟩, Out.put_written h0 hbuf (by omega), ok_bind]
    refine ⟨false, ?_⟩
    rw [wrapLoop, strlen, cstrAt_slotObj, if_pos hmsg]
    simp only [Except.map, ok_bind, hz, if_true, hnil, wrapText, List.nil_append]
    rfl
  · rw [if_neg fun h => hz h.1, pure_bind, Out.written_maxlen]
    have hw := wrapLoop_written h0 hbuf hint (by omega : (0 : Int) < (M : Int) + 2) hk hmsg
      ((maxlen - w₄.length).toNat + 1) e.msg.length 0 (w := w₄) (b := false) (by omega)
      (by omega) (by omega) (by rw [List.drop_zero, hmll]; omega)
    rw [Nat.add_zero, List.drop_zero, hmll] at hw
    exact ⟨true, hw⟩

end Written

/-- A text with a NUL inside holds, as the C string at its start, the part before that NUL. -/
theorem TextIn.cstrAt_cut {B buf P U : List Char} {q L : Nat} (hw : TextIn B q L P buf)
    (hB : q + L ≤ B.length) {t : CStr} (ht : P = t.chars ++ '\x00' :: U) {pos : Int}
    (hpos : pos = q) : cstrAt buf pos = .ok t := by
  obtain ⟨rest, rfl, hlen⟩ := hw
  subst ht hpos
  simp only [List.length_append, List.length_cons] at hlen
  rw [List.append_assoc, List.cons_append]
  exact cstrAt_splice (by rw [CStr.length_eq]; omega)

section Walk

variable {s : Ring} (hz : ∀ j, s.maxErrorRingLoc < j → s.errorRing j = .zero)
  (hmsg : ∀ j, (s.errorRing j).msg.length ≤ mpirMaxErrorLine)
variable {buf : List Char} {str maxlen : Int}
  (h0 : 0 ≤ str) (hbuf : str + maxlen ≤ buf.length) (hint : maxlen < 2 ^ 31)
include hz hmsg h0 hbuf hint

/-- Under a chop width past the location column, the second walk writes the `chopLines` of the
chain. -/
theorem printEntries_chop_written {k M : Nat} (hk : K.chopErrorStack = k + 2 + ((M : Int) + 2))
    {c t : CInt} {es : List Nat} (hc : Chain s c es t) :
    ∀ {n : Nat} {w : List Char} {b : Bool}, es.length < n →
      w.length + (chopLines s k M es).length < maxlen →
      ∃ nul', printEntries K s M n (Out.written buf str maxlen w b) c =
        .ok (Out.written buf str maxlen (w ++ chopLines s k M es) nul', t) := by
  induction hc with
  | stop hc =>
    intro n w b hn _
    obtain ⟨n, rfl⟩ : ∃ m, n = m + 1 := ⟨n - 1, by simp at hn; omega⟩
    exact ⟨b, by simp [printEntries_of_link_none hz hc, chopLines]⟩
  | @step c i es t hc _ ih =>
    intro n w b hn hroom
    obtain ⟨n, rfl⟩ : ∃ m, n = m + 1 := ⟨n - 1, by simp at hn; omega⟩
    have hl : chopLines s k M (i :: es) = chopLine k M (s.errorRing i) ++ chopLines s k M es := by
      simp [chopLines]
    rw [hl, List.length_append] at hroom
    obtain ⟨nul₁, h₁⟩ := printEntry_chop_written h0 hbuf hint hk (hmsg i) (w := w) (b := b)
      (by omega)
    obtain ⟨nul₂, h₂⟩ := ih (n := n) (w := w ++ chopLine k M (s.errorRing i)) (b := nul₁)
      (by simp at hn; omega) (by rw [List.length_append]; omega)
    exact ⟨nul₂, by rw [printEntries_of_link_some hc, h₁, ok_bind, h₂, hl, List.append_assoc]⟩

end Walk

section Stack

variable {s : Ring} (hz : ∀ j, s.maxErrorRingLoc < j → s.errorRing j = .zero)
  (hmsg : ∀ j, (s.errorRing j).msg.length ≤ mpirMaxErrorLine) {k : Nat} {c t : CInt} {i : Nat}
  {es : List Nat} (hc : Chain s c (i :: es) t)
  (hk : K.chopErrorStack = k + 2 + ((longest s (i :: es) : Int) + 2)) {x : List Char}
  (hx : chopText K s k (i :: es) t = .ok x)
include hz hmsg hc hk hx

/-- Under a chop width past the location column and with room, the stack printer writes, right
after the text, the chopped stack of a walk that visits a slot, all but its last byte, and a
NUL. -/
theorem mpirErrPrintStackString_chop {B buf P : List Char} {q L : Nat} (hw : TextIn B q L P buf)
    (hB : q + L ≤ B.length) (hL : L < 2 ^ 31) (hroom : P.length + x.length < L) {str maxlen : Int}
    (hstr : str = ((q + P.length : Nat) : Int)) (hmax : maxlen = (L : Int) - P.length) :
    ∃ out, mpirErrPrintStackString K s c buf str maxlen = .ok out ∧
      TextIn B q L (P ++ x.dropLast) out := by
  subst hstr hmax
  obtain ⟨tl, htl, rfl⟩ := map_eq_ok.mp hx
  have hlen := hw.length_eq hB
  have hP := hw.length_lt
  rw [List.length_append] at hroom
  have hbuf : ((q + P.length : Nat) : Int) + ((L : Int) - P.length) ≤ buf.length := by omega
  have hnil : chopLines s k (longest s (i :: es)) (i :: es) ++ tl ≠ [] := by
    simp [chopLines, chopLine]
  have hx0 := List.length_pos.mpr hnil
  obtain ⟨nul, hpe⟩ := printEntries_chop_written hz hmsg (by omega) hbuf (by omega) hk hc
    (n := maxErrorRing + 1) (w := []) (b := false) (Nat.lt_succ_of_le hc.length_le)
    (by simp; omega)
  have hnt := length_nulTail (nul || decide (t ≠ mpiSuccess))
  rw [mpirErrPrintStackString, longestLocation_of_chain hc, ok_bind, ← Out.written_nil, hpe,
    ok_bind]
  dsimp only
  rw [stackFallback_written (by omega) hbuf (by omega) htl (by simp; omega), ok_bind,
    Out.written_str, if_pos (by simp only [List.nil_append]; omega), List.nil_append]
  refine ⟨_, store_last_nulTail (by omega) hnil _ ?_, ?_⟩
  · simp only [List.length_append] at hroom ⊢
    omega
  · rw [Int.toNat_ofNat]
    exact hw.write hB (by
      simp only [List.length_dropLast, List.length_append] at hx0 ⊢; omega)

/-- With the stack on and a chop width past the location column, `MPIR_Err_get_string` writes
the class message of a code that is neither dynamic nor a bare class, `", error stack:\n"` and
the chopped stack of its walk but its last byte, within the `length` bytes at `msg`. -/
theorem mpirErrGetString_chop_textIn (hps : K.printErrorStack = true)
    (hdyn : c &&& errorDynMask = 0) (hcls : c &&& errorClassMask ≠ c) {m : CStr}
    (hm : getClassMsg K (errorGetClass c) = .ok m) {buf : List Char} {q L : Nat}
    (hbuf : q + L ≤ buf.length) (hL : L < 2 ^ 31) (hroom : m.length + 15 + x.length < L) :
    ∃ out, mpirErrGetString K s c buf q L = .ok out ∧
      TextIn buf q L (m.chars ++ ", error stack:\n".toList ++ x.dropLast) out := by
  have hEt : ", error stack:\n".toList.length = 15 := rfl
  obtain ⟨buf₂, hw₂, heq⟩ := mpirErrGetString_stack_print (s := s) hps hdyn hcls hm hbuf hL
    (by omega)
  obtain ⟨out, hpr, hw₃⟩ := mpirErrPrintStackString_chop hz hmsg hc hk hx hw₂ hbuf hL
    (by simp only [List.length_append, hEt, ← CStr.length_eq]; omega)
    (show ((q + (m.length + 15) : Nat) : Int) =
      ((q + (m.chars ++ ", error stack:\n".toList).length : Nat) : Int) by
      simp only [List.length_append, hEt, CStr.length_eq])
    (show (L : Int) - ((m.length + 15 : Nat) : Int) =
      (L : Int) - ((m.chars ++ ", error stack:\n".toList).length : Nat) by
      simp only [List.length_append, hEt, CStr.length_eq])
  obtain ⟨out', hst, hw₄⟩ := hw₃.store_last hbuf
  exact ⟨out', by rw [heq, hpr, ok_bind, hst], hw₄⟩

end Stack

/-! ## What the caller reads back -/

section Message

variable {s : Ring}

theorem nul_not_mem_dots (n : Nat) : '\x00' ∉ List.replicate n '.' :=
  fun h => absurd (List.eq_of_mem_replicate h) (by decide)

/-- With `MPIR_CVAR_PRINT_ERROR_STACK` on and a chop width `W = M + 4 + k` past the location
column of the walk (`M` its longest location), in a reachable state: for a code that is neither
dynamic nor a bare class whose walk's first slot has a message longer than `k + 1` bytes, and with
room for the chopped stack, `MPIR_Err_get_string` returns and the C string at `msg` is the class
message, `", error stack:\n"`, that slot's location, dots, `": "` and the first `k` bytes of its
message.  The rest of that message and every later line are lost behind the NUL of the first
cut. -/
theorem mpirErrGetString_chop_cut {codes : List CInt} (hr : Reachable K s codes)
    (hps : K.printErrorStack = true) {c t : CInt} {i : Nat} {es : List Nat}
    (hc : Chain s c (i :: es) t) {k : Nat}
    (hk : K.chopErrorStack = k + 2 + ((longest s (i :: es) : Int) + 2))
    (hcut : k + 1 < (s.errorRing i).msg.length) (hdyn : c &&& errorDynMask = 0)
    (hcls : c &&& errorClassMask ≠ c) {m : CStr} (hm : getClassMsg K (errorGetClass c) = .ok m)
    {x : List Char} (hx : chopText K s k (i :: es) t = .ok x) {buf : List Char} {q L : Nat}
    (hbuf : q + L ≤ buf.length) (hL : L < 2 ^ 31) (hroom : m.length + 15 + x.length < L) :
    ∃ out, mpirErrGetString K s c buf q L = .ok out ∧
      cstrAt out q = .ok (m ++ ", error stack:\n" ++ (s.errorRing i).location ++
        CStr.ofChars (List.replicate (longest s (i :: es) - (s.errorRing i).location.length) '.') ++
          ": " ++ (s.errorRing i).msg.take k) := by
  obtain ⟨R, hxR⟩ := chopText_cut hx hcut
  obtain ⟨out, hget, hw⟩ :=
    mpirErrGetString_chop_textIn hr.above_max hr.msg_length_le hc hk hx hps hdyn hcls hm hbuf hL
      hroom
  refine ⟨out, hget, hw.cstrAt_cut hbuf (U := ('\n' :: R).dropLast) ?_ rfl⟩
  rw [hxR, List.dropLast_append_cons, List.dropLast_cons₂]
  simp only [CStr.append_chars, CStr.take_chars, CStr.ofChars_chars_of_nul_not_mem
    (nul_not_mem_dots _), List.append_assoc, List.cons_append, List.singleton_append]
  rfl

/-- The sample configuration with the chop width `20`, past the location column `14` of the
`MPI_Send` chain, whose longest location `MPI_Send(12)` has `12` bytes. -/
def sendChopConfig : Config := { Config.sample with chopErrorStack := 20 }

theorem sendCreate_reachable_chop :
    Reachable sendChopConfig sendCreate.2 [sendCreate.1, wrapCode] :=
  .create (K := sendChopConfig) wrapCode false (some "MPI_Send") 12 1 "**fail"
    (some "send failed") [] (.create mpiSuccess false (some "f") 1 1 "**fail" none [] .init
      (.inl rfl)) (.inr (List.mem_singleton_self _))

set_option maxRecDepth 8000 in
/-- The `MPI_Send` chain under the chop width `20`: the width cuts four bytes a line, the first
message is longer than that, and the printer's text, each cut followed by its NUL. -/
theorem sendCreate_chopText :
    sendChopConfig.chopErrorStack =
        ((4 : Nat) : Int) + 2 + ((longest sendCreate.2 [1, 0] : Int) + 2) ∧
      4 + 1 < (sendCreate.2.errorRing 1).msg.length ∧
      chopText sendChopConfig sendCreate.2 4 [1, 0] mpiSuccess = .ok ("MPI_Send(12): send".toList ++
        ['\x00', '\n'] ++ List.replicate 14 ' ' ++ "fail".toList ++ ['\x00', '\n'] ++
        List.replicate 14 ' ' ++ "d\n".toList ++ "f(1)........: Fail".toList ++ ['\x00', '\n'] ++
        List.replicate 14 ' ' ++ "re\n".toList) :=
  ⟨by decide, by decide, rfl⟩

set_option maxRecDepth 8000 in
/-- The `MPI_Send` chain under the chop width `20`, written into 128 bytes: each cut keeps four
bytes, so the first line is cut after `send`, and the caller reads back
`Other MPI error, error stack:` and `MPI_Send(12): send`; the rest of that line and the whole line
of `wrapCode`'s slot are lost. -/
theorem mpirErrGetString_chop_cut_pop :
    Reachable sendChopConfig sendCreate.2 [sendCreate.1, wrapCode] ∧
      sendChopConfig.printErrorStack = true ∧
      Chain sendCreate.2 sendCreate.1 [1, 0] mpiSuccess ∧
      sendChopConfig.chopErrorStack =
        ((4 : Nat) : Int) + 2 + ((longest sendCreate.2 [1, 0] : Int) + 2) ∧
      4 + 1 < (sendCreate.2.errorRing 1).msg.length ∧ sendCreate.1 &&& errorDynMask = 0 ∧
      sendCreate.1 &&& errorClassMask ≠ sendCreate.1 ∧
      getClassMsg sendChopConfig (errorGetClass sendCreate.1) = .ok "Other MPI error" ∧
      chopText sendChopConfig sendCreate.2 4 [1, 0] mpiSuccess = .ok ("MPI_Send(12): send".toList ++
        ['\x00', '\n'] ++ List.replicate 14 ' ' ++ "fail".toList ++ ['\x00', '\n'] ++
        List.replicate 14 ' ' ++ "d\n".toList ++ "f(1)........: Fail".toList ++ ['\x00', '\n'] ++
        List.replicate 14 ' ' ++ "re\n".toList) ∧
      ∃ out, mpirErrGetString sendChopConfig sendCreate.2 sendCreate.1 (List.replicate 128 'x') 0
          128 = .ok out ∧
        cstrAt out 0 = .ok "Other MPI error, error stack:\nMPI_Send(12): send" := by
  have hr := sendCreate_reachable_chop
  have hc := sendCreate_chain
  obtain ⟨hk, hcut, hx⟩ := sendCreate_chopText
  obtain ⟨hdyn, hcls⟩ := sendCreate_code_fields
  have hm : getClassMsg sendChopConfig (errorGetClass sendCreate.1) = .ok "Other MPI error" :=
    rfl
  obtain ⟨out, hget, hmsg⟩ := mpirErrGetString_chop_cut hr rfl hc hk hcut hdyn hcls hm hx
    (show 0 + 128 ≤ (List.replicate 128 'x').length by simp) (by decide) (by decide)
  exact ⟨hr, rfl, hc, hk, hcut, hdyn, hcls, hm, hx, out, hget, hmsg.trans rfl⟩

/-- With the stack on and a chop width past the location column, in a reachable state, a fatal
error on a code that is neither dynamic nor a bare class, whose walk's first slot has a message
longer than `k + 1` bytes, aborts with `"Fatal error in <fcname>: "`, the class message,
`", error stack:\n"`, that slot's location, dots, `": "` and the first `k` bytes of its message,
when the chopped stack fits: nothing of the stack after the first cut reaches `MPID_Abort`. -/
theorem mpirHandleFatalError_chop_cut {codes : List CInt} (hr : Reachable K s codes)
    (hps : K.printErrorStack = true) {c t : CInt} {i : Nat} {es : List Nat}
    (hc : Chain s c (i :: es) t) {k : Nat}
    (hk : K.chopErrorStack = k + 2 + ((longest s (i :: es) : Int) + 2))
    (hcut : k + 1 < (s.errorRing i).msg.length) (hdyn : c &&& errorDynMask = 0)
    (hcls : c &&& errorClassMask ≠ c) {m : CStr} (hm : getClassMsg K (errorGetClass c) = .ok m)
    {x : List Char} (hx : chopText K s k (i :: es) t = .ok x) {M : Nat} (hM : M < 2 ^ 31)
    {errorMsg : List Char} (hbuf : errorMsg.length = maxErrmsgString M) (commPtr : Option Comm)
    (fcname : CStr) (hroom : fcname.length + 17 + m.length + 15 + x.length < maxErrmsgString M) :
    mpirHandleFatalError K s M errorMsg commPtr fcname c = .ok ⟨commPtr, mpiSuccess, c,
      "Fatal error in " ++ fcname ++ ": " ++ m ++ ", error stack:\n" ++ (s.errorRing i).location ++
        CStr.ofChars (List.replicate (longest s (i :: es) - (s.errorRing i).location.length) '.') ++
          ": " ++ (s.errorRing i).msg.take k⟩ := by
  obtain ⟨-, hhi⟩ := maxErrmsgString_bounds hM
  have hPl := length_fatalPrefix fcname
  obtain ⟨R, hxR⟩ := chopText_cut hx hcut
  obtain ⟨buf₁, hw₀, heq⟩ := mpirHandleFatalError_eq (K := K) (s := s) hM hbuf commPtr fcname
    (by omega) c
  obtain ⟨out, hget, hwT⟩ := mpirErrGetString_chop_textIn hr.above_max hr.msg_length_le hc hk hx
    hps hdyn hcls hm (show fcname.length + 17 + (maxErrmsgString M - (fcname.length + 17)) ≤
      buf₁.length by rw [hw₀.length_eq (by omega)]; omega) (by omega) (by omega)
  rw [Nat.cast_sub (by omega)] at hget
  have hw := hw₀.append (by omega) (by rw [Nat.zero_add, ← CStr.length_eq, hPl])
    (by rw [← CStr.length_eq, hPl]) hwT
  rw [heq, hget, ok_bind, hw.cstrAt_cut (by omega) (U := ('\n' :: R).dropLast) ?_ (by simp),
    ok_bind]
  · rfl
  · rw [hxR, List.dropLast_append_cons, List.dropLast_cons₂]
    simp only [CStr.append_chars, CStr.take_chars, CStr.ofChars_chars_of_nul_not_mem
      (nul_not_mem_dots _), List.append_assoc, List.cons_append, List.singleton_append]
    rfl

set_option maxRecDepth 8000 in
/-- Under the chop width `20`, a fatal error on the `MPI_Send` code in `MPI_Send`, for an
`MPI_MAX_ERROR_STRING` of 1024 and an array of any 4096 bytes, aborts with
`Fatal error in MPI_Send: Other MPI error, error stack:` and `MPI_Send(12): send`. -/
theorem mpirHandleFatalError_chop_cut_pop :
    Reachable sendChopConfig sendCreate.2 [sendCreate.1, wrapCode] ∧
      sendChopConfig.printErrorStack = true ∧
      Chain sendCreate.2 sendCreate.1 [1, 0] mpiSuccess ∧
      sendChopConfig.chopErrorStack =
        ((4 : Nat) : Int) + 2 + ((longest sendCreate.2 [1, 0] : Int) + 2) ∧
      4 + 1 < (sendCreate.2.errorRing 1).msg.length ∧ sendCreate.1 &&& errorDynMask = 0 ∧
      sendCreate.1 &&& errorClassMask ≠ sendCreate.1 ∧
      getClassMsg sendChopConfig (errorGetClass sendCreate.1) = .ok "Other MPI error" ∧
      chopText sendChopConfig sendCreate.2 4 [1, 0] mpiSuccess = .ok ("MPI_Send(12): send".toList ++
        ['\x00', '\n'] ++ List.replicate 14 ' ' ++ "fail".toList ++ ['\x00', '\n'] ++
        List.replicate 14 ' ' ++ "d\n".toList ++ "f(1)........: Fail".toList ++ ['\x00', '\n'] ++
        List.replicate 14 ' ' ++ "re\n".toList) ∧
      1024 < 2 ^ 31 ∧ (List.replicate 4096 'x').length = maxErrmsgString 1024 ∧
      mpirHandleFatalError sendChopConfig sendCreate.2 1024 (List.replicate 4096 'x') none
        "MPI_Send" sendCreate.1 = .ok ⟨none, mpiSuccess, sendCreate.1,
          "Fatal error in MPI_Send: Other MPI error, error stack:\nMPI_Send(12): send"⟩ := by
  have hr := sendCreate_reachable_chop
  have hc := sendCreate_chain
  obtain ⟨hk, hcut, hx⟩ := sendCreate_chopText
  obtain ⟨hdyn, hcls⟩ := sendCreate_code_fields
  have hm : getClassMsg sendChopConfig (errorGetClass sendCreate.1) = .ok "Other MPI error" :=
    rfl
  have hbuf : (List.replicate 4096 'x').length = maxErrmsgString 1024 := List.length_replicate _ _
  exact ⟨hr, rfl, hc, hk, hcut, hdyn, hcls, hm, hx, by decide, hbuf,
    (mpirHandleFatalError_chop_cut hr rfl hc hk hcut hdyn hcls hm hx (by decide) hbuf none
      "MPI_Send" (by decide)).trans rfl⟩

end Message

end MpichErrhan
