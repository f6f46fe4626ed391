import MpichErrhan.ChopStack

/-!
# A chop width inside the location column loses every message

`MPIR_CVAR_CHOP_ERROR_STACK` is the width `W` at which `MPIR_Err_print_stack_string` wraps a
slot's message; `MPIR_Err_init` replaces only a negative width, by `80`.  Each pass of the wrapping
loop cuts `W - 1 - max_location_len` bytes of the message, where `max_location_len` is the padded
location column `M + 2`.  For `0 < W ≤ M + 2` that count is negative, `W - M - 3`:
* `snprintf` gets it as a `size_t` that wraps to a huge size, and copies the whole message and its
  NUL after the column;
* the newline goes `M + 3 - W` bytes back, into the column, which keeps its first `W - 1` bytes;
* `str` moves back to just after that newline, and the `M + 2` single-space `snprintf`s write over
  the rest of the column and the first `W` bytes of the message, the last NUL over the next byte;
* `cur_pos` moves `M + 3 - W` bytes back before the slot's `msg`, into its `location` array
  (`slotObj`).  When the location is short enough, that byte is one of the zeros after it, so
  `strlen` gives `0` and the loop ends.

So each slot with a message prints `narrowLine`: the first `W - 1` bytes of its location column, a
newline and `M + 2` spaces, and nothing of the message, whose rest stays in the object past the
line's NUL.  The stack printer then returns normally with that text.

## Main results

* `wrapLoop_narrow_written`, `printEntry_narrow_written`, `printEntries_narrow_written`: the
  loop, a slot and the walk under a narrow chop width.
* `mpirErrGetString_narrow_chop`: in a reachable state, `MPIR_Err_get_string` returns, and the
  caller reads back the class message, `", error stack:\n"` and the narrow lines: no message of
  the stack reaches it.
* `mpirHandleFatalError_narrow_chop`: the abort path aborts with that text.
-/

namespace MpichErrhan

/-- The location column of a slot: its location, dots up to the longest location `M`, and
`": "`. -/
def locationColumn (M : Nat) (e : ErrMsg) : List Char :=
  e.location.chars ++ List.replicate (M - e.location.length) '.' ++ [':', ' ']

theorem length_locationColumn {M : Nat} {e : ErrMsg} (h : e.location.length ≤ M) :
    (locationColumn M e).length = M + 2 := by
  simp only [locationColumn, List.length_append, List.length_replicate, List.length_cons,
    List.length_nil, ← CStr.length_eq]
  omega

/-- One slot's line under a chop width `W` inside the location column: a slot with a message
keeps the first `W - 1` bytes of its column, then a newline and `M + 2` spaces, and none of the
message; an empty message gives the column and a newline. -/
def narrowLine (W M : Nat) (e : ErrMsg) : List Char :=
  if e.msg.length = 0 then locationColumn M e ++ ['\n']
  else (locationColumn M e).take (W - 1) ++ '\n' :: List.replicate (M + 2) ' '

/-- A line under a narrow chop width is its column and a newline, or the first `W - 1` bytes of
its column, a newline and `M + 2` spaces. -/
theorem length_narrowLine {W M : Nat} {e : ErrMsg} (hw0 : 0 < W) (hw : W ≤ M + 2)
    (hloc : e.location.length ≤ M) :
    (narrowLine W M e).length = if e.msg.length = 0 then M + 3 else M + 2 + W := by
  have hcol := length_locationColumn hloc
  unfold narrowLine
  split_ifs
  · rw [List.length_append, hcol, List.length_singleton]
  · rw [List.length_append, List.length_take, hcol, List.length_cons, List.length_replicate]
    omega

section Narrow

variable {buf : List Char} {str maxlen : Int} (h0 : 0 ≤ str) (hbuf : str + maxlen ≤ buf.length)
  (hint : maxlen < 2 ^ 31) {M W : Nat} (hw0 : 0 < W) (hw : W ≤ M + 2) {e : ErrMsg}
  (hmax : e.msg.length ≤ mpirMaxErrorLine)
include h0 hbuf hint hw0 hw hmax

/-- The wrapping loop under a chop width `W` inside the location column `y` of `M + 2` bytes, on a
message that fits, when the location leaves zeros `M + 3 - W` bytes before the message.  The one
pass copies the whole message after the column, puts the newline over byte `W` of the column,
and writes `M + 2` spaces from there, the last one's NUL over the message; the next `strlen`
reads a zero of the location array, and the loop ends. -/
theorem wrapLoop_narrow_written (hm : 0 < e.msg.length)
    (hback : e.location.length + (M + 3 - W) ≤ maxLocationLen + 1) {x y : List Char}
    (hy : y.length = M + 2) {b : Bool} (fuel : Nat)
    (hroom : x.length + M + 2 + e.msg.length < maxlen) (hroomW : x.length + M + 2 + W < maxlen) :
    wrapLoop W ((M : Int) + 2) (slotObj e) (fuel + 2) (Out.written buf str maxlen (x ++ y) b)
        ((maxLocationLen + 1 : Nat) : Int) =
      .ok (Out.written (splice buf str.toNat
          (x ++ y.take (W - 1) ++ '\n' :: (y.drop W ++ e.msg.chars ++ ['\x00']))) str maxlen
        (x ++ (y.take (W - 1) ++ '\n' :: List.replicate (M + 2) ' ')) true) := by
  have hl : (x ++ y).length = x.length + M + 2 := by rw [List.length_append, hy]; omega
  have hm' : e.msg.chars.length = e.msg.length := rfl
  have hsn : snprintf (Out.written buf str maxlen (x ++ y) b).buf
      (str + ((x ++ y).length : Nat)) (sizeT ((W : Int) - 1 - ((M : Int) + 2))) e.msg =
      .ok (splice buf str.toNat (x ++ y ++ (e.msg.chars ++ ['\x00']))) := by
    rw [snprintf_of_neg _ (by omega) (by omega) (by unfold mpirMaxErrorLine at hmax; omega)]
    exact storeAll_written h0 hbuf (by have := length_nulTail b; simp; omega)
      (by simp only [List.length_append, List.length_singleton, hl, hm']; omega)
  have ht : cstrAt (slotObj e) ((maxLocationLen + 1 : Nat) : Int) = .ok e.msg := by
    rw [cstrAt_slotObj, if_pos hmax]
  set w' := x ++ y.take (W - 1) ++ ['\n'] with hw'
  set junk := y.drop W ++ e.msg.chars ++ ['\x00'] with hjunk
  have htk : (y.take (W - 1)).length = W - 1 := by rw [List.length_take, hy]; omega
  have hwl : w'.length = x.length + W := by
    rw [hw', List.length_append, List.length_append, htk, List.length_singleton]; omega
  have hB : x ++ y.take (W - 1) ++ '\n' :: junk = w' ++ junk := by
    simp only [hw', List.append_assoc, List.singleton_append]
  have hst : store (splice buf str.toNat (x ++ y ++ (e.msg.chars ++ ['\x00'])))
      (str + ((x ++ y).length : Nat) + ((W : Int) - 1 - ((M : Int) + 2))) '\n' =
      .ok (splice buf str.toNat (w' ++ junk)) := by
    have hsplit : x ++ y ++ (e.msg.chars ++ ['\x00']) =
        (x ++ y.take (W - 1)) ++ (y.drop (W - 1) ++ e.msg.chars ++ ['\x00']) := by
      conv_lhs => rw [← List.take_append_drop (W - 1) y]
      simp only [List.append_assoc]
    have hlen : (splice buf str.toNat (x ++ y ++ (e.msg.chars ++ ['\x00']))).length =
        buf.length :=
      length_splice (by simp only [List.length_append, List.length_singleton, hm', hy]; omega)
    have hd1 : (y.drop (W - 1) ++ e.msg.chars ++ ['\x00']).drop ['\n'].length = junk := by
      rw [hjunk, List.append_assoc, List.append_assoc, List.length_singleton,
        List.drop_append_of_le_length (by rw [List.length_drop, hy]; omega), List.drop_drop,
        Nat.sub_add_cancel hw0]
    rw [store, storeAll_of_le (by omega) (by rw [hlen, List.length_singleton, hl]; omega), hsplit,
      show (str + ((x ++ y).length : Nat) + ((W : Int) - 1 - ((M : Int) + 2))).toNat =
        str.toNat + (x ++ y.take (W - 1)).length by
          simp only [List.length_append, htk, hy]; omega,
      splice_append_write (by omega), hd1, ← hB]
    simp only [List.singleton_append, List.cons_append, List.append_assoc, List.nil_append]
  have ho : (⟨splice buf str.toNat (w' ++ junk), str + ((x ++ y).length : Nat) +
      ((W : Int) - ((M : Int) + 2)),
      maxlen - ((x ++ y).length : Nat) - ((W : Int) - ((M : Int) + 2))⟩ :
        Out) = Out.written (splice buf str.toNat (w' ++ junk)) str maxlen w' false := by
    have hs : splice (splice buf str.toNat (w' ++ junk)) str.toNat w' =
        splice buf str.toNat (w' ++ junk) := by
      rw [splice_overwrite (by omega), List.drop_left]
    simp only [Out.written, nulTail, Bool.false_eq_true, if_false, List.append_nil, hs, hl, hwl,
      Out.mk.injEq, true_and]
    omega
  have hB₁ : str + maxlen ≤ (splice buf str.toNat (w' ++ junk)).length := by
    rw [length_splice (by simp only [hw', hjunk, List.length_append, List.length_singleton,
      List.length_take, List.length_drop, hy, hm']; omega)]
    exact hbuf
  have hq : ((maxLocationLen + 1 : Nat) : Int) + ((W : Int) - 1 - ((M : Int) + 2)) =
      ((maxLocationLen + 1 - (M + 3 - W) : Nat) : Int) := by
    unfold maxLocationLen at hback ⊢; omega
  rw [wrapLoop, strlen, ht]
  simp only [Except.map, ok_bind, CStr.length_eq, Out.written_str, Out.written_maxlen]
  rw [if_neg (by omega), if_pos (by omega), if_neg (by rw [hl]; omega), hsn, ok_bind, hst, ok_bind,
    ho, if_neg (by rw [hl]; omega), show ((M : Int) + 2).toNat = M + 2 by omega,
    Out.spaces_written h0 hB₁ hint _ (by rw [hwl]; omega), ok_bind, wrapLoop, strlen, hq,
    cstrAt_slotObj_location (by omega) (by omega)]
  simp only [Except.map, ok_bind, CStr.empty_chars, List.length_nil, if_true, Bool.false_or,
    decide_eq_true (by omega : 0 < M + 2), hw', hB, List.append_assoc, List.singleton_append,
    List.cons_append]
  rfl

variable {K : Config} {w : List Char} {b : Bool}

/-- A slot under a chop width `W` inside the location column, with a message that fits and a
location that leaves zeros `M + 3 - W` bytes before the message, prints its `narrowLine`.  What it
leaves past the line's NUL, the rest of the message, is in the object `V` it wrote over. -/
theorem printEntry_narrow_written (hW : K.chopErrorStack = W) (hloc : e.location.length ≤ M)
    (hback : e.location.length + (M + 3 - W) ≤ maxLocationLen + 1)
    (hroom : w.length + (narrowLine W M e).length + mpirMaxErrorLine < maxlen) :
    ∃ V b', (V.length : Int) ≤ maxlen ∧ printEntry K M (Out.written buf str maxlen w b) e =
      .ok (Out.written (splice buf str.toNat V) str maxlen (w ++ narrowLine W M e) b') := by
  have hcol := length_locationColumn hloc
  rw [length_narrowLine hw0 hw hloc] at hroom
  have hpre : w.length + (M + 2) < maxlen := by split_ifs at hroom <;> omega
  have hpad : ((M : Int) + 2 - e.location.length - 2).toNat = M - e.location.length := by omega
  have hw₄ : w ++ e.location.chars ++ List.replicate (M - e.location.length) '.' ++ [':'] ++
      [' '] = w ++ locationColumn M e := by
    simp only [locationColumn, List.append_assoc, List.singleton_append, List.cons_append,
      List.nil_append]
  rw [printEntry, Out.print_written h0 hbuf hint (by omega), ok_bind, hpad,
    Out.pad_written h0 hbuf _ (by simp only [List.length_append, ← CStr.length_eq]; omega),
    ok_bind, Out.putIf_written h0 hbuf
      (by simp only [List.length_append, List.length_replicate, ← CStr.length_eq]; omega),
    ok_bind, Out.putIf_written h0 hbuf (by
      simp only [List.length_append, List.length_replicate, List.length_singleton,
        ← CStr.length_eq]; omega), ok_bind, if_pos (by omega), hw₄]
  dsimp only
  have hl : (w ++ locationColumn M e).length = w.length + (M + 2) := by
    rw [List.length_append, hcol]
  by_cases hz : e.msg.length = 0
  · rw [if_pos hz] at hroom
    refine ⟨[], false, by simp only [List.length_nil]; omega, ?_⟩
    rw [if_pos ⟨hz, by rw [Out.written_maxlen, hl]; omega⟩,
      Out.put_written h0 hbuf (by rw [hl]; omega), ok_bind, wrapLoop, strlen, cstrAt_slotObj,
      if_pos hmax, splice_nil, narrowLine, if_pos hz, List.append_assoc]
    simp only [Except.map, ok_bind, hz, if_true]
    rfl
  · rw [if_neg hz] at hroom
    rw [if_neg fun h => hz h.1, pure_bind, Out.written_maxlen, hW,
      show (maxlen - ((w ++ locationColumn M e).length : Int)).toNat + 1 =
        (maxlen - ((w ++ locationColumn M e).length : Int)).toNat - 1 + 2 by omega,
      wrapLoop_narrow_written h0 hbuf hint hw0 hw hmax (Nat.pos_of_ne_zero hz) hback hcol _
        (by omega) (by omega), narrowLine, if_neg hz]
    refine ⟨_, true, ?_, rfl⟩
    simp only [List.length_append, List.length_cons, List.length_take, List.length_drop, hcol,
      List.length_singleton, List.length_nil, ← CStr.length_eq]
    omega

end Narrow

/-- The lines of the slots `es`. -/
def narrowLines (s : Ring) (W M : Nat) (es : List Nat) : List Char :=
  es.flatMap fun i => narrowLine W M (s.errorRing i)

section Walk

variable {K : Config} {s : Ring} (hz : ∀ j, s.maxErrorRingLoc < j → s.errorRing j = .zero)
  (hmsg : ∀ j, (s.errorRing j).msg.length ≤ mpirMaxErrorLine)
variable {str maxlen : Int} (h0 : 0 ≤ str) (hint : maxlen < 2 ^ 31) {W M : Nat}
  (hW : K.chopErrorStack = W) (hw0 : 0 < W) (hw : W ≤ M + 2)
include hz hmsg h0 hint hW hw0 hw

/-- Under a chop width inside the location column, the second walk over a chain whose locations
each leave zeros `M + 3 - W` bytes before their message writes the `narrowLines` of the chain, in
an object `V` it wrote over. -/
theorem printEntries_narrow_written {c t : CInt} {es : List Nat} (hc : Chain s c es t)
    (hloc : ∀ i ∈ es, (s.errorRing i).location.length ≤ M ∧
      (s.errorRing i).location.length + (M + 3 - W) ≤ maxLocationLen + 1) :
    ∀ (n : Nat) (buf w : List Char) (b : Bool), es.length < n → str + maxlen ≤ buf.length →
      w.length + (narrowLines s W M es).length + mpirMaxErrorLine < maxlen →
      ∃ V b', (V.length : Int) ≤ maxlen ∧ printEntries K s M n (Out.written buf str maxlen w b) c =
        .ok (Out.written (splice buf str.toNat V) str maxlen (w ++ narrowLines s W M es) b',
          t) := by
  induction hc with
  | stop hc =>
    intro n buf w b hn _ _
    obtain ⟨n, rfl⟩ : ∃ m, n = m + 1 := ⟨n - 1, by simp at hn; omega⟩
    exact ⟨[], b, by simp only [List.length_nil]; omega, by
      simp [printEntries_of_link_none hz hc, narrowLines, splice_nil]⟩
  | @step c i es t hc _ ih =>
    intro n buf w b hn hbuf hroom
    obtain ⟨n, rfl⟩ : ∃ m, n = m + 1 := ⟨n - 1, by simp at hn; omega⟩
    have hl : narrowLines s W M (i :: es) =
        narrowLine W M (s.errorRing i) ++ narrowLines s W M es := by
      simp [narrowLines]
    obtain ⟨hli, hbi⟩ := hloc i (List.mem_cons_self _ _)
    rw [hl, List.length_append] at hroom
    obtain ⟨V₁, b₁, hV₁, h₁⟩ := printEntry_narrow_written (K := K) (w := w) (b := b) h0 hbuf hint
      hw0 hw (hmsg i) hW hli hbi (by omega)
    have hbuf₁ : str + maxlen ≤ (splice buf str.toNat V₁).length := by
      rw [length_splice (by omega)]; exact hbuf
    obtain ⟨V₂, b₂, hV₂, h₂⟩ := ih (fun j hj => hloc j (List.mem_cons_of_mem _ hj)) n
      (splice buf str.toNat V₁) (w ++ narrowLine W M (s.errorRing i)) b₁
      (by simp at hn; omega) hbuf₁ (by rw [List.length_append]; omega)
    refine ⟨V₂ ++ V₁.drop V₂.length, b₂, ?_, ?_⟩
    · simp only [List.length_append, List.length_drop]; omega
    · rw [printEntries_of_link_some hc, h₁, ok_bind, h₂, splice_overwrite (by omega), hl,
        List.append_assoc]

end Walk

/-- What the printer writes for a walk that visits `es` and stops at `t`, under the chop width
`W`. -/
def narrowText (K : Config) (s : Ring) (W : Nat) (es : List Nat) (t : CInt) :
    Except Fault (List Char) :=
  (stackTail K t).map fun tail => narrowLines s W (longest s es) es ++ tail

theorem nul_not_mem_narrowLine (W M : Nat) (e : ErrMsg) : '\x00' ∉ narrowLine W M e := by
  have hcol : '\x00' ∉ locationColumn M e := by
    simp [locationColumn, e.location.nul_not_mem, List.mem_replicate]
  have htake : '\x00' ∉ (locationColumn M e).take (W - 1) := fun h => hcol (List.mem_of_mem_take h)
  unfold narrowLine
  split_ifs
  · simp [hcol]
  · simp [htake, List.mem_replicate]

theorem nul_not_mem_narrowText {K : Config} {s : Ring} {W : Nat} {es : List Nat} {t : CInt}
    {x : List Char} (hx : narrowText K s W es t = .ok x) : '\x00' ∉ x := by
  obtain ⟨tl, htl, rfl⟩ := map_eq_ok.mp hx
  simp only [narrowLines, List.mem_append, List.mem_flatMap, not_or, not_exists, not_and]
  exact ⟨fun i _ => nul_not_mem_narrowLine _ _ _, nul_not_mem_stackTail htl⟩

section Stack

variable {K : Config} {s : Ring} (hz : ∀ j, s.maxErrorRingLoc < j → s.errorRing j = .zero)
  (hmsg : ∀ j, (s.errorRing j).msg.length ≤ mpirMaxErrorLine) {W : Nat}
  (hW : K.chopErrorStack = W) (hw0 : 0 < W) {c t : CInt} {i : Nat} {es : List Nat}
  (hc : Chain s c (i :: es) t) (hw : W ≤ longest s (i :: es) + 2)
  (hloc : ∀ j ∈ i :: es,
    (s.errorRing j).location.length + (longest s (i :: es) + 3 - W) ≤ maxLocationLen + 1)
  {x : List Char} (hx : narrowText K s W (i :: es) t = .ok x)
include hz hmsg hW hw0 hc hw hloc hx

/-- Under a chop width inside the location column and with room for the narrow stack and a
message beyond it, the stack printer writes, right after the text, the narrow stack but its last
byte, and a NUL. -/
theorem mpirErrPrintStackString_narrow {B buf P : List Char} {q L : Nat}
    (hw' : TextIn B q L P buf) (hB : q + L ≤ B.length) (hL : L < 2 ^ 31)
    (hroom : P.length + x.length + mpirMaxErrorLine < L) {str maxlen : Int}
    (hstr : str = ((q + P.length : Nat) : Int)) (hmax : maxlen = (L : Int) - P.length) :
    ∃ out, mpirErrPrintStackString K s c buf str maxlen = .ok out ∧
      TextIn B q L (P ++ x.dropLast) out := by
  subst hstr hmax
  obtain ⟨tl, htl, rfl⟩ := map_eq_ok.mp hx
  have hlen := hw'.length_eq hB
  have hP := hw'.length_lt
  rw [List.length_append] at hroom
  have hbuf : ((q + P.length : Nat) : Int) + ((L : Int) - P.length) ≤ buf.length := by omega
  have hnil : narrowLines s W (longest s (i :: es)) (i :: es) ++ tl ≠ [] := by
    simp only [narrowLines, List.flatMap_cons, ne_eq, List.append_eq_nil, not_and]
    intro h
    exact absurd h (by unfold narrowLine; split_ifs <;> simp)
  have hx0 := List.length_pos.mpr hnil
  obtain ⟨V, nul, hV, hpe⟩ := printEntries_narrow_written hz hmsg (by omega) (by omega) hW hw0 hw
    hc (fun j hj => ⟨location_le_longest hj, hloc j hj⟩) (maxErrorRing + 1) buf [] false
    (Nat.lt_succ_of_le hc.length_le) hbuf
    (by simp only [List.length_nil, Nat.zero_add]; omega)
  have hbufV : ((q + P.length : Nat) : Int) + ((L : Int) - P.length) ≤
      (splice buf (q + P.length) V).length := by
    rw [length_splice (by omega)]; exact hbuf
  have hnt := length_nulTail (nul || decide (t ≠ mpiSuccess))
  rw [mpirErrPrintStackString, longestLocation_of_chain hc, ok_bind, ← Out.written_nil, hpe,
    ok_bind]
  dsimp only
  rw [Int.toNat_ofNat, stackFallback_written (by omega) hbufV (by omega) htl (by simp; omega),
    ok_bind, Out.written_str, if_pos (by simp only [List.nil_append]; omega), List.nil_append]
  refine ⟨_, store_last_nulTail (by omega) hnil _ ?_, ?_⟩
  · rw [length_splice (by omega)]
    simp only [List.length_append] at hroom ⊢
    omega
  · rw [Int.toNat_ofNat, splice_overwrite (by omega), List.append_assoc, List.cons_append]
    exact hw'.write hB (by
      simp only [List.length_dropLast, List.length_append, List.length_drop,
        List.length_cons] at hx0 ⊢; omega)

/-- With the stack on and a chop width inside the location column, `MPIR_Err_get_string` writes
the class message of a code that is neither dynamic nor a bare class, `", error stack:\n"` and
the narrow stack of its walk but its last byte, within the `length` bytes at `msg`. -/
theorem mpirErrGetString_narrow_textIn (hps : K.printErrorStack = true)
    (hdyn : c &&& errorDynMask = 0) (hcls : c &&& errorClassMask ≠ c) {m : CStr}
    (hm : getClassMsg K (errorGetClass c) = .ok m) {buf : List Char} {q L : Nat}
    (hbuf : q + L ≤ buf.length) (hL : L < 2 ^ 31)
    (hroom : m.length + 15 + x.length + mpirMaxErrorLine < L) :
    ∃ out, mpirErrGetString K s c buf q L = .ok out ∧
      TextIn buf q L (m.chars ++ ", error stack:\n".toList ++ x.dropLast) out := by
  have hEt : ", error stack:\n".toList.length = 15 := rfl
  obtain ⟨buf₂, hw₂, heq⟩ := mpirErrGetString_stack_print (s := s) hps hdyn hcls hm hbuf hL
    (by omega)
  obtain ⟨out, hpr, hw₃⟩ := mpirErrPrintStackString_narrow hz hmsg hW hw0 hc hw hloc hx hw₂ hbuf hL
    (by simp only [List.length_append, hEt, ← CStr.length_eq]; omega)
    (show ((q + (m.length + 15) : Nat) : Int) =
      ((q + (m.chars ++ ", error stack:\n".toList).length : Nat) : Int) by
      simp only [List.length_append, hEt, CStr.length_eq])
    (show (L : Int) - ((m.length + 15 : Nat) : Int) =
      (L : Int) - ((m.chars ++ ", error stack:\n".toList).length : Nat) by
      simp only [List.length_append, hEt, CStr.length_eq])
  obtain ⟨out', hst, hw₄⟩ := hw₃.store_last hbuf
  exact ⟨out', by rw [heq, hpr, ok_bind, hst], hw₄⟩

end Stack

/-! ## What the caller reads back -/

section Message

variable {K : Config} {s : Ring}

/-- The sample configuration with the chop width `6`, inside the location column `14` of the
`MPI_Send` chain, whose longest location `MPI_Send(12)` has `12` bytes. -/
def narrowConfig : Config := { Config.sample with chopErrorStack := 6 }

theorem sendCreate_reachable_narrow :
    Reachable narrowConfig sendCreate.2 [sendCreate.1, wrapCode] :=
  .create (K := narrowConfig) wrapCode false (some "MPI_Send") 12 1 "**fail"
    (some "send failed") []
    (.create mpiSuccess false (some "f") 1 1 "**fail" none [] .init (.inl rfl))
    (.inr (List.mem_singleton_self _))

/-- With `MPIR_CVAR_PRINT_ERROR_STACK` on and a chop width `W` inside the location column of the
walk (`0 < W ≤ M + 2`, `M` the longest location on it), in a reachable state whose locations on
the walk each leave zeros `M + 3 - W` bytes before their message: for a code that is neither
dynamic nor a bare class, and with room for the narrow stack and a message beyond it,
`MPIR_Err_get_string` returns, and the C string at `msg` is the class message,
`", error stack:\n"` and the narrow stack: for each slot with a message, the first `W - 1` bytes
of its location column, a newline and `M + 2` spaces.  No message of the stack reaches the
caller. -/
theorem mpirErrGetString_narrow_chop {codes : List CInt} (hr : Reachable K s codes)
    (hps : K.printErrorStack = true) {W : Nat} (hW : K.chopErrorStack = W) (hw0 : 0 < W)
    {c t : CInt} {i : Nat} {es : List Nat} (hc : Chain s c (i :: es) t)
    (hw : W ≤ longest s (i :: es) + 2)
    (hloc : ∀ j ∈ i :: es,
      (s.errorRing j).location.length + (longest s (i :: es) + 3 - W) ≤ maxLocationLen + 1)
    (hdyn : c &&& errorDynMask = 0) (hcls : c &&& errorClassMask ≠ c) {m : CStr}
    (hm : getClassMsg K (errorGetClass c) = .ok m) {x : List Char}
    (hx : narrowText K s W (i :: es) t = .ok x) {buf : List Char} {q L : Nat}
    (hbuf : q + L ≤ buf.length) (hL : L < 2 ^ 31)
    (hroom : m.length + 15 + x.length + mpirMaxErrorLine < L) :
    ∃ out, mpirErrGetString K s c buf q L = .ok out ∧
      cstrAt out q = .ok (m ++ ", error stack:\n" ++ CStr.ofChars x.dropLast) := by
  obtain ⟨out, hget, hw⟩ := mpirErrGetString_narrow_textIn hr.above_max hr.msg_length_le hW hw0
    hc hw hloc hx hps hdyn hcls hm hbuf hL hroom
  exact ⟨out, hget, hw.cstrAt_eq (P := []) hbuf
    (chars_stackMessage (nul_not_mem_narrowText hx)) (by simp)⟩

set_option maxRecDepth 8000 in
/-- The `MPI_Send` chain under the chop width `6`: the width is inside its location column, both
locations leave zeros three bytes before their message, and each line keeps five bytes of its
column. -/
theorem sendCreate_narrowText :
    6 ≤ longest sendCreate.2 [1, 0] + 2 ∧
      (∀ j ∈ [1, 0], (sendCreate.2.errorRing j).location.length +
        (longest sendCreate.2 [1, 0] + 3 - 6) ≤ maxLocationLen + 1) ∧
      narrowText narrowConfig sendCreate.2 6 [1, 0] mpiSuccess = .ok ("MPI_S\n".toList ++
        List.replicate 14 ' ' ++ "f(1).\n".toList ++ List.replicate 14 ' ') :=
  ⟨by decide, by decide, rfl⟩

set_option maxRecDepth 8000 in
/-- The `MPI_Send` chain, with locations `MPI_Send(12)` and `f(1)`, under the chop width `6`,
written into 400 bytes: each line keeps five bytes of its column, `MPI_S` and `f(1).`, then a
newline and `14` spaces, and neither message reaches the caller. -/
theorem mpirErrGetString_narrow_chop_pop :
    Reachable narrowConfig sendCreate.2 [sendCreate.1, wrapCode] ∧
      narrowConfig.printErrorStack = true ∧ narrowConfig.chopErrorStack = ((6 : Nat) : Int) ∧
      Chain sendCreate.2 sendCreate.1 [1, 0] mpiSuccess ∧ 6 ≤ longest sendCreate.2 [1, 0] + 2 ∧
      (∀ j ∈ [1, 0], (sendCreate.2.errorRing j).location.length +
        (longest sendCreate.2 [1, 0] + 3 - 6) ≤ maxLocationLen + 1) ∧
      sendCreate.1 &&& errorDynMask = 0 ∧ sendCreate.1 &&& errorClassMask ≠ sendCreate.1 ∧
      getClassMsg narrowConfig (errorGetClass sendCreate.1) = .ok "Other MPI error" ∧
      narrowText narrowConfig sendCreate.2 6 [1, 0] mpiSuccess = .ok ("MPI_S\n".toList ++
        List.replicate 14 ' ' ++ "f(1).\n".toList ++ List.replicate 14 ' ') ∧
      ∃ out, mpirErrGetString narrowConfig sendCreate.2 sendCreate.1 (List.replicate 400 'x') 0
          400 = .ok out ∧
        cstrAt out 0 = .ok ("Other MPI error, error stack:\nMPI_S\n              f(1).\n" ++
          "             ") := by
  have hr := sendCreate_reachable_narrow
  have hc := sendCreate_chain
  obtain ⟨hw, hloc, hx⟩ := sendCreate_narrowText
  obtain ⟨hdyn, hcls⟩ := sendCreate_code_fields
  have hm : getClassMsg narrowConfig (errorGetClass sendCreate.1) = .ok "Other MPI error" := rfl
  obtain ⟨out, hget, hmsg⟩ := mpirErrGetString_narrow_chop hr rfl rfl (by decide) hc hw hloc hdyn
    hcls hm hx (show 0 + 400 ≤ (List.replicate 400 'x').length by simp) (by decide) (by decide)
  exact ⟨hr, rfl, rfl, hc, hw, hloc, hdyn, hcls, hm, hx, out, hget, hmsg.trans rfl⟩

/-- With the stack on and a chop width inside the location column, in a reachable state whose
locations on the walk each leave zeros `M + 3 - W` bytes before their message, a fatal error on
a code that is neither dynamic nor a bare class aborts with `"Fatal error in <fcname>: "`, the
class message, `", error stack:\n"` and the narrow stack, when it and a message beyond it fit:
no message of the stack reaches `MPID_Abort`. -/
theorem mpirHandleFatalError_narrow_chop {codes : List CInt} (hr : Reachable K s codes)
    (hps : K.printErrorStack = true) {W : Nat} (hW : K.chopErrorStack = W) (hw0 : 0 < W)
    {c t : CInt} {i : Nat} {es : List Nat} (hc : Chain s c (i :: es) t)
    (hw : W ≤ longest s (i :: es) + 2)
    (hloc : ∀ j ∈ i :: es,
      (s.errorRing j).location.length + (longest s (i :: es) + 3 - W) ≤ maxLocationLen + 1)
    (hdyn : c &&& errorDynMask = 0) (hcls : c &&& errorClassMask ≠ c) {m : CStr}
    (hm : getClassMsg K (errorGetClass c) = .ok m) {x : List Char}
    (hx : narrowText K s W (i :: es) t = .ok x) {M : Nat} (hM : M < 2 ^ 31)
    {errorMsg : List Char} (hbuf : errorMsg.length = maxErrmsgString M) (commPtr : Option Comm)
    (fcname : CStr)
    (hroom : fcname.length + 17 + m.length + 15 + x.length + mpirMaxErrorLine <
      maxErrmsgString M) :
    mpirHandleFatalError K s M errorMsg commPtr fcname c = .ok ⟨commPtr, mpiSuccess, c,
      "Fatal error in " ++ fcname ++ ": " ++ m ++ ", error stack:\n" ++
        CStr.ofChars x.dropLast⟩ := by
  obtain ⟨-, hhi⟩ := maxErrmsgString_bounds hM
  have hPl := length_fatalPrefix fcname
  obtain ⟨buf₁, hw₀, heq⟩ := mpirHandleFatalError_eq (K := K) (s := s) hM hbuf commPtr fcname
    (by omega) c
  obtain ⟨out, hget, hwT⟩ := mpirErrGetString_narrow_textIn hr.above_max hr.msg_length_le hW hw0
    hc hw hloc hx hps hdyn hcls hm (show fcname.length + 17 +
      (maxErrmsgString M - (fcname.length + 17)) ≤ buf₁.length by
        rw [hw₀.length_eq (by omega)]; omega) (by omega) (by omega)
  rw [Nat.cast_sub (by omega)] at hget
  have hw := hw₀.append (by omega) (by rw [Nat.zero_add, ← CStr.length_eq, hPl])
    (by rw [← CStr.length_eq, hPl]) hwT
  have ht : ("Fatal error in " ++ fcname ++ ": " ++ m ++ ", error stack:\n" ++
      CStr.ofChars x.dropLast).chars = ("Fatal error in " ++ fcname ++ ": " : CStr).chars ++
        (m.chars ++ ", error stack:\n".toList ++ x.dropLast) := by
    rw [← chars_stackMessage (nul_not_mem_narrowText hx)]
    simp only [CStr.append_chars, List.append_assoc]
  rw [heq, hget, ok_bind, hw.cstrAt_eq (P := []) (by omega) ht (by simp), ok_bind]
  rfl

set_option maxRecDepth 8000 in
/-- A fatal error on the `MPI_Send` chain under the chop width `6`, in `MPI_Send`, for an
`MPI_MAX_ERROR_STRING` of 1024 and an array of any 4096 bytes: the abort message holds the two
narrow lines and neither message. -/
theorem mpirHandleFatalError_narrow_chop_pop :
    Reachable narrowConfig sendCreate.2 [sendCreate.1, wrapCode] ∧
      narrowConfig.printErrorStack = true ∧ narrowConfig.chopErrorStack = ((6 : Nat) : Int) ∧
      Chain sendCreate.2 sendCreate.1 [1, 0] mpiSuccess ∧ 6 ≤ longest sendCreate.2 [1, 0] + 2 ∧
      (∀ j ∈ [1, 0], (sendCreate.2.errorRing j).location.length +
        (longest sendCreate.2 [1, 0] + 3 - 6) ≤ maxLocationLen + 1) ∧
      sendCreate.1 &&& errorDynMask = 0 ∧ sendCreate.1 &&& errorClassMask ≠ sendCreate.1 ∧
      getClassMsg narrowConfig (errorGetClass sendCreate.1) = .ok "Other MPI error" ∧
      narrowText narrowConfig sendCreate.2 6 [1, 0] mpiSuccess = .ok ("MPI_S\n".toList ++
        List.replicate 14 ' ' ++ "f(1).\n".toList ++ List.replicate 14 ' ') ∧
      1024 < 2 ^ 31 ∧ (List.replicate 4096 'x').length = maxErrmsgString 1024 ∧
      mpirHandleFatalError narrowConfig sendCreate.2 1024 (List.replicate 4096 'x') none
        "MPI_Send" sendCreate.1 = .ok ⟨none, mpiSuccess, sendCreate.1,
          "Fatal error in MPI_Send: Other MPI error, error stack:\nMPI_S\n              f(1).\n" ++
            "             "⟩ := by
  have hr := sendCreate_reachable_narrow
  have hc := sendCreate_chain
  obtain ⟨hw, hloc, hx⟩ := sendCreate_narrowText
  obtain ⟨hdyn, hcls⟩ := sendCreate_code_fields
  have hm : getClassMsg narrowConfig (errorGetClass sendCreate.1) = .ok "Other MPI error" := rfl
  have hbuf : (List.replicate 4096 'x').length = maxErrmsgString 1024 := List.length_replicate _ _
  exact ⟨hr, rfl, rfl, hc, hw, hloc, hdyn, hcls, hm, hx, by decide, hbuf,
    (mpirHandleFatalError_narrow_chop hr rfl rfl (by decide) hc hw hloc hdyn hcls hm hx
      (by decide) hbuf none "MPI_Send" (by decide)).trans rfl⟩

end Message

end MpichErrhan
