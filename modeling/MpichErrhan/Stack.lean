import MpichErrhan.Runs

/-!
# `MPIR_Err_print_stack_string`: printing a chain

The stack printer walks the chain of a code twice.  The first walk finds the longest location
text `M`; the second prints one line per slot: the location, dots up to `M`, `": "`, and the
message, either whole (`MPIR_CVAR_CHOP_ERROR_STACK = 0`) or wrapped into lines of the chop
width, each continuation indented by `M + 2` spaces.  When the walk stops at a link other than
`MPI_SUCCESS`, one more line names that link through the generic table or its class.  Last, the
final byte written, the newline of the last line, is overwritten by a NUL.

Every write is a C library call or a `*str++ = c` on the object `str` points into, with `maxlen`
a C `int` that each write lowers (`Out`).  The model keeps the source's order of writes, the
`size_t` conversion of `maxlen` at each `snprintf`, and the reads of `strlen`, so a write or a
read outside the object is a `Fault.outOfBounds`.

The two walks do not use the same test: the second has no range check on the ring index.  In a
reachable state the slots above the high-water mark are zero (`Reachable.above_max`), so the two
agree; this is where reachability enters `mpirErrPrintStackString_lines`, the exact output for
a chop width of `0` and enough room.
-/

namespace MpichErrhan

/-! ## Writing into an object -/

/-- Where a routine writes: the object, the offset of `str` in it, and `maxlen`, a C `int`. -/
structure Out where
  buf : List Char
  str : Int
  maxlen : Int

/-- `snprintf(str, maxlen, …)` producing `t`, then `len = strlen(str); maxlen -= len;
str += len`. -/
def Out.print (o : Out) (t : CStr) : Except Fault Out := do
  let buf ← snprintf o.buf o.str (sizeT o.maxlen) t
  let len ← strlen buf o.str
  pure ⟨buf, o.str + len, o.maxlen - len⟩

/-- `*str++ = c; maxlen--`. -/
def Out.put (o : Out) (c : Char) : Except Fault Out := do
  let buf ← store o.buf o.str c
  pure ⟨buf, o.str + 1, o.maxlen - 1⟩

/-- `if (maxlen > 0) { *str++ = c; maxlen--; }`. -/
def Out.putIf (o : Out) (c : Char) : Except Fault Out :=
  if 0 < o.maxlen then o.put c else .ok o

/-- `while (nchrs > 0 && maxlen > 0) { *str++ = '.'; nchrs--; maxlen--; }`. -/
def Out.pad : Nat → Out → Except Fault Out
  | 0, o => .ok o
  | n + 1, o => if 0 < o.maxlen then (o.put '.').bind (Out.pad n) else .ok o

/-- `for (i = 0; i < n; i++) { snprintf(str, maxlen, " "); maxlen--; str++; }`. -/
def Out.spaces : Nat → Out → Except Fault Out
  | 0, o => .ok o
  | n + 1, o => do
    let buf ← snprintf o.buf o.str (sizeT o.maxlen) " "
    Out.spaces n ⟨buf, o.str + 1, o.maxlen - 1⟩

/-! ## Writes that fit

`Out.written buf str maxlen w nul` is where a routine stands once the text `w` has gone out from
`str` on; `nul` says whether the `snprintf` that wrote last left its NUL past `w`.  While the
text stays below `maxlen`, each write lands right after `w` and covers that NUL. -/

/-- The NUL a last `snprintf` leaves past the text, if any. -/
def nulTail (nul : Bool) : List Char := if nul then ['\x00'] else []

@[simp] theorem length_nulTail (nul : Bool) : (nulTail nul).length ≤ 1 := by
  cases nul <;> simp [nulTail]

/-- The output state once the text `w` went out. -/
def Out.written (buf : List Char) (str maxlen : Int) (w : List Char) (nul : Bool) : Out :=
  ⟨splice buf str.toNat (w ++ nulTail nul), str + w.length, maxlen - w.length⟩

@[simp] theorem Out.written_str (buf : List Char) (str maxlen : Int) (w : List Char) (nul : Bool) :
    (Out.written buf str maxlen w nul).str = str + w.length := rfl

@[simp] theorem Out.written_maxlen (buf : List Char) (str maxlen : Int) (w : List Char)
    (nul : Bool) : (Out.written buf str maxlen w nul).maxlen = maxlen - w.length := rfl

/-- The state after `w ++ l`, as an advance of `l.length` past `w`. -/
theorem Out.written_append (buf : List Char) (str maxlen : Int) (w l : List Char) (nul : Bool) :
    Out.written buf str maxlen (w ++ l) nul =
      ⟨splice buf str.toNat (w ++ (l ++ nulTail nul)), str + w.length + l.length,
        maxlen - w.length - l.length⟩ := by
  simp only [Out.written, List.append_assoc, List.length_append, Nat.cast_add, Int.add_assoc,
    Int.sub_sub]

theorem Out.written_nil (buf : List Char) (str maxlen : Int) :
    Out.written buf str maxlen [] false = ⟨buf, str, maxlen⟩ := by
  simp [Out.written, nulTail, splice]

section Written

variable {buf : List Char} {str maxlen : Int} {w : List Char} {nul : Bool}
variable (h0 : 0 ≤ str) (hbuf : str + maxlen ≤ buf.length)
include h0 hbuf

/-- Bytes stored right after the text cover the NUL left there. -/
theorem storeAll_written {l : List Char} (hl : (nulTail nul).length ≤ l.length)
    (hroom : w.length + l.length ≤ maxlen) :
    storeAll (Out.written buf str maxlen w nul).buf (str + w.length) l =
      .ok (splice buf str.toNat (w ++ l)) := by
  have hp : str.toNat ≤ buf.length := by omega
  have hlen : (splice buf str.toNat (w ++ nulTail nul)).length = buf.length :=
    length_splice (by simp only [List.length_append]; have := length_nulTail nul; omega)
  rw [Out.written, storeAll_of_le (by omega) (by rw [hlen]; omega),
    show (str + w.length).toNat = str.toNat + w.length by omega,
    splice_append_overwrite hp hl]

/-- `*str++ = c` inside the object. -/
theorem Out.put_written {c : Char} (hroom : w.length < maxlen) :
    (Out.written buf str maxlen w nul).put c =
      .ok (Out.written buf str maxlen (w ++ [c]) false) := by
  have hs : storeAll (Out.written buf str maxlen w nul).buf (str + w.length) [c] =
      .ok (splice buf str.toNat (w ++ [c])) :=
    storeAll_written h0 hbuf (length_nulTail nul) (by rw [List.length_singleton]; omega)
  rw [Out.put, store, Out.written_str, hs, ok_bind, Out.written_append]
  rfl

theorem Out.putIf_written {c : Char} (hroom : w.length < maxlen) :
    (Out.written buf str maxlen w nul).putIf c =
      .ok (Out.written buf str maxlen (w ++ [c]) false) := by
  rw [Out.putIf, if_pos (by rw [Out.written_maxlen]; omega), Out.put_written h0 hbuf hroom]

/-- The dots run to its count when the room allows. -/
theorem Out.pad_written (n : Nat) (hroom : w.length + n ≤ maxlen) :
    (Out.written buf str maxlen w nul).pad n =
      .ok (Out.written buf str maxlen (w ++ List.replicate n '.') (nul && n = 0)) := by
  induction n generalizing w nul with
  | zero => simp [Out.pad]
  | succ n ih =>
    rw [Out.pad, if_pos (by rw [Out.written_maxlen]; omega), Out.put_written h0 hbuf (by omega)]
    simp only [Except.bind,
      ih (w := w ++ ['.']) (by rw [List.length_append, List.length_singleton]; omega)]
    simp [List.replicate_succ]

variable (hint : maxlen < 2 ^ 31)
include hint

/-- `snprintf` of a text that fits, then `strlen` and the advance. -/
theorem Out.print_written {t : CStr} (hroom : w.length + t.length < maxlen) :
    (Out.written buf str maxlen w nul).print t =
      .ok (Out.written buf str maxlen (w ++ t.chars) true) := by
  have hr : w.length + t.chars.length < maxlen := hroom
  have hsn : snprintf (Out.written buf str maxlen w nul).buf (str + w.length)
      (sizeT (maxlen - w.length)) t = .ok (splice buf str.toNat (w ++ (t.chars ++ ['\x00']))) := by
    rw [snprintf, sizeT_of_nonneg (by omega) (by omega), if_neg (by omega),
      List.take_of_length_le (by omega)]
    exact storeAll_written h0 hbuf
      (by rw [List.length_append, List.length_singleton]; have := length_nulTail nul; omega)
      (by rw [List.length_append, List.length_singleton]; omega)
  have hlen : strlen (splice buf str.toNat (w ++ (t.chars ++ ['\x00']))) (str + w.length) =
      .ok t.length := by
    rw [← splice_splice (by omega), show str + w.length = ((str.toNat + w.length : Nat) : Int) by
      omega, strlen, cstrAt_splice (by rw [length_splice (by omega)]; omega)]
    rfl
  rw [Out.print, Out.written_str, Out.written_maxlen, hsn, ok_bind, hlen, ok_bind,
    Out.written_append]
  rfl

/-- `Out.print_written` for a text given by its bytes. -/
theorem Out.print_written_of_chars {t : CStr} {y : List Char} (hroom : w.length + y.length < maxlen)
    (ht : t.chars = y) :
    (Out.written buf str maxlen w nul).print t =
      .ok (Out.written buf str maxlen (w ++ y) true) := by
  subst ht; exact Out.print_written h0 hbuf hint hroom

/-- `mll` single-space `snprintf`s, each leaving its NUL, while two bytes remain. -/
theorem Out.spaces_written (n : Nat) (hroom : w.length + n < maxlen) :
    (Out.written buf str maxlen w nul).spaces n =
      .ok (Out.written buf str maxlen (w ++ List.replicate n ' ') (nul || 0 < n)) := by
  induction n generalizing w nul with
  | zero => simp [Out.spaces]
  | succ n ih =>
    have hsn : snprintf (Out.written buf str maxlen w nul).buf (str + w.length)
        (sizeT (maxlen - w.length)) " " = .ok (splice buf str.toNat (w ++ [' ', '\x00'])) := by
      rw [snprintf, sizeT_of_nonneg (by omega) (by omega), if_neg (by omega),
        show (CStr.ofChars " ".toList).chars = [' '] from rfl, List.take_of_length_le (by
          rw [List.length_singleton]; omega)]
      exact storeAll_written h0 hbuf ((length_nulTail nul).trans (by decide))
        (by simp only [List.length_append, List.length_singleton]; omega)
    have ho : (⟨splice buf str.toNat (w ++ [' ', '\x00']), str + w.length + 1,
        maxlen - w.length - 1⟩ : Out) = Out.written buf str maxlen (w ++ [' ']) true := by
      rw [Out.written_append]; rfl
    rw [Out.spaces, Out.written_str, Out.written_maxlen, hsn, ok_bind, ho,
      ih (by rw [List.length_append, List.length_singleton]; omega)]
    simp [List.replicate_succ]

end Written

/-! ## One slot -/

/-- A `char` array of `n` bytes that holds the C string `t`: its bytes, then the zeros `memset`
left.  A text of `n` bytes or more fills the array and leaves no NUL in it. -/
def charArray (n : Nat) (t : CStr) : List Char :=
  (t.chars ++ List.replicate n '\x00').take n

/-- `location[MAX_LOCATION_LEN + 1]` and `msg[MPIR_MAX_ERROR_LINE + 1]` of a ring slot, side by
side as `MPIR_Err_msg_t` lays them out: the message starts `MAX_LOCATION_LEN + 1` bytes into the
object, so a read that runs back off its start reads the bytes of `location`. -/
def slotObj (e : ErrMsg) : List Char :=
  charArray (maxLocationLen + 1) e.location ++ charArray (mpirMaxErrorLine + 1) e.msg

theorem length_charArray (n : Nat) (t : CStr) : (charArray n t).length = n := by
  simp only [charArray, List.length_take, List.length_append, List.length_replicate]
  omega

/-- A text shorter than its array is followed by NULs to the end of the array. -/
theorem charArray_of_lt {n : Nat} {t : CStr} (h : t.length < n) :
    charArray n t = t.chars ++ '\x00' :: List.replicate (n - t.length - 1) '\x00' := by
  rw [charArray, List.take_append_eq_append_take,
    List.take_of_length_le (by rw [← CStr.length_eq]; omega),
    List.take_replicate, ← List.replicate_succ]
  congr 2
  simp only [CStr.length_eq] at h ⊢
  omega

/-- The C string at `p` of an object in which the bytes of `t` and a NUL stand from `p` on. -/
theorem cstrAt_append_nul (x r : List Char) (t : CStr) :
    cstrAt (x ++ t.chars ++ '\x00' :: r) x.length = .ok t := by
  rw [cstrAt, Int.toNat_ofNat, List.append_assoc, List.drop_left, if_pos ⟨Int.natCast_nonneg _,
    List.mem_append_right _ (List.mem_cons_self _ _)⟩, CStr.ofChars_append_nul]

/-- From `q` bytes into a message that fits, the slot holds the rest of the message and a NUL. -/
theorem cstrAt_slotObj_msg {e : ErrMsg} (hm : e.msg.length ≤ mpirMaxErrorLine) {q : Nat}
    (hq : q ≤ e.msg.length) : ∃ t : CStr,
      cstrAt (slotObj e) ((maxLocationLen + 1 + q : Nat) : Int) = .ok t ∧
        t.chars = e.msg.chars.drop q := by
  let t : CStr := ⟨e.msg.chars.drop q, fun h => e.msg.nul_not_mem (List.mem_of_mem_drop h)⟩
  have hx : slotObj e = (charArray (maxLocationLen + 1) e.location ++ e.msg.chars.take q) ++
      t.chars ++ '\x00' :: List.replicate (mpirMaxErrorLine + 1 - e.msg.length - 1) '\x00' := by
    rw [slotObj, charArray_of_lt (n := mpirMaxErrorLine + 1) (t := e.msg) (by omega)]
    simp only [t, List.append_assoc, List.take_append_drop]
  have hl : (charArray (maxLocationLen + 1) e.location ++ e.msg.chars.take q).length =
      maxLocationLen + 1 + q := by
    rw [List.length_append, length_charArray, List.length_take,
      Nat.min_eq_left (show q ≤ e.msg.chars.length from hq)]
  have h := cstrAt_append_nul (charArray (maxLocationLen + 1) e.location ++ e.msg.chars.take q)
    (List.replicate (mpirMaxErrorLine + 1 - e.msg.length - 1) '\x00') t
  rw [hl] at h
  exact ⟨t, by rw [hx]; exact h, rfl⟩

/-- The message of a slot: the whole text when it fits; a longer one leaves no NUL before the end
of the object. -/
theorem cstrAt_slotObj (e : ErrMsg) :
    cstrAt (slotObj e) ((maxLocationLen + 1 : Nat) : Int) =
      if e.msg.length ≤ mpirMaxErrorLine then .ok e.msg else .error .outOfBounds := by
  split_ifs with h
  · obtain ⟨t, ht, hc⟩ := cstrAt_slotObj_msg h (Nat.zero_le _)
    rw [Nat.add_zero, List.drop_zero] at *
    rw [ht, CStr.ext' hc]
  · have hd : (slotObj e).drop (maxLocationLen + 1) = e.msg.chars.take (mpirMaxErrorLine + 1) := by
      rw [slotObj, List.drop_left' (length_charArray _ _), charArray,
        List.take_append_of_le_length (by rw [← CStr.length_eq]; omega)]
    rw [cstrAt, Int.toNat_ofNat, hd, if_neg fun hc =>
      e.msg.nul_not_mem (List.mem_of_mem_take hc.2)]

/-- Back from the message, among the zeros after the location, the slot holds the empty string. -/
theorem cstrAt_slotObj_location {e : ErrMsg} {p : Nat} (hp : e.location.length ≤ p)
    (h64 : p < maxLocationLen + 1) : cstrAt (slotObj e) (p : Int) = .ok ∅ := by
  have hx : slotObj e = (e.location.chars ++ List.replicate (p - e.location.length) '\x00') ++
      (∅ : CStr).chars ++ '\x00' :: (List.replicate (maxLocationLen - p) '\x00' ++
        charArray (mpirMaxErrorLine + 1) e.msg) := by
    have hz : '\x00' :: List.replicate (maxLocationLen + 1 - e.location.length - 1) '\x00' =
        List.replicate (p - e.location.length) '\x00' ++
          '\x00' :: List.replicate (maxLocationLen - p) '\x00' := by
      rw [← List.replicate_succ, ← List.replicate_succ, ← List.replicate_add]
      congr 1
      omega
    rw [slotObj, charArray_of_lt (n := maxLocationLen + 1) (t := e.location) (by omega), hz]
    simp only [CStr.empty_chars, List.append_nil, List.append_assoc, List.cons_append]
  have hl : (e.location.chars ++ List.replicate (p - e.location.length) '\x00').length = p := by
    rw [List.length_append, List.length_replicate, ← CStr.length_eq]
    omega
  have h := cstrAt_append_nul (e.location.chars ++ List.replicate (p - e.location.length) '\x00')
    (List.replicate (maxLocationLen - p) '\x00' ++ charArray (mpirMaxErrorLine + 1) e.msg) ∅
  rw [hl] at h
  rw [hx]
  exact h

/-- The wrapping loop over the text of `m` from `cur_pos = q`, for the chop width `width` and
the padded location width `mll`.  A pass that goes on lowers `maxlen` by `width`, so
`maxlen + 1` passes are enough when `width` is positive. -/
def wrapLoop (width mll : Int) (m : List Char) : Nat → Out → Int → Except Fault Out
  | 0, _, _ => .error .diverges
  | fuel + 1, o, q => do
    let len ← strlen m q
    if len = 0 then pure o
    else if width - mll ≤ len then
      if o.maxlen < len then pure o
      else do
        let t ← cstrAt m q
        let buf ← snprintf o.buf o.str (sizeT (width - 1 - mll)) t
        let buf ← store buf (o.str + (width - 1 - mll)) '\n'
        let o : Out := ⟨buf, o.str + (width - mll), o.maxlen - (width - mll)⟩
        if o.maxlen < mll then pure o
        else do
          let o ← o.spaces mll.toNat
          wrapLoop width mll m fuel o (q + (width - 1 - mll))
    else do
      let t ← cstrAt m q
      o.print (t ++ "\n")

variable (K : Config)

/-- The lines of one slot, for the longest location `M` of the chain. -/
def printEntry (M : Nat) (o : Out) (e : ErrMsg) : Except Fault Out := do
  let o ← o.print e.location
  let o ← o.pad ((M : Int) + 2 - e.location.length - 2).toNat
  let o ← o.putIf ':'
  let o ← o.putIf ' '
  if 0 < K.chopErrorStack then do
    let o ← if e.msg.length = 0 ∧ 0 < o.maxlen then o.put '\n' else pure o
    wrapLoop K.chopErrorStack ((M : Int) + 2) (slotObj e) (o.maxlen.toNat + 1) o
      ((maxLocationLen + 1 : Nat) : Int)
  else o.print (e.msg ++ "\n")

/-- One line of the stack as it is documented: the location, dots up to the longest location
`M`, `": "`, the message and a newline. -/
def stackLine (M : Nat) (e : ErrMsg) : List Char :=
  e.location.chars ++ List.replicate (M - e.location.length) '.' ++ [':', ' '] ++ e.msg.chars ++
    ['\n']

theorem stackLine_ne_nil (M : Nat) (e : ErrMsg) : stackLine M e ≠ [] := by simp [stackLine]

section Written

variable {K} {buf : List Char} {str maxlen : Int} {w : List Char} {nul : Bool}
variable (h0 : 0 ≤ str) (hbuf : str + maxlen ≤ buf.length) (hint : maxlen < 2 ^ 31)
include h0 hbuf hint

/-- Without a chop width a slot prints its documented line. -/
theorem printEntry_written (hchop : K.chopErrorStack ≤ 0) {M : Nat} {e : ErrMsg}
    (hroom : w.length + (stackLine M e).length < maxlen) :
    printEntry K M (Out.written buf str maxlen w nul) e =
      .ok (Out.written buf str maxlen (w ++ stackLine M e) true) := by
  simp only [stackLine, List.length_append, List.length_replicate, List.length_cons,
    List.length_nil, CStr.length_eq] at hroom
  have hpad : ((M : Int) + 2 - e.location.length - 2).toNat = M - e.location.length := by omega
  have hnl : (CStr.ofChars "\n".toList).chars = ['\n'] := rfl
  rw [printEntry, Out.print_written h0 hbuf hint (by rw [CStr.length_eq]; omega), ok_bind, hpad,
    Out.pad_written h0 hbuf _ (by simp only [List.length_append, CStr.length_eq]; omega), ok_bind,
    Out.putIf_written h0 hbuf
      (by simp only [List.length_append, List.length_replicate, CStr.length_eq]; omega),
    ok_bind, Out.putIf_written h0 hbuf (by
      simp only [List.length_append, List.length_replicate, List.length_singleton,
        CStr.length_eq]; omega), ok_bind, if_neg (by omega),
    Out.print_written h0 hbuf hint (by
      simp only [List.length_append, List.length_replicate, List.length_singleton,
        CStr.length_eq, CStr.append_chars, hnl]; omega)]
  simp only [stackLine, CStr.append_chars, hnl, List.append_assoc, List.singleton_append,
    List.cons_append, List.nil_append]

/-- One pass of the wrapping loop over a text `t` at least a line long, with room for the line
and its indentation: `snprintf` with size `width - 1 - mll` writes `width - 2 - mll` bytes of
`t` and its NUL, the newline goes one byte further, and `cur_pos` moves by `width - 1 - mll`.
So every pass leaves a NUL inside the output and skips the byte of `t` under the newline. -/
theorem wrapLoop_pass {width mll q : Int} {m : List Char} {t : CStr} (fuel : Nat)
    (hmll : 0 < mll) (hw : mll + 1 < width) (ht : cstrAt m q = .ok t)
    (hlong : width - mll ≤ t.length) (hfit : w.length + t.length ≤ maxlen)
    (hroom : w.length + width < maxlen) :
    wrapLoop width mll m (fuel + 1) (Out.written buf str maxlen w nul) q =
      wrapLoop width mll m fuel (Out.written buf str maxlen
        (w ++ t.chars.take (width - 2 - mll).toNat ++ ['\x00', '\n'] ++
          List.replicate mll.toNat ' ') true) (q + (width - 1 - mll)) := by
  set tk := t.chars.take (width - 2 - mll).toNat with htk
  have hl : t.chars.length = t.length := rfl
  have htake : tk.length = (width - 2 - mll).toNat := by rw [htk, List.length_take]; omega
  have hsn : snprintf (Out.written buf str maxlen w nul).buf (str + w.length)
      (sizeT (width - 1 - mll)) t = .ok (splice buf str.toNat (w ++ tk ++ ['\x00'])) := by
    rw [snprintf, sizeT_of_nonneg (by omega) (by omega), if_neg (by omega),
      show (width - 1 - mll).toNat - 1 = (width - 2 - mll).toNat by omega, List.append_assoc]
    exact storeAll_written h0 hbuf
      (by simp only [List.length_append, List.length_singleton]; have := length_nulTail nul; omega)
      (by simp only [List.length_append, htake, List.length_singleton]; omega)
  have hnl : storeAll (Out.written buf str maxlen (w ++ tk ++ ['\x00']) false).buf
      (str + (w ++ tk ++ ['\x00']).length) ['\n'] =
        .ok (splice buf str.toNat (w ++ tk ++ ['\x00'] ++ ['\n'])) :=
    storeAll_written h0 hbuf (Nat.zero_le _)
      (by simp only [List.length_append, htake, List.length_singleton]; omega)
  simp only [Out.written, nulTail, Bool.false_eq_true, if_false, List.append_nil,
    List.length_append, htake, List.length_singleton] at hnl
  have ho : (⟨splice buf str.toNat (w ++ tk ++ ['\x00'] ++ ['\n']), str + w.length + (width - mll),
      maxlen - w.length - (width - mll)⟩ : Out) =
        Out.written buf str maxlen (w ++ tk ++ ['\x00', '\n']) false := by
    simp only [Out.written, nulTail, Bool.false_eq_true, if_false, List.append_nil,
      List.append_assoc, List.singleton_append, List.length_append, htake, List.length_cons,
      List.length_singleton, List.length_nil, Out.mk.injEq, true_and]
    omega
  rw [wrapLoop, strlen, ht]
  simp only [Except.map, ok_bind, CStr.length_eq, Out.written_str, Out.written_maxlen]
  rw [if_neg (by omega), if_pos (by omega), if_neg (by omega), hsn, ok_bind, store,
    show str + w.length + (width - 1 - mll) =
      str + ((w.length + (width - 2 - mll).toNat + 1 : Nat) : Int)
      by omega, hnl, ok_bind, ho, if_neg (by omega),
    Out.spaces_written h0 hbuf hint _
      (by simp only [List.length_append, htake, List.length_cons, List.length_nil]; omega),
    ok_bind]
  simp only [Bool.false_or, decide_eq_true (by omega : 0 < mll.toNat), List.append_assoc,
    List.cons_append, List.singleton_append]

end Written

/-! ## The two walks and the last line -/

/-- The longest location on the slots `es`. -/
def longest (s : Ring) (es : List Nat) : Nat :=
  (es.map fun i => (s.errorRing i).location.length).foldl max 0

/-- The first loop: the longest location text on the chain of `errcode`. -/
def longestLocation (s : Ring) (errcode : CInt) : Except Fault Nat :=
  (s.walk (maxErrorRing + 1) errcode).map fun r => longest s r.1

/-- The second loop, with `MAX_ERROR_RING + 1` passes of fuel: it prints each slot its test
admits and returns the link it stopped at.  Its test has no range check on the ring index. -/
def printEntries (s : Ring) (M : Nat) : Nat → Out → CInt → Except Fault (Out × CInt)
  | 0, _, _ => .error .diverges
  | fuel + 1, o, errcode =>
    if errcode = mpiSuccess then .ok (o, errcode)
    else if genericOf errcode = 0 then .ok (o, errcode)
    else if (s.errorRing (ringIdxOf errcode)).id = errcode &&& ringIdMask then do
      let o ← printEntry K M o (s.errorRing (ringIdxOf errcode))
      printEntries s M fuel o (s.errorRing (ringIdxOf errcode)).prevError
    else .ok (o, errcode)

/-- The line for a link the walk stopped at: its generic message, else its class message, else
the invalid-class line. -/
def stackFallback (o : Out) (errcode : CInt) : Except Fault Out :=
  if errcode = mpiSuccess then .ok o
  else if 1 ≤ genericOf errcode then do
    let p ← genericLongName K (genericOf errcode - 1)
    o.print ("(unknown)(): " ++ p ++ "\n")
  else if (errorGetClass errcode).toInt ≤ K.mpichErrLastMpix then do
    let m ← getClassMsg K (errorGetClass errcode)
    o.print ("(unknown)(): " ++ m ++ "\n")
  else
    o.print ("Error code contains an invalid class (" ++ decimal (errorGetClass errcode).toInt ++
      ")\n")

/-- `MPIR_Err_print_stack_string(errcode, str, maxlen)`, writing into `buf` from offset `str`. -/
def mpirErrPrintStackString (s : Ring) (errcode : CInt) (buf : List Char) (str maxlen : Int) :
    Except Fault (List Char) := do
  let M ← longestLocation s errcode
  let (o, errcode) ← printEntries K s M (maxErrorRing + 1) ⟨buf, str, maxlen⟩ errcode
  let o ← stackFallback K o errcode
  if o.str ≠ str then store o.buf (o.str - 1) '\x00' else pure o.buf

/-! ## The documented output

The stack as documented: one `stackLine` per slot of the chain, padded to the longest location
on it, then a line for the link the walk stopped at.  That line names the link's generic message,
else its class message, prefixed by `(unknown)(): `; a class past `MPICH_ERR_LAST_MPIX` gets the
invalid-class line, which has no prefix. -/

/-- The lines of the slots `es`. -/
def stackLines (s : Ring) (M : Nat) (es : List Nat) : List Char :=
  es.flatMap fun i => stackLine M (s.errorRing i)

/-- The line for the link `t` a walk stopped at. -/
def stackTail (t : CInt) : Except Fault (List Char) :=
  if t = mpiSuccess then .ok []
  else if 1 ≤ genericOf t then
    (genericLongName K (genericOf t - 1)).map fun p => "(unknown)(): ".toList ++ p.chars ++ ['\n']
  else if (errorGetClass t).toInt ≤ K.mpichErrLastMpix then
    (getClassMsg K (errorGetClass t)).map fun m => "(unknown)(): ".toList ++ m.chars ++ ['\n']
  else
    .ok ("Error code contains an invalid class (".toList ++
      (decimal (errorGetClass t).toInt).chars ++ [')', '\n'])

/-- The documented stack of a chain that visits `es` and stops at `t`. -/
def stackText (s : Ring) (es : List Nat) (t : CInt) : Except Fault (List Char) :=
  (stackTail K t).map fun tail => stackLines s (longest s es) es ++ tail

theorem stackLines_eq_nil {s : Ring} {M : Nat} {es : List Nat} :
    stackLines s M es = [] ↔ es = [] := by
  cases es <;> simp [stackLines, stackLine_ne_nil]

theorem stackTail_eq_nil {t : CInt} {x : List Char} (h : stackTail K t = .ok x) :
    x = [] ↔ t = mpiSuccess := by
  unfold stackTail at h
  split_ifs at h with h₁ h₂ h₃
  · cases h; simp [h₁]
  · obtain ⟨p, -, rfl⟩ := map_eq_ok.mp h; simp [h₁]
  · obtain ⟨p, -, rfl⟩ := map_eq_ok.mp h; simp [h₁]
  · cases h; simp [h₁]

theorem longestLocation_of_chain {s : Ring} {c t : CInt} {es : List Nat} (hc : Chain s c es t) :
    longestLocation s c = .ok (longest s es) := by
  simp [longestLocation, Ring.walk_of_chain hc, Except.map]

/-! ### The second walk follows the chain -/

section Walk

variable {K} {s : Ring} (hz : ∀ j, s.maxErrorRingLoc < j → s.errorRing j = .zero)
include hz

/-- Where the chain test fails, the second loop's test fails too, though it has no range check:
past the high-water mark every slot is zero, and no code that names a generic message matches
a zero id. -/
theorem printTest_of_link_none {c : CInt} (hc : s.link? c = none) :
    genericOf c = 0 ∨ (s.errorRing (ringIdxOf c)).id ≠ c &&& ringIdMask := by
  rw [link?_eq_none] at hc
  by_cases hg : genericOf c = 0
  · exact .inl hg
  refine .inr ?_
  by_cases hle : ringIdxOf c ≤ s.maxErrorRingLoc
  · exact hc hle (by omega)
  · rw [hz _ (by omega)]
    intro h
    have := toNat_and_ringIdMask c
    rw [← h] at this
    simp [ErrMsg.zero] at this
    omega

theorem printEntries_of_link_none {c : CInt} (hc : s.link? c = none) (M n : Nat) (o : Out) :
    printEntries K s M (n + 1) o c = .ok (o, c) := by
  rcases printTest_of_link_none hz hc with h | h <;> simp [printEntries, h]

omit hz in
theorem printEntries_of_link_some {c : CInt} {i : Nat} (hc : s.link? c = some i) (M n : Nat)
    (o : Out) : printEntries K s M (n + 1) o c =
      printEntry K M o (s.errorRing i) >>= fun o =>
        printEntries K s M n o (s.errorRing i).prevError := by
  obtain ⟨rfl, -, hg, hid⟩ := link?_eq_some.mp hc
  have hne : c ≠ mpiSuccess := by rintro rfl; exact absurd hg (by decide)
  rw [printEntries, if_neg hne, if_neg (by omega), if_pos hid]

variable {buf : List Char} {str maxlen : Int}
variable (h0 : 0 ≤ str) (hbuf : str + maxlen ≤ buf.length) (hint : maxlen < 2 ^ 31)
include h0 hbuf hint

/-- Without a chop width the second loop prints the documented lines of the chain. -/
theorem printEntries_written (hchop : K.chopErrorStack ≤ 0) (M : Nat) {c t : CInt}
    {es : List Nat} (hc : Chain s c es t) :
    ∀ {n : Nat} {w : List Char} {nul : Bool}, es.length < n →
      w.length + (stackLines s M es).length < maxlen →
      printEntries K s M n (Out.written buf str maxlen w nul) c =
        .ok (Out.written buf str maxlen (w ++ stackLines s M es) (nul || !es.isEmpty), t) := by
  induction hc with
  | stop hc =>
    intro n w nul hn _
    obtain ⟨n, rfl⟩ : ∃ m, n = m + 1 := ⟨n - 1, by simp at hn; omega⟩
    simp [printEntries_of_link_none hz hc, stackLines]
  | @step c i es t hc _ ih =>
    intro n w nul hn hroom
    obtain ⟨n, rfl⟩ : ∃ m, n = m + 1 := ⟨n - 1, by simp at hn; omega⟩
    have hl : stackLines s M (i :: es) = stackLine M (s.errorRing i) ++ stackLines s M es := by
      simp [stackLines]
    rw [hl, List.length_append] at hroom
    rw [printEntries_of_link_some hc, printEntry_written h0 hbuf hint hchop (by omega), ok_bind,
      ih (by simp at hn; omega) (by simp; omega), hl]
    simp

end Walk

section Written

variable {K} {buf : List Char} {str maxlen : Int} {w : List Char} {nul : Bool}
variable (h0 : 0 ≤ str) (hbuf : str + maxlen ≤ buf.length) (hint : maxlen < 2 ^ 31)
include h0 hbuf hint

/-- The last line is the documented one for the link the walk stopped at. -/
theorem stackFallback_written {t : CInt} {x : List Char} (hx : stackTail K t = .ok x)
    (hroom : w.length + x.length < maxlen) :
    stackFallback K (Out.written buf str maxlen w nul) t =
      .ok (Out.written buf str maxlen (w ++ x) (nul || t ≠ mpiSuccess)) := by
  have hnul : t ≠ mpiSuccess → (nul || decide (t ≠ mpiSuccess)) = true := fun h => by simp [h]
  unfold stackFallback
  unfold stackTail at hx
  split_ifs at hx ⊢ with h₁ h₂ h₃
  · cases hx; simp [h₁]
  · obtain ⟨p, hp, rfl⟩ := map_eq_ok.mp hx
    rw [hp, ok_bind, Out.print_written_of_chars h0 hbuf hint hroom rfl, hnul h₁]
  · obtain ⟨m, hm, rfl⟩ := map_eq_ok.mp hx
    rw [hm, ok_bind, Out.print_written_of_chars h0 hbuf hint hroom rfl, hnul h₁]
  · cases hx
    rw [Out.print_written_of_chars h0 hbuf hint hroom rfl, hnul h₁]

end Written

/-- Without a chop width, in a reachable state, and with room for the documented stack `x` of
the chain of `c`, the printer writes `x` from `str` on with its last newline overwritten by a
NUL, which the NUL of the last `snprintf` follows; an empty stack writes nothing. -/
theorem mpirErrPrintStackString_lines {s : Ring} {codes : List CInt} (hr : Reachable K s codes)
    (hchop : K.chopErrorStack = 0) {c t : CInt} {es : List Nat} (hc : Chain s c es t)
    {buf : List Char} {str maxlen : Int} (h0 : 0 ≤ str) (hbuf : str + maxlen ≤ buf.length)
    (hint : maxlen < 2 ^ 31) {x : List Char} (hx : stackText K s es t = .ok x)
    (hroom : x.length < maxlen) :
    mpirErrPrintStackString K s c buf str maxlen =
      .ok (if x = [] then buf else splice buf str.toNat (x.dropLast ++ ['\x00', '\x00'])) := by
  obtain ⟨tl, htl, rfl⟩ := map_eq_ok.mp hx
  rw [List.length_append] at hroom
  rw [mpirErrPrintStackString, longestLocation_of_chain hc, ok_bind, ← Out.written_nil,
    printEntries_written hr.above_max h0 hbuf hint hchop.le _ hc (Nat.lt_succ_of_le hc.length_le)
      (by simp; omega), ok_bind]
  dsimp only
  rw [stackFallback_written h0 hbuf hint htl (by simp; omega), ok_bind, Out.written_str]
  by_cases hnil : stackLines s (longest s es) es ++ tl = []
  · obtain ⟨hl, rfl⟩ := List.append_eq_nil.mp hnil
    obtain rfl := stackLines_eq_nil.mp hl
    obtain rfl := (stackTail_eq_nil K htl).mp rfl
    simp [hl, Out.written, nulTail, splice, pure, Except.pure]
  · have hnul : (!es.isEmpty || decide (t ≠ mpiSuccess)) = true := by
      rcases es with _ | ⟨i, es⟩
      · have : t ≠ mpiSuccess := fun ht =>
          hnil (by simp [stackLines, (stackTail_eq_nil K htl).mpr ht])
        simp [this]
      · simp
    have hlen : 0 < (stackLines s (longest s es) es ++ tl).length := List.length_pos.mpr hnil
    rw [if_pos (by simp at hlen ⊢; omega), if_neg hnil, Bool.false_or, hnul]
    exact store_last_nul h0 hnil (by simp; omega)

set_option maxRecDepth 8000 in
/-- The documented stack of the `MPI_Send` chain: its own line, then `wrapCode`'s. -/
theorem sendCreate_stackText : stackText Config.sample sendCreate.2 [1, 0] mpiSuccess =
    .ok "MPI_Send(12): send failed\nf(1)........: Failure\n".toList :=
  rfl

set_option maxRecDepth 8000 in
/-- The two-slot chain of the `MPI_Send` create, printed into a 96-byte object: the shorter
location `f(1)` of the second line is padded with dots to the twelve bytes of `MPI_Send(12)`. -/
theorem mpirErrPrintStackString_lines_pop :
    Reachable Config.sample sendCreate.2 [sendCreate.1, wrapCode] ∧
      Chain sendCreate.2 sendCreate.1 [1, 0] mpiSuccess ∧
      stackText Config.sample sendCreate.2 [1, 0] mpiSuccess =
        .ok "MPI_Send(12): send failed\nf(1)........: Failure\n".toList ∧
      mpirErrPrintStackString Config.sample sendCreate.2 sendCreate.1 (List.replicate 96 '\x00')
        0 96 = .ok ("MPI_Send(12): send failed\nf(1)........: Failure".toList ++
          List.replicate 49 '\x00') := by
  have hr := sendCreate_reachable
  have hc := sendCreate_chain
  have hx := sendCreate_stackText
  exact ⟨hr, hc, hx, (mpirErrPrintStackString_lines Config.sample hr rfl hc (by decide)
    (by decide) (by decide) hx (by decide)).trans rfl⟩

set_option maxRecDepth 8000 in
/-- Code `120` names no generic message and has class 120, past `MPICH_ERR_LAST_MPIX`: the walk
stops at it at once, and its line is the invalid-class line, with no `(unknown)(): ` before it. -/
theorem mpirErrPrintStackString_invalid_class :
    Reachable Config.sample Ring.init [] ∧ Chain Ring.init 120 [] 120 ∧
      mpirErrPrintStackString Config.sample Ring.init 120 (List.replicate 64 '\x00') 0 64 =
        .ok ("Error code contains an invalid class (120)".toList ++ List.replicate 22 '\x00') :=
  ⟨.init, .stop (by decide), rfl⟩

/-! ## A chop width -/

/-- The sample configuration with `MPIR_CVAR_CHOP_ERROR_STACK = 10`. -/
def chopConfig : Config := { Config.sample with chopErrorStack := 10 }

/-- A create with no function name, so an empty location, and the fifteen-byte message
`abcdefghijklmno`. -/
def chopCreate : CInt × Ring :=
  mpirErrCreateCodeValist chopConfig Ring.init mpiSuccess false none 1 1 "**fail" (some "%s")
    [.str (some (CStr.ofChars "abcdefghijklmno".toList))]

set_option maxRecDepth 8000 in
/-- With `M = 0` the padded width is `mll = 2` and the chop width `10 > mll + 1`.  Each wrapped
line holds six bytes of the message, a NUL and the newline, and the byte under the newline, `g`
and then `n`, is never printed (`wrapLoop_pass`). -/
theorem mpirErrPrintStackString_chop_drops :
    Reachable chopConfig chopCreate.2 [chopCreate.1] ∧
      (chopCreate.2.errorRing 0).msg.chars = "abcdefghijklmno".toList ∧
      mpirErrPrintStackString chopConfig chopCreate.2 chopCreate.1 (List.replicate 40 '\x00') 0 40 =
        .ok (": abcdef".toList ++ ['\x00', '\n'] ++ "  hijklm".toList ++ ['\x00', '\n'] ++
          "  o".toList ++ List.replicate 17 '\x00') :=
  ⟨.create _ _ _ _ _ _ _ _ .init (.inl rfl), by decide, rfl⟩

end MpichErrhan
