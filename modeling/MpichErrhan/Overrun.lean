import MpichErrhan.ErrorStack

/-!
# When the stack does not fit, the printer reads past its bytes

`MPIR_Err_print_stack_string` checks `maxlen > 0` before each dot, `':'` and `' '`, but not before
the `snprintf` of a slot's message.  When a slot starts with between `1` and `max_location_len`
bytes left, its location, dots, `':'` and `' '` use them all; `snprintf(str, 0, ...)` then writes
nothing and `len = strlen(str)` reads from `str`, one past the last byte.  A slot whose line is
cut leaves exactly one byte, so this happens at the next slot, whenever the room runs out before
the last line of the stack.

The printer's state is followed here only by how many bytes are left before the end of its
object (`Out.Ends`).  In an object of exactly the bytes it was given, the read past them is the
fault `Fault.outOfBounds`.

## Main results

* `printEntry_reads_past`: a slot started with `1` to `M + 2` bytes left faults.
* `mpirErrPrintStackString_reads_past`: a stack whose lines before the last do not leave more
  than `M + 2` bytes faults.
* `mpirErrGetString_reads_past`: with the stack on and no chop width, MPICH's defaults,
  `MPIR_Err_get_string` reads past `msg[length)` for every such length, on codes MPICH created.
-/

namespace MpichErrhan

/-! ## Writes up to the end of the object -/

/-- The printer's `maxlen` bytes run from `str` to the end of its object. -/
def Out.Ends (o : Out) : Prop := 0 ≤ o.str ∧ o.str + o.maxlen = o.buf.length

namespace Out

variable {o : Out}

/-- `snprintf` then `strlen`: the text, or all of it that fits before the last byte. -/
theorem print_ends (he : o.Ends) (h1 : 0 < o.maxlen) (hint : o.maxlen < 2 ^ 31) (t : CStr) :
    ∃ o', o.print t = .ok o' ∧ o'.Ends ∧
      o'.maxlen = if (t.length : Int) < o.maxlen then o.maxlen - t.length else 1 := by
  obtain ⟨buf, str, maxlen⟩ := o
  obtain ⟨h0, hlen⟩ := he
  dsimp only at h0 hlen h1 hint ⊢
  obtain ⟨k, rfl⟩ : ∃ k : Nat, str = k := ⟨str.toNat, by omega⟩
  obtain ⟨n, rfl⟩ : ∃ n : Nat, maxlen = n := ⟨maxlen.toNat, by omega⟩
  have hw : (t.take (n - 1)).chars.length = min (n - 1) t.chars.length := List.length_take _ _
  have hb : (splice buf k ((t.take (n - 1)).chars ++ ['\x00'])).length = buf.length :=
    length_splice (by simp only [List.length_append, List.length_singleton]; omega)
  refine ⟨⟨splice buf k ((t.take (n - 1)).chars ++ ['\x00']), k + (t.take (n - 1)).length,
    n - (t.take (n - 1)).length⟩, ?_, ⟨?_, ?_⟩, ?_⟩ <;> dsimp only
  · rw [Out.print]
    dsimp only
    rw [sizeT_of_nonneg (by omega) (by omega), Int.toNat_ofNat,
      snprintf_of_pos t (by omega) (by omega) (by omega), ok_bind, Int.toNat_ofNat, strlen,
      cstrAt_splice (by rw [CStr.length_eq]; omega)]
    rfl
  · omega
  · rw [hb, CStr.length_eq]
    omega
  · simp only [CStr.length_eq] at hw ⊢
    split_ifs <;> omega

theorem put_ends (he : o.Ends) (h1 : 0 < o.maxlen) (c : Char) :
    ∃ o', o.put c = .ok o' ∧ o'.Ends ∧ o'.maxlen = o.maxlen - 1 := by
  obtain ⟨h0, hlen⟩ := he
  refine ⟨⟨splice o.buf o.str.toNat [c], o.str + 1, o.maxlen - 1⟩, ?_, ⟨?_, ?_⟩, rfl⟩ <;>
    dsimp only
  · rw [Out.put, store, storeAll_of_le h0 (by rw [List.length_singleton]; omega)]
    rfl
  · omega
  · rw [length_splice (by rw [List.length_singleton]; omega)]
    omega

theorem putIf_ends (he : o.Ends) (h0 : 0 ≤ o.maxlen) (c : Char) :
    ∃ o', o.putIf c = .ok o' ∧ o'.Ends ∧ o'.maxlen = max (o.maxlen - 1) 0 := by
  unfold Out.putIf
  split
  · obtain ⟨o', h, he', hm⟩ := put_ends he ‹_› c
    exact ⟨o', h, he', by omega⟩
  · exact ⟨o, rfl, he, by omega⟩

theorem pad_ends : ∀ (n : Nat) {o : Out}, o.Ends → 0 ≤ o.maxlen →
    ∃ o', o.pad n = .ok o' ∧ o'.Ends ∧ o'.maxlen = max (o.maxlen - n) 0
  | 0, o, he, _ => ⟨o, rfl, he, by omega⟩
  | n + 1, o, he, h0 => by
    unfold Out.pad
    split
    · obtain ⟨o₁, h₁, he₁, hm₁⟩ := put_ends he ‹_› '.'
      obtain ⟨o₂, h₂, he₂, hm₂⟩ := pad_ends n he₁ (by omega)
      exact ⟨o₂, by rw [h₁]; exact h₂, he₂, by omega⟩
    · exact ⟨o, rfl, he, by omega⟩

/-- With no byte left, `snprintf` writes nothing and `strlen` reads past the object. -/
theorem print_reads_past (he : o.Ends) (hz : o.maxlen = 0) (t : CStr) :
    o.print t = .error .outOfBounds := by
  obtain ⟨-, hlen⟩ := he
  rw [Out.print, hz, show sizeT 0 = 0 from rfl, snprintf, if_pos rfl, ok_bind, strlen, cstrAt,
    if_neg]
  · rfl
  · rintro ⟨-, hm⟩
    rw [List.drop_eq_nil_of_le (by omega)] at hm
    exact List.not_mem_nil _ hm

end Out

/-! ## One slot -/

section Entry

variable {K : Config} (hchop : K.chopErrorStack ≤ 0) {M : Nat} {o : Out} {e : ErrMsg}
  (hloc : e.location.length ≤ M) (he : o.Ends) (h1 : 0 < o.maxlen) (hint : o.maxlen < 2 ^ 31)
include hchop hloc he h1 hint

omit hchop in
/-- With more than `M + 2` bytes left, the location, the dots, `':'` and `' '` all go out, and the
message starts `M + 2` bytes on, whatever the chop width. -/
theorem printEntry_eq_message (hM : M + 2 < o.maxlen) :
    ∃ o', o'.Ends ∧ o'.maxlen = o.maxlen - M - 2 ∧ printEntry K M o e =
      if 0 < K.chopErrorStack then
        (if e.msg.length = 0 ∧ 0 < o'.maxlen then o'.put '\n' else pure o') >>= fun o =>
          wrapLoop K.chopErrorStack ((M : Int) + 2) (slotObj e) (o.maxlen.toNat + 1) o
            ((maxLocationLen + 1 : Nat) : Int)
      else o'.print (e.msg ++ "\n") := by
  obtain ⟨o₁, h₁, he₁, hm₁⟩ := Out.print_ends he h1 hint e.location
  rw [if_pos (by omega)] at hm₁
  obtain ⟨o₂, h₂, he₂, hm₂⟩ :=
    Out.pad_ends ((M : Int) + 2 - e.location.length - 2).toNat he₁ (by omega)
  obtain ⟨o₃, h₃, he₃, hm₃⟩ := Out.putIf_ends he₂ (by omega) ':'
  obtain ⟨o₄, h₄, he₄, hm₄⟩ := Out.putIf_ends he₃ (by omega) ' '
  refine ⟨o₄, he₄, by omega, ?_⟩
  rw [printEntry, h₁, ok_bind, h₂, ok_bind, h₃, ok_bind, h₄, ok_bind]
  split_ifs <;> rfl

/-- Between `1` and `M + 2` bytes left, the location, the dots, `':'` and `' '` use them all, and
the `snprintf` of the message, given no room, leaves `strlen` to read past the object. -/
theorem printEntry_reads_past (hM : o.maxlen ≤ M + 2) :
    printEntry K M o e = .error .outOfBounds := by
  obtain ⟨o₁, h₁, he₁, hm₁⟩ := Out.print_ends he h1 hint e.location
  have h₁' : 0 < o₁.maxlen ∧ o₁.maxlen ≤ (M - e.location.length : Nat) + 2 := by
    split_ifs at hm₁ <;> omega
  obtain ⟨o₂, h₂, he₂, hm₂⟩ :=
    Out.pad_ends ((M : Int) + 2 - e.location.length - 2).toNat he₁ (by omega)
  obtain ⟨o₃, h₃, he₃, hm₃⟩ := Out.putIf_ends he₂ (by omega) ':'
  obtain ⟨o₄, h₄, he₄, hm₄⟩ := Out.putIf_ends he₃ (by omega) ' '
  rw [printEntry, h₁, ok_bind, h₂, ok_bind, h₃, ok_bind, h₄, ok_bind, if_neg (by omega),
    Out.print_reads_past he₄ (by omega)]

/-- With more than `M + 2` bytes left, the slot's line goes out, or as much of it as leaves one
byte. -/
theorem printEntry_ends (hM : M + 2 < o.maxlen) :
    ∃ o', printEntry K M o e = .ok o' ∧ o'.Ends ∧
      o'.maxlen = max (o.maxlen - (stackLine M e).length) 1 := by
  obtain ⟨o₄, he₄, hm, heq⟩ := printEntry_eq_message hloc he h1 hint hM
  obtain ⟨o₅, h₅, he₅, hm₅⟩ := Out.print_ends he₄ (by omega) (by omega) (e.msg ++ "\n")
  refine ⟨o₅, ?_, he₅, ?_⟩
  · rw [heq, if_neg (by omega), h₅]
  · have hl : (stackLine M e).length = M + 3 + e.msg.length := by
      simp only [stackLine, List.length_append, List.length_replicate, List.length_cons,
        List.length_nil, CStr.length_eq] at hloc ⊢
      omega
    have hmsg : (e.msg ++ "\n").length = e.msg.length + 1 := by
      simp only [CStr.length_eq, CStr.append_chars]
      rw [List.length_append]
      rfl
    rw [hm₅, hmsg, hl, hm]
    split_ifs <;> omega

end Entry

/-! ## The walk -/

theorem le_foldl_max_init : ∀ (l : List Nat) (b : Nat), b ≤ l.foldl max b
  | [], _ => le_rfl
  | x :: l, b => (le_max_left b x).trans (le_foldl_max_init l _)

theorem le_foldl_max : ∀ {l : List Nat} {a : Nat} (b : Nat), a ∈ l → a ≤ l.foldl max b
  | x :: l, a, b, h => by
    rcases List.mem_cons.mp h with rfl | h
    · exact (le_max_right b a).trans (le_foldl_max_init l _)
    · exact le_foldl_max (max b x) h

theorem location_le_longest {s : Ring} {es : List Nat} {i : Nat} (hi : i ∈ es) :
    (s.errorRing i).location.length ≤ longest s es :=
  le_foldl_max 0 (List.mem_map_of_mem _ hi)

section Walk

variable {K : Config} {s : Ring} (hchop : K.chopErrorStack ≤ 0)
include hchop

/-- Started with fewer bytes than the lines before the last one and `M + 2` more, the second
walk faults: either at a slot that starts with at most `M + 2` bytes, or at the slot after one
whose line was cut. -/
theorem printEntries_reads_past {M : Nat} {c t : CInt} {es : List Nat} (hc : Chain s c es t)
    (hM : ∀ i ∈ es, (s.errorRing i).location.length ≤ M) :
    ∀ {n : Nat} {o : Out}, es.length < n → o.Ends → 0 < o.maxlen → o.maxlen < 2 ^ 31 →
      es ≠ [] → o.maxlen ≤ (stackLines s M es.dropLast).length + M + 2 →
      printEntries K s M n o c = .error .outOfBounds := by
  induction hc with
  | stop => exact fun _ _ _ _ hne _ => absurd rfl hne
  | @step c i es t hl _ ih =>
    rintro (_ | n) o hn he h1 hint - hroom
    · exact absurd hn (Nat.not_lt_zero _)
    have hloc := hM i (List.mem_cons_self _ _)
    rw [printEntries_of_link_some hl]
    by_cases hr : o.maxlen ≤ M + 2
    · rw [printEntry_reads_past hchop hloc he h1 hint hr]
      rfl
    · have hes : es ≠ [] := by
        rintro rfl
        simp only [List.dropLast_single, stackLines, List.flatMap_nil, List.length_nil] at hroom
        omega
      have hlines : (stackLines s M (i :: es).dropLast).length =
          (stackLine M (s.errorRing i)).length + (stackLines s M es.dropLast).length := by
        rw [List.dropLast_cons_of_ne_nil hes]
        simp only [stackLines, List.flatMap_cons, List.length_append]
      obtain ⟨o', ho', he', hm'⟩ := printEntry_ends hchop hloc he h1 hint (by omega)
      rw [ho', ok_bind]
      exact ih (fun j hj => hM j (List.mem_cons_of_mem _ hj))
        (by simp only [List.length_cons] at hn; omega) he' (by omega) (by omega) hes (by omega)

/-- In an object that ends with its bytes, the stack printer faults when the lines of the walk
before the last do not leave more than the longest location and `2` bytes. -/
theorem mpirErrPrintStackString_reads_past {c t : CInt} {es : List Nat} (hc : Chain s c es t)
    (hne : es ≠ []) {buf : List Char} {str maxlen : Int} (h0 : 0 ≤ str)
    (hbuf : str + maxlen = buf.length) (h1 : 0 < maxlen) (hint : maxlen < 2 ^ 31)
    (hroom : maxlen ≤ (stackLines s (longest s es) es.dropLast).length + longest s es + 2) :
    mpirErrPrintStackString K s c buf str maxlen = .error .outOfBounds := by
  rw [mpirErrPrintStackString, longestLocation_of_chain hc, ok_bind,
    printEntries_reads_past hchop hc (fun _ hi => location_le_longest hi)
      (Nat.lt_succ_of_le hc.length_le) ⟨h0, hbuf⟩ h1 hint hne hroom]
  rfl

end Walk

/-! ## The error string -/

section Message

variable {K : Config} {s : Ring}

/-- With `MPIR_CVAR_PRINT_ERROR_STACK` on and no chop width, MPICH's defaults, in every ring
state: for a code that is neither dynamic nor a bare class and whose walk visits a slot, when the
class message and `", error stack:\n"` fit but the stack's lines before the last do not leave
more than the longest location and `2` bytes, `MPIR_Err_get_string` reads past `msg[length)`:
in an object of exactly `length` bytes it faults. -/
theorem mpirErrGetString_reads_past (hps : K.printErrorStack = true)
    (hchop : K.chopErrorStack = 0) {c t : CInt} {es : List Nat} (hc : Chain s c es t)
    (hne : es ≠ []) (hdyn : c &&& errorDynMask = 0) (hcls : c &&& errorClassMask ≠ c) {m : CStr}
    (hm : getClassMsg K (errorGetClass c) = .ok m) {buf : List Char} {q L : Nat}
    (hbuf : buf.length = q + L) (hL : L < 2 ^ 31) (hfit : m.length + 15 < L)
    (hroom : L ≤ m.length + 15 + (stackLines s (longest s es) es.dropLast).length +
      longest s es + 2) :
    mpirErrGetString K s c buf q L = .error .outOfBounds := by
  obtain ⟨buf₂, hw₂, heq⟩ := mpirErrGetString_stack_print (s := s) hps hdyn hcls hm hbuf.ge hL hfit
  rw [heq, mpirErrPrintStackString_reads_past hchop.le hc hne (by omega)
    (by rw [hw₂.length_eq hbuf.ge]; omega) (by omega) (by omega) (by omega)]
  rfl

set_option maxRecDepth 8000 in
/-- A second `**fail` create, chained from the first, has a stack of two 14-byte lines.  Into an
object of exactly 40 bytes the class message and `", error stack:\n"` take 30, the first line is
cut to `f(1): Fai`, and at the second slot `strlen` reads past the end. -/
theorem mpirErrGetString_reads_past_pop :
    Config.sample.printErrorStack = true ∧ Config.sample.chopErrorStack = 0 ∧
      Chain (popCreate (popRing 1) wrapCode).2 (popCreate (popRing 1) wrapCode).1 [1, 0]
        mpiSuccess ∧
      (popCreate (popRing 1) wrapCode).1 &&& errorDynMask = 0 ∧
      (popCreate (popRing 1) wrapCode).1 &&& errorClassMask ≠ (popCreate (popRing 1) wrapCode).1 ∧
      getClassMsg Config.sample (errorGetClass (popCreate (popRing 1) wrapCode).1) =
        .ok "Other MPI error" ∧
      40 ≤ ("Other MPI error" : CStr).length + 15 +
        (stackLines (popCreate (popRing 1) wrapCode).2
          (longest (popCreate (popRing 1) wrapCode).2 [1, 0]) [1, 0].dropLast).length +
        longest (popCreate (popRing 1) wrapCode).2 [1, 0] + 2 ∧
      mpirErrGetString Config.sample (popCreate (popRing 1) wrapCode).2
        (popCreate (popRing 1) wrapCode).1 (List.replicate 40 'x') 0 40 = .error .outOfBounds := by
  have h0 : ((popCreate (popRing 1) wrapCode).2.errorRing 0).prevError = mpiSuccess := by decide
  have h1 : ((popCreate (popRing 1) wrapCode).2.errorRing 1).prevError = wrapCode := by decide
  have hc₀ : Chain (popCreate (popRing 1) wrapCode).2 wrapCode [0] mpiSuccess :=
    .step (by decide) (by rw [h0]; exact .stop (link?_success _))
  have hc : Chain (popCreate (popRing 1) wrapCode).2 (popCreate (popRing 1) wrapCode).1 [1, 0]
      mpiSuccess :=
    .step (by decide) (by rw [h1]; exact hc₀)
  have hdyn : (popCreate (popRing 1) wrapCode).1 &&& errorDynMask = 0 := by decide
  have hcls : (popCreate (popRing 1) wrapCode).1 &&& errorClassMask ≠
      (popCreate (popRing 1) wrapCode).1 := by decide
  have hm : getClassMsg Config.sample (errorGetClass (popCreate (popRing 1) wrapCode).1) =
      .ok "Other MPI error" := rfl
  have hroom : 40 ≤ ("Other MPI error" : CStr).length + 15 +
      (stackLines (popCreate (popRing 1) wrapCode).2
        (longest (popCreate (popRing 1) wrapCode).2 [1, 0]) [1, 0].dropLast).length +
      longest (popCreate (popRing 1) wrapCode).2 [1, 0] + 2 := by decide
  exact ⟨rfl, rfl, hc, hdyn, hcls, hm, hroom, mpirErrGetString_reads_past rfl rfl hc
    (List.cons_ne_nil _ _) hdyn hcls hm (List.length_replicate _ _) (by decide) (by decide) hroom⟩

/-- With the stack on and no chop width, in every ring state, `MPIR_Handle_fatal_error` reads past
its local array of `MAX_ERRMSG_STRING` bytes for such a code when, after
`"Fatal error in <fcname>: "`, the class message and `", error stack:\n"`, the stack's lines before
the last do not leave more than the longest location and `2` bytes: the abort never gets its
message. -/
theorem mpirHandleFatalError_reads_past (hps : K.printErrorStack = true)
    (hchop : K.chopErrorStack = 0) {c t : CInt} {es : List Nat} (hc : Chain s c es t)
    (hne : es ≠ []) (hdyn : c &&& errorDynMask = 0) (hcls : c &&& errorClassMask ≠ c) {m : CStr}
    (hm : getClassMsg K (errorGetClass c) = .ok m) {M : Nat} (hM : M < 2 ^ 31)
    {errorMsg : List Char} (hbuf : errorMsg.length = maxErrmsgString M) (commPtr : Option Comm)
    (fcname : CStr) (hfit : fcname.length + 17 + m.length + 15 < maxErrmsgString M)
    (hroom : maxErrmsgString M ≤ fcname.length + 17 + m.length + 15 +
      (stackLines s (longest s es) es.dropLast).length + longest s es + 2) :
    mpirHandleFatalError K s M errorMsg commPtr fcname c = .error .outOfBounds := by
  obtain ⟨-, hhi⟩ := maxErrmsgString_bounds hM
  obtain ⟨buf, rest, hlen, heq⟩ :=
    mpirHandleFatalError_stack_print (s := s) hps hdyn hcls hm hM hbuf commPtr fcname hfit
  rw [heq, mpirErrPrintStackString_reads_past hchop.le hc hne (by omega) (by rw [hlen]; omega)
    (by omega) (by omega) (by omega)]
  rfl

/-- A function name of 4046 bytes: with it the prefix, the class message of the first `**fail`
code and `", error stack:\n"` take 4093 of the 4096 bytes. -/
def longName : CStr :=
  ⟨List.replicate 4046 'a', fun h => absurd (List.eq_of_mem_replicate h) (by decide)⟩

set_option maxRecDepth 8000 in
/-- The first `**fail` code, aborting from a function with a 4046-byte name: its one line gets 3
bytes, and the abort handler reads past its array. -/
theorem mpirHandleFatalError_reads_past_pop :
    Config.sample.printErrorStack = true ∧ Config.sample.chopErrorStack = 0 ∧
      Chain (popRing 1) wrapCode [0] mpiSuccess ∧ wrapCode &&& errorDynMask = 0 ∧
      wrapCode &&& errorClassMask ≠ wrapCode ∧
      getClassMsg Config.sample (errorGetClass wrapCode) = .ok "Other MPI error" ∧
      1024 < 2 ^ 31 ∧ (List.replicate 4096 'x').length = maxErrmsgString 1024 ∧
      longName.length + 17 + ("Other MPI error" : CStr).length + 15 < maxErrmsgString 1024 ∧
      maxErrmsgString 1024 ≤ longName.length + 17 + ("Other MPI error" : CStr).length + 15 +
        (stackLines (popRing 1) (longest (popRing 1) [0]) [0].dropLast).length +
        longest (popRing 1) [0] + 2 ∧
      mpirHandleFatalError Config.sample (popRing 1) 1024 (List.replicate 4096 'x') none longName
        wrapCode = .error .outOfBounds := by
  have hc := wrapCode_chain
  have hdyn : wrapCode &&& errorDynMask = 0 := by decide
  have hcls : wrapCode &&& errorClassMask ≠ wrapCode := by decide
  have hm : getClassMsg Config.sample (errorGetClass wrapCode) = .ok "Other MPI error" := rfl
  have hbuf : (List.replicate 4096 'x').length = maxErrmsgString 1024 := List.length_replicate _ _
  have hl : longName.length = 4046 := List.length_replicate _ _
  have hfit : longName.length + 17 + ("Other MPI error" : CStr).length + 15 <
      maxErrmsgString 1024 := by
    rw [hl]
    decide
  have hroom : maxErrmsgString 1024 ≤ longName.length + 17 + ("Other MPI error" : CStr).length +
      15 + (stackLines (popRing 1) (longest (popRing 1) [0]) [0].dropLast).length +
      longest (popRing 1) [0] + 2 := by
    rw [hl]
    decide
  exact ⟨rfl, rfl, hc, hdyn, hcls, hm, by decide, hbuf, hfit, hroom,
    mpirHandleFatalError_reads_past rfl rfl hc (List.cons_ne_nil _ _) hdyn hcls hm (by decide)
      hbuf none longName hfit hroom⟩

end Message

end MpichErrhan
