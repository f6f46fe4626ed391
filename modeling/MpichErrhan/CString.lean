import Mathlib

/-!
# C strings and bounded byte objects

`errutil.c` renders its diagnostics with the C library: `snprintf`, `strlen`, `memcpy`,
single-byte stores `*str++ = c`, and `MPL_strncpy`.  Every claim about the renderer is a claim
about which bytes of which object those calls touch, so this file fixes that layer once.

A C object is the list of its bytes, of fixed length; a pointer into it is an integer offset,
which the code is free to move past either end.  Every store and every string read checks its
offsets against the object and reports `Fault.outOfBounds` when it leaves it: the model of an
access the C standard leaves undefined.  A loop that the code can run forever reports
`Fault.diverges`.

A C string value (`CStr`) is the run of bytes before a terminating NUL, so it carries the
proof that it holds no NUL itself.

`snprintf` and `strlen` follow the C standard; `MPL_strncpy` (from MPL, which is not among the
sources) follows its use in `errutil.c`, where its nonzero return marks a truncated copy.
The main lemmas say what a write that fits does (`storeAll_of_le`, `snprintf_of_lt`) and that
two consecutive writes are one write of the concatenation (`splice_splice`).
-/

namespace MpichErrhan

/-! ## C string values -/

/-- The bytes of a C string before its terminating NUL. -/
structure CStr where
  chars : List Char
  nul_not_mem : '\x00' ∉ chars
deriving DecidableEq

namespace CStr

/-- `strlen` of the string. -/
def length (s : CStr) : Nat := s.chars.length

theorem nul_not_mem_takeWhile (l : List Char) : '\x00' ∉ l.takeWhile (· ≠ '\x00') := by
  intro h
  simpa using List.mem_takeWhile_imp h

/-- The C string a byte sequence starts with: everything before its first NUL. -/
def ofChars (l : List Char) : CStr := ⟨l.takeWhile (· ≠ '\x00'), nul_not_mem_takeWhile l⟩

instance : Coe String CStr := ⟨fun s => ofChars s.toList⟩

instance : EmptyCollection CStr := ⟨⟨[], List.not_mem_nil _⟩⟩

instance : Append CStr :=
  ⟨fun a b => ⟨a.chars ++ b.chars, by simp [a.nul_not_mem, b.nul_not_mem]⟩⟩

/-- The first `n` bytes of the string. -/
def take (n : Nat) (s : CStr) : CStr :=
  ⟨s.chars.take n, fun h => s.nul_not_mem (List.mem_of_mem_take h)⟩

@[simp] theorem append_chars (a b : CStr) : (a ++ b).chars = a.chars ++ b.chars := rfl
@[simp] theorem take_chars (n : Nat) (s : CStr) : (s.take n).chars = s.chars.take n := rfl
@[simp] theorem empty_chars : (∅ : CStr).chars = [] := rfl
@[simp] theorem length_eq (s : CStr) : s.length = s.chars.length := rfl

theorem ext' {a b : CStr} (h : a.chars = b.chars) : a = b := by
  cases a; cases b; cases h; rfl

/-- A byte sequence with no NUL is a C string as it stands. -/
@[simp] theorem ofChars_chars_of_nul_not_mem {l : List Char} (h : '\x00' ∉ l) :
    (ofChars l).chars = l :=
  List.takeWhile_eq_self_iff.mpr fun c hc => by simpa using fun e : c = '\x00' => h (e ▸ hc)

@[simp] theorem ofChars_append_nul (s : CStr) (rest : List Char) :
    ofChars (s.chars ++ '\x00' :: rest) = s := by
  apply ext'
  simp only [ofChars, List.takeWhile_append]
  rw [List.takeWhile_eq_self_iff.mpr fun c hc => by
    simpa using fun e : c = '\x00' => s.nul_not_mem (e ▸ hc)]
  simp

end CStr

/-! ## Objects and accesses -/

/-- Why a modelled C routine has no result: it touched a byte outside the object it was given,
or it never returns. -/
inductive Fault
  | outOfBounds
  | diverges
deriving DecidableEq, Repr

/-- A modelled call that succeeded hands its value to the rest of the routine. -/
@[simp] theorem ok_bind {α β : Type} (a : α) (f : α → Except Fault β) :
    (Except.ok a >>= f) = f a := rfl

theorem map_eq_ok {α β : Type} {f : α → β} {x : Except Fault α} {b : β} :
    x.map f = .ok b ↔ ∃ a, x = .ok a ∧ f a = b := by
  cases x <;> simp [Except.map]

/-- The object `buf` with the bytes `l` written from position `p` on. -/
def splice (buf : List Char) (p : Nat) (l : List Char) : List Char :=
  buf.take p ++ l ++ buf.drop (p + l.length)

theorem length_splice {buf l : List Char} {p : Nat} (h : p + l.length ≤ buf.length) :
    (splice buf p l).length = buf.length := by
  simp only [splice, List.length_append, List.length_take, List.length_drop]; omega

/-- Writing nothing changes nothing. -/
theorem splice_nil (buf : List Char) (p : Nat) : splice buf p [] = buf := by
  simp only [splice, List.append_nil, List.length_nil, Nat.add_zero, List.take_append_drop]

/-- Two consecutive writes are one write of the concatenation. -/
theorem splice_splice {buf l₁ l₂ : List Char} {p : Nat} (hp : p ≤ buf.length) :
    splice (splice buf p l₁) (p + l₁.length) l₂ = splice buf p (l₁ ++ l₂) := by
  have hlen : (buf.take p ++ l₁).length = p + l₁.length := by simp; omega
  have hdrop : ((buf.take p ++ l₁) ++ buf.drop (p + l₁.length)).drop
      ((buf.take p ++ l₁).length + l₂.length) = (buf.drop (p + l₁.length)).drop l₂.length :=
    List.drop_append _
  rw [hlen, List.drop_drop] at hdrop
  simp only [splice]
  rw [List.take_left' hlen, hdrop]
  simp [Nat.add_assoc]

theorem drop_splice {buf l : List Char} {p : Nat} (hp : p ≤ buf.length) :
    (splice buf p l).drop p = l ++ buf.drop (p + l.length) := by
  simp only [splice, List.append_assoc]
  exact List.drop_left' (by simp; omega)

/-- A write over the start of an earlier one replaces the bytes it covers and keeps the rest. -/
theorem splice_overwrite {buf v l : List Char} {p : Nat} (hp : p ≤ buf.length) :
    splice (splice buf p v) p l = splice buf p (l ++ v.drop l.length) := by
  have hd : (splice buf p v).drop (p + l.length) =
      v.drop l.length ++ buf.drop (p + (l ++ v.drop l.length).length) := by
    rw [← List.drop_drop, drop_splice hp, List.drop_append_eq_append_drop,
      List.drop_drop]
    simp only [List.length_append, List.length_drop]
    congr 2
    omega
  simp only [splice, List.append_assoc] at hd ⊢
  rw [List.take_left' (by simp; omega), hd]

/-- A write from the end of a text covers what an earlier write left past it, when that is no
longer than the new bytes. -/
theorem splice_append_overwrite {buf w tail l : List Char} {p : Nat} (hp : p ≤ buf.length)
    (ht : tail.length ≤ l.length) :
    splice (splice buf p (w ++ tail)) (p + w.length) l = splice buf p (w ++ l) := by
  have hw : p + w.length ≤ (splice buf p w).length := by
    simp only [splice, List.length_append, List.length_take]; omega
  rw [← splice_splice hp, splice_overwrite hw, List.drop_eq_nil_of_le ht, List.append_nil,
    splice_splice hp]

/-- Writing back bytes the object already holds changes nothing. -/
theorem splice_append_drop_take {buf v : List Char} {p k : Nat}
    (h : p + v.length + k ≤ buf.length) :
    splice buf p (v ++ (buf.drop (p + v.length)).take k) = splice buf p v := by
  have hk : ((buf.drop (p + v.length)).take k).length = k := by
    simp only [List.length_take, List.length_drop]; omega
  rw [splice, splice, List.length_append, hk, ← Nat.add_assoc,
    ← List.drop_drop k (p + v.length), List.append_assoc, List.append_assoc,
    List.take_append_drop, List.append_assoc]

/-- Stores the bytes `l` from offset `p` of the object `buf` on: a `memcpy`, or a run of
`*p++ = c`.  Storing nothing touches nothing; otherwise every byte must land in the object. -/
def storeAll (buf : List Char) (p : Int) (l : List Char) : Except Fault (List Char) :=
  if l = [] then .ok buf
  else if 0 ≤ p ∧ p + l.length ≤ buf.length then .ok (splice buf p.toNat l)
  else .error .outOfBounds

/-- `*p = c`. -/
def store (buf : List Char) (p : Int) (c : Char) : Except Fault (List Char) :=
  storeAll buf p [c]

theorem storeAll_of_le {buf l : List Char} {p : Int} (h0 : 0 ≤ p)
    (h : p + l.length ≤ buf.length) : storeAll buf p l = .ok (splice buf p.toNat l) := by
  unfold storeAll
  split
  · subst l; simp [splice]
  · rw [if_pos ⟨h0, h⟩]

/-- The C string at offset `p`: the bytes up to the first NUL, which must lie in the object. -/
def cstrAt (buf : List Char) (p : Int) : Except Fault CStr :=
  if 0 ≤ p ∧ '\x00' ∈ buf.drop p.toNat then .ok (CStr.ofChars (buf.drop p.toNat))
  else .error .outOfBounds

/-- `strlen(p)`. -/
def strlen (buf : List Char) (p : Int) : Except Fault Nat :=
  (cstrAt buf p).map CStr.length

/-- `size_t` of a C `int`: a negative size wraps to a huge one. -/
def sizeT (v : Int) : Nat := (v % 2 ^ 64).toNat

/-- The `size_t` of a non-negative `int` is its value. -/
theorem sizeT_of_nonneg {v : Int} (h0 : 0 ≤ v) (h : v < 2 ^ 63) : sizeT v = v.toNat := by
  rw [sizeT, Int.emod_eq_of_lt h0 (by omega)]

/-- The `size_t` of a negative `int` wraps past `2^63`. -/
theorem sizeT_of_neg {v : Int} (hv : -2 ^ 63 ≤ v) (hv0 : v < 0) :
    sizeT v = (v + 2 ^ 64).toNat := by
  unfold sizeT; omega

/-- `snprintf(p, n, …)` producing the text `t`: at most `n - 1` bytes of `t` and a NUL, and
nothing at all when `n = 0`. -/
def snprintf (buf : List Char) (p : Int) (n : Nat) (t : CStr) : Except Fault (List Char) :=
  if n = 0 then .ok buf else storeAll buf p (t.chars.take (n - 1) ++ ['\x00'])

/-- `snprintf` given a negative `int` as its size: the `size_t` wraps to a huge one, and the
whole text goes out with its NUL. -/
theorem snprintf_of_neg {buf : List Char} {p v : Int} (t : CStr) (hv : -2 ^ 63 ≤ v) (hv0 : v < 0)
    (ht : t.length < 2 ^ 63) :
    snprintf buf p (sizeT v) t = storeAll buf p (t.chars ++ ['\x00']) := by
  rw [snprintf, sizeT_of_neg hv hv0, if_neg (by omega),
    List.take_of_length_le (by rw [← CStr.length_eq]; omega)]

/-- `MPL_strncpy(p, src, n)`: copies `src` while it lasts and `n` allows, then terminates the
copy, at `p[n - 1]` when the copy was cut.  The flag is the return value: the copy was cut. -/
def mplStrncpy (buf : List Char) (p : Int) (src : CStr) (n : Nat) :
    Except Fault (List Char × Bool) :=
  if n = 0 then .ok (buf, false)
  else if src.length < n then (storeAll buf p (src.chars ++ ['\x00'])).map (·, false)
  else do
    let buf ← storeAll buf p (src.chars.take n)
    let buf ← store buf (p + n - 1) '\x00'
    pure (buf, true)

/-! ## Writes that fit -/

/-- `*--str = '\0'` over the last byte of a text that a NUL follows. -/
theorem store_last_nul {buf x : List Char} {p : Int} (h0 : 0 ≤ p) (hx : x ≠ [])
    (h : p + x.length + 1 ≤ buf.length) :
    store (splice buf p.toNat (x ++ ['\x00'])) (p + x.length - 1) '\x00' =
      .ok (splice buf p.toNat (x.dropLast ++ ['\x00', '\x00'])) := by
  obtain ⟨d, a, rfl⟩ : ∃ d a, x = d ++ [a] := ⟨_, _, (List.dropLast_append_getLast hx).symm⟩
  have hp : p.toNat ≤ buf.length := by omega
  have hd : p.toNat + d.length ≤ (splice buf p.toNat d).length := by
    simp only [splice, List.length_append, List.length_take]; omega
  simp only [List.length_append, List.length_singleton] at h ⊢
  have hlen : (splice buf p.toNat (d ++ [a] ++ ['\x00'])).length = buf.length :=
    length_splice (by simp only [List.length_append, List.length_singleton]; omega)
  rw [store, storeAll_of_le (by omega) (by rw [hlen, List.length_singleton]; omega),
    show (p + (d.length + 1 : Nat) - 1).toNat = p.toNat + d.length by omega,
    List.append_assoc, ← splice_splice hp, splice_overwrite hd, splice_splice hp]
  simp

/-- A `snprintf` whose text fits writes the text and its NUL. -/
theorem snprintf_of_lt {buf : List Char} {p : Int} {n : Nat} {t : CStr} (h0 : 0 ≤ p)
    (hn : t.length < n) (h : p + t.length + 1 ≤ buf.length) :
    snprintf buf p n t = .ok (splice buf p.toNat (t.chars ++ ['\x00'])) := by
  rw [snprintf, if_neg (by omega), List.take_of_length_le (by simp at hn; omega)]
  exact storeAll_of_le h0 (by simpa [Int.add_assoc] using h)

/-- An `MPL_strncpy` whose source fits copies it and its NUL, and is not cut. -/
theorem mplStrncpy_of_lt {buf : List Char} {p : Int} {n : Nat} {src : CStr} (h0 : 0 ≤ p)
    (hn : src.length < n) (h : p + src.length + 1 ≤ buf.length) :
    mplStrncpy buf p src n = .ok (splice buf p.toNat (src.chars ++ ['\x00']), false) := by
  have hl : p + (src.chars ++ ['\x00']).length ≤ buf.length := by
    simp only [List.length_append, List.length_singleton, CStr.length_eq] at h ⊢; omega
  rw [mplStrncpy, if_neg (by omega), if_pos hn, storeAll_of_le h0 hl]
  rfl

/-- A `snprintf` into `n > 0` bytes writes the text cut to `n - 1` bytes and its NUL. -/
theorem snprintf_of_pos {buf : List Char} {p : Int} {n : Nat} (t : CStr) (h0 : 0 ≤ p)
    (hn : 0 < n) (h : p + n ≤ buf.length) :
    snprintf buf p n t = .ok (splice buf p.toNat ((t.take (n - 1)).chars ++ ['\x00'])) := by
  have hl : (t.chars.take (n - 1) ++ ['\x00']).length ≤ n := by
    simp only [List.length_append, List.length_take, List.length_singleton]; omega
  rw [snprintf, if_neg (by omega)]
  exact storeAll_of_le h0 (by omega)

/-- `MPL_strncpy` into `n > 0` bytes leaves the source cut to `n - 1` bytes and a NUL, whether
it cut the copy or not. -/
theorem mplStrncpy_of_pos {buf : List Char} {p : Int} {n : Nat} (src : CStr) (h0 : 0 ≤ p)
    (hn : 0 < n) (h : p + n ≤ buf.length) :
    ∃ cut, mplStrncpy buf p src n =
      .ok (splice buf p.toNat ((src.take (n - 1)).chars ++ ['\x00']), cut) := by
  have hp : p.toNat ≤ buf.length := by omega
  unfold mplStrncpy
  rw [if_neg (by omega)]
  split
  · next hs =>
    rw [storeAll_of_le h0 (by simp only [List.length_append, List.length_singleton,
      CStr.length_eq] at hs ⊢; omega), CStr.take_chars,
      List.take_of_length_le (by simp only [CStr.length_eq] at hs; omega)]
    exact ⟨false, rfl⟩
  · next hs =>
    simp only [CStr.length_eq] at hs
    have hw : (src.chars.take (n - 1)).length = n - 1 := by simp only [List.length_take]; omega
    have hl : (src.chars.take n).length = n := by simp only [List.length_take]; omega
    have ht := (List.take_append_drop (n - 1) (src.chars.take n)).symm
    rw [List.take_take, Nat.min_eq_left (by omega)] at ht
    have hb : (splice buf p.toNat (src.chars.take n)).length = buf.length :=
      length_splice (by omega)
    refine ⟨true, ?_⟩
    rw [storeAll_of_le h0 (by omega), ok_bind, store,
      storeAll_of_le (by omega) (by rw [hb, List.length_singleton]; omega),
      show (p + n - 1).toNat = p.toNat + (src.chars.take (n - 1)).length by omega, ht,
      splice_append_overwrite hp (by simp only [List.length_drop, List.length_singleton]; omega)]
    rfl

/-- A NUL stored at `p[n - 1]` after a text and its NUL that fit in `n` bytes: the bytes from
`p` are still the text and a NUL, and `n` bytes in all are written. -/
theorem store_nul_within {buf x : List Char} {p : Int} {n : Nat} (h0 : 0 ≤ p)
    (hx : x.length < n) (h : p + n ≤ buf.length) :
    ∃ rest, store (splice buf p.toNat (x ++ ['\x00'])) (p + n - 1) '\x00' =
      .ok (splice buf p.toNat (x ++ '\x00' :: rest)) ∧ x.length + 1 + rest.length = n := by
  have hp : p.toNat ≤ buf.length := by omega
  have hlen : (splice buf p.toNat (x ++ ['\x00'])).length = buf.length :=
    length_splice (by simp only [List.length_append, List.length_singleton]; omega)
  have hst : store (splice buf p.toNat (x ++ ['\x00'])) (p + n - 1) '\x00' =
      .ok (splice (splice buf p.toNat (x ++ ['\x00'])) (p + n - 1).toNat ['\x00']) :=
    storeAll_of_le (by omega) (by rw [hlen, List.length_singleton]; omega)
  rw [hst]
  by_cases hcut : x.length + 1 = n
  · refine ⟨[], ?_, by simp only [List.length_nil]; omega⟩
    rw [show (p + n - 1).toNat = p.toNat + x.length by omega,
      splice_append_overwrite hp (by simp only [List.length_singleton]; omega)]
  · have hk : p.toNat + (x ++ ['\x00']).length + (n - x.length - 2) ≤ buf.length := by
      simp only [List.length_append, List.length_singleton]; omega
    obtain ⟨mid, hmid⟩ : ∃ mid,
        (buf.drop (p.toNat + (x ++ ['\x00']).length)).take (n - x.length - 2) = mid := ⟨_, rfl⟩
    have hml : mid.length = n - x.length - 2 := by
      rw [← hmid, List.length_take, List.length_drop]; omega
    refine ⟨mid ++ ['\x00'], ?_,
      by simp only [List.length_append, hml, List.length_singleton]; omega⟩
    rw [← splice_append_drop_take hk, hmid, show (p + n - 1).toNat = p.toNat +
      (x ++ ['\x00'] ++ mid).length by
        simp only [List.length_append, List.length_singleton, hml]; omega,
      splice_splice hp]
    simp only [List.append_assoc, List.singleton_append, List.cons_append, List.nil_append]

/-- The string a write of `t` and a NUL leaves at its start is `t`, whatever follows the NUL. -/
theorem cstrAt_splice {buf rest : List Char} {p : Nat} {t : CStr}
    (h : p + t.length + 1 ≤ buf.length) :
    cstrAt (splice buf p (t.chars ++ '\x00' :: rest)) p = .ok t := by
  have hp : p ≤ buf.length := by omega
  simp only [cstrAt, Int.toNat_ofNat, drop_splice hp, List.append_assoc, List.cons_append,
    CStr.ofChars_append_nul, List.mem_append, List.mem_cons, true_or, or_true, and_true]
  simp only [ite_eq_left_iff, reduceCtorEq]
  omega

end MpichErrhan
