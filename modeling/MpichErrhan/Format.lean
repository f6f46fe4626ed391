import MpichErrhan.Config

/-!
# `vsnprintf_mpi`: the diagnostic template renderer

`vsnprintf_mpi(str, maxlen, fmt, list)` copies the literal text of `fmt` and replaces each
`%x` directive by the text of one argument of `list`: numbers, strings, and MPI handles, where
the well-known handles and sentinels print by name (`MPI_COMM_WORLD`, `MPI_ANY_SOURCE`, …) and
the others as `kind=0x…`.  A directive it does not handle ends the rendering at once.

The model follows the loop of the C routine: each literal run is copied by `memcpy`, cut to the
remaining `maxlen`; each directive is written by `MPL_strncpy` or `snprintf` bounded by
`maxlen`, and the write is measured back with `strlen`; `maxlen` is a `size_t`
(`BitVec 64`) and is decremented by that length.  The recursion runs over the characters of the
template, so the model evaluates.

`directiveText` is the text of one directive with unlimited room, so it is also the reference
rendering of a template: `renderReference`.  The loop keeps the directive's text and the
write routine the C code uses for it (`DirectiveWrite`).

With room for the whole rendering and a NUL, the routine writes exactly the reference rendering
(`vsnprintfMpi_renders`).  Without it, the routine breaks its own bound: once a literal has used
the last byte of the room, the next directive is written with `maxlen = 0`, so nothing is
written, and the `strlen` that measures it reads the byte past the object
(`vsnprintfMpi_reads_past_end`).
-/

namespace MpichErrhan

/-! ## Arguments and number formatting -/

/-- One argument of a `va_list`, as the caller passed it. -/
inductive VaArg
  | int (v : CInt)
  | longLong (v : BitVec 64)
  | str (s : Option CStr)
  | ptr (p : Nat)
deriving DecidableEq

/-- `va_arg(list, int)`; an argument of another type reads as `0`. -/
def vaArgInt : List VaArg → CInt × List VaArg
  | .int v :: r => (v, r)
  | _ :: r => (0, r)
  | [] => (0, [])

/-- `va_arg(list, long long)`. -/
def vaArgLongLong : List VaArg → BitVec 64 × List VaArg
  | .longLong v :: r => (v, r)
  | _ :: r => (0, r)
  | [] => (0, [])

/-- `va_arg(list, char *)`. -/
def vaArgStr : List VaArg → Option CStr × List VaArg
  | .str s :: r => (s, r)
  | _ :: r => (none, r)
  | [] => (none, [])

/-- `va_arg(list, void *)`. -/
def vaArgPtr : List VaArg → Nat × List VaArg
  | .ptr p :: r => (p, r)
  | _ :: r => (0, r)
  | [] => (0, [])

/-- `%d` of an `int`, `%lld` of a `long long`. -/
def decimal (v : Int) : CStr := (toString v : String)

/-- `%x`: lower-case hexadecimal of the unsigned value. -/
def hex (n : Nat) : CStr := CStr.ofChars (Nat.toDigits 16 n)

/-- `%08x`. -/
def hex08 (n : Nat) : CStr :=
  CStr.ofChars (List.replicate (8 - (Nat.toDigits 16 n).length) '0' ++ Nat.toDigits 16 n)

/-! ## The named constants -/

/-- The name `GetMPIOpString` prints for an operation. -/
def MpiOp.name : MpiOp → String
  | .opNull => "MPI_OP_NULL" | .max => "MPI_MAX" | .min => "MPI_MIN" | .sum => "MPI_SUM"
  | .prod => "MPI_PROD" | .land => "MPI_LAND" | .band => "MPI_BAND" | .lor => "MPI_LOR"
  | .bor => "MPI_BOR" | .lxor => "MPI_LXOR" | .bxor => "MPI_BXOR" | .minloc => "MPI_MINLOC"
  | .maxloc => "MPI_MAXLOC" | .replace => "MPI_REPLACE" | .noOp => "MPI_NO_OP"
  | .equal => "MPIX_EQUAL"

/-- The cases of the `switch` of `GetMPIOpString`, in order. -/
def MpiOp.cases : List MpiOp :=
  [.opNull, .max, .min, .sum, .prod, .land, .band, .lor, .bor, .lxor, .bxor, .minloc, .maxloc,
   .replace, .noOp, .equal]

/-- The name `get_keyval_string` prints for a keyval. -/
def MpiKeyval.name : MpiKeyval → String
  | .keyvalInvalid => "MPI_KEYVAL_INVALID" | .tagUb => "MPI_TAG_UB" | .host => "MPI_HOST"
  | .io => "MPI_IO" | .wtimeIsGlobal => "MPI_WTIME_IS_GLOBAL"
  | .universeSize => "MPI_UNIVERSE_SIZE" | .lastusedcode => "MPI_LASTUSEDCODE"
  | .appnum => "MPI_APPNUM" | .winBase => "MPI_WIN_BASE" | .winSize => "MPI_WIN_SIZE"
  | .winDispUnit => "MPI_WIN_DISP_UNIT" | .winCreateFlavor => "MPI_WIN_CREATE_FLAVOR"
  | .winModel => "MPI_WIN_MODEL"

/-- The cases of the `switch` of `get_keyval_string`, in order. -/
def MpiKeyval.cases : List MpiKeyval :=
  [.keyvalInvalid, .tagUb, .host, .io, .wtimeIsGlobal, .universeSize, .lastusedcode, .appnum,
   .winBase, .winSize, .winDispUnit, .winCreateFlavor, .winModel]

/-- The name `GetAssertString` prints for an assertion bit. -/
def MpiMode.name : MpiMode → String
  | .nostore => "MPI_MODE_NOSTORE" | .nocheck => "MPI_MODE_NOCHECK"
  | .noput => "MPI_MODE_NOPUT" | .noprecede => "MPI_MODE_NOPRECEDE"
  | .nosucceed => "MPI_MODE_NOSUCCEED"

variable (K : Config)

/-- `snprintf` into one of the 64-byte `default_str` buffers. -/
def defaultStr (t : CStr) : CStr := t.take 63

/-- `GetMPIOpString`. -/
def getMPIOpString (o : CInt) : CStr :=
  match MpiOp.cases.find? (fun m => K.handles.op m = o) with
  | some m => m.name
  | none => defaultStr ("op=0x" ++ hex o.toNat)

/-- `get_keyval_string`. -/
def getKeyvalString (k : CInt) : CStr :=
  match MpiKeyval.cases.find? (fun m => K.handles.keyval m = k) with
  | some m => m.name
  | none => defaultStr ("keyval=0x" ++ hex k.toNat)

/-- `GetAssertString`: the names of the set bits, `|`-separated, then the leftover bits. -/
def getAssertString (d : CInt) : CStr :=
  if d = 0 then "assert=0"
  else
    let step (acc : CStr × CInt) (m : MpiMode) : CStr × CInt :=
      if acc.2 &&& K.handles.mode m ≠ 0 then
        ((if acc.1.length = 0 then acc.1 else acc.1 ++ " | ") ++ m.name,
         acc.2 ^^^ K.handles.mode m)
      else acc
    let r := [MpiMode.nostore, .nocheck, .noput, .noprecede, .nosucceed].foldl step (∅, d)
    if r.2 = 0 then r.1
    else if r.1.length = 0 then "assert=0x" ++ hex r.2.toNat
    else r.1 ++ " | 0x" ++ hex r.2.toNat

/-- `GetDTypeString`. -/
def getDTypeString (d : CInt) : CStr :=
  let H := K.handles
  if H.invalidDatatype d then "INVALID DATATYPE"
  else if d = H.datatypeNull then "MPI_DATATYPE_NULL"
  else if d = 0 then "dtype=0x0"
  else
    let combiner := H.typeGetCombiner d
    if combiner = H.combinerNamed then
      let d := H.datatypeGetOrigBuiltin d
      match H.datatypeBuiltinToString d with
      | none => defaultStr ("dtype=0x" ++ hex08 d.toNat)
      | some s => s
    else
      match H.datatypeCombinerToString combiner with
      | none => defaultStr ("dtype=USER<0x" ++ hex08 d.toNat ++ ">")
      | some s => defaultStr ("dtype=USER<" ++ s ++ ">")

/-! ## One directive -/

/-- How a directive's text reaches the buffer. -/
inductive WriteKind
  | strncpy
  | snprintf
deriving DecidableEq

/-- The write of one directive: the routine and its text. -/
structure DirectiveWrite where
  kind : WriteKind
  text : CStr

/-- A handle printed by name when it equals `null`, else as `kind=0x…`. -/
def nullOrHex (v null : CInt) (nullName kind : String) : DirectiveWrite :=
  if v = null then ⟨.strncpy, nullName⟩ else ⟨.snprintf, (kind : CStr) ++ hex v.toNat⟩

/-- The `switch` of `vsnprintf_mpi`: the write for directive `d` and the arguments left;
`none` for the directives it does not handle (`%F` only exists with ROMIO). -/
def directiveText (d : Char) (args : List VaArg) : Option (DirectiveWrite × List VaArg) :=
  let H := K.handles
  let int := vaArgInt args
  match d with
  | 's' =>
    let (s, r) := vaArgStr args
    some (⟨.strncpy, s.getD "<NULL>"⟩, r)
  | 'd' => some (⟨.snprintf, decimal int.1.toInt⟩, int.2)
  | 'L' =>
    let (v, r) := vaArgLongLong args
    some (⟨.snprintf, decimal v.toInt⟩, r)
  | 'x' => some (⟨.snprintf, hex int.1.toNat⟩, int.2)
  | 'X' =>
    let (v, r) := vaArgLongLong args
    some (⟨.snprintf, hex v.toNat⟩, r)
  | 'i' =>
    some (if int.1 = H.anySource then ⟨.strncpy, "MPI_ANY_SOURCE"⟩
      else if int.1 = H.procNull then ⟨.strncpy, "MPI_PROC_NULL"⟩
      else if int.1 = H.root then ⟨.strncpy, "MPI_ROOT"⟩
      else ⟨.snprintf, decimal int.1.toInt⟩, int.2)
  | 't' =>
    some (if int.1 = H.anyTag then ⟨.strncpy, "MPI_ANY_TAG"⟩
      else ⟨.snprintf, decimal int.1.toInt⟩, int.2)
  | 'p' =>
    let (p, r) := vaArgPtr args
    some (if p = H.inPlace then ⟨.strncpy, "MPI_IN_PLACE"⟩
      else ⟨.snprintf, K.formatPointer p⟩, r)
  | 'C' =>
    some (if int.1 = H.commWorld then ⟨.strncpy, "MPI_COMM_WORLD"⟩
      else if int.1 = H.commSelf then ⟨.strncpy, "MPI_COMM_SELF"⟩
      else nullOrHex int.1 H.commNull "MPI_COMM_NULL" "comm=0x", int.2)
  | 'I' => some (nullOrHex int.1 H.infoNull "MPI_INFO_NULL" "info=0x", int.2)
  | 'D' => some (⟨.snprintf, getDTypeString K int.1⟩, int.2)
  | 'F' =>
    if K.haveRomio then
      let (f, r) := vaArgPtr args
      some (if f = H.fileNull then ⟨.strncpy, "MPI_FILE_NULL"⟩
        else ⟨.snprintf, ("file=0x" : CStr) ++ hex f⟩, r)
    else none
  | 'W' => some (nullOrHex int.1 H.winNull "MPI_WIN_NULL" "win=0x", int.2)
  | 'A' => some (⟨.snprintf, getAssertString K int.1⟩, int.2)
  | 'G' => some (nullOrHex int.1 H.groupNull "MPI_GROUP_NULL" "group=0x", int.2)
  | 'O' => some (⟨.snprintf, getMPIOpString K int.1⟩, int.2)
  | 'R' => some (nullOrHex int.1 H.requestNull "MPI_REQUEST_NULL" "req=0x", int.2)
  | 'E' => some (nullOrHex int.1 H.errhandlerNull "MPI_ERRHANDLER_NULL" "errh=0x", int.2)
  | 'S' => some (nullOrHex int.1 H.sessionNull "MPI_SESSION_NULL" "session=0x", int.2)
  | 'K' => some (⟨.snprintf, getKeyvalString K int.1⟩, int.2)
  | 'c' =>
    let (v, r) := vaArgLongLong args
    some (⟨.snprintf, decimal v.toInt⟩, r)
  | _ => none

/-- The write of a directive, bounded by `maxlen`. -/
def DirectiveWrite.run (w : DirectiveWrite) (buf : List Char) (str : Int) (maxlen : Nat) :
    Except Fault (List Char) :=
  match w.kind with
  | .strncpy => (mplStrncpy buf str w.text maxlen).map Prod.fst
  | .snprintf => snprintf buf str maxlen w.text

/-- A directive's write with room for its text and a NUL writes both. -/
theorem DirectiveWrite.run_of_lt (w : DirectiveWrite) {buf : List Char} {str : Int} {n : Nat}
    (h0 : 0 ≤ str) (hn : w.text.length < n) (h : str + w.text.length + 1 ≤ buf.length) :
    w.run buf str n = .ok (splice buf str.toNat (w.text.chars ++ ['\x00'])) := by
  unfold DirectiveWrite.run
  split
  · rw [mplStrncpy_of_lt h0 hn h]
    rfl
  · exact snprintf_of_lt h0 hn h

/-- With room, the `strlen` after a directive's write measures exactly its text. -/
theorem DirectiveWrite.strlen_run (w : DirectiveWrite) {buf : List Char} {p : Int} {n : Nat}
    (h0 : 0 ≤ p) (hn : w.text.length < n) (h : p + w.text.length + 1 ≤ buf.length) {β : Type}
    (k : List Char → Nat → Except Fault β) :
    (w.run buf p n >>= fun b => strlen b p >>= k b) =
      k (splice buf p.toNat (w.text.chars ++ ['\x00'])) w.text.length := by
  obtain ⟨q, rfl⟩ : ∃ q : Nat, p = q := ⟨p.toNat, by omega⟩
  rw [w.run_of_lt h0 hn h, ok_bind, strlen, Int.toNat_ofNat, cstrAt_splice (by omega)]
  rfl

/-! ## The loop -/

/-- The loop of `vsnprintf_mpi` over the template: `lit` is the literal run read since the last
directive, `str` and `maxlen` the output position and room. -/
def vsnprintfMpiGo (buf : List Char) (str : Int) (maxlen : BitVec 64) (lit : List Char) :
    List Char → List VaArg → Except Fault (List Char)
  | [], _ =>
    if lit = [] then .ok buf else (mplStrncpy buf str (CStr.ofChars lit) maxlen.toNat).map Prod.fst
  | '%' :: rest, args => do
    let len := min maxlen.toNat lit.length
    let buf ← storeAll buf str (lit.take len)
    let str := str + len
    let maxlen := maxlen - BitVec.ofNat 64 len
    match rest with
    | [] => .ok buf
    | d :: rest =>
      match directiveText K d args with
      | none => .ok buf
      | some (w, args) =>
        let buf ← w.run buf str maxlen.toNat
        let len ← strlen buf str
        vsnprintfMpiGo buf (str + len) (maxlen - BitVec.ofNat 64 len) [] rest args
  | c :: rest, args => vsnprintfMpiGo buf str maxlen (lit ++ [c]) rest args

/-- `vsnprintf_mpi(str, maxlen, fmt, list)`, writing into the object `buf` from offset `str`.
(The `MPL_strdup` of the template is taken to succeed.) -/
def vsnprintfMpi (buf : List Char) (str : Int) (maxlen : BitVec 64) (fmt : CStr)
    (args : List VaArg) : Except Fault (List Char) :=
  vsnprintfMpiGo K buf str maxlen [] fmt.chars args

/-- The reference rendering: literals verbatim, each handled directive by its text with
unlimited room; rendering stops at a directive the routine does not handle. -/
def renderReference (lit : List Char) : List Char → List VaArg → List Char
  | [], _ => lit
  | '%' :: [], _ => lit
  | '%' :: d :: rest, args =>
    match directiveText K d args with
    | none => lit
    | some (w, args) => lit ++ w.text.chars ++ renderReference [] rest args
  | c :: rest, args => renderReference (lit ++ [c]) rest args

/-! ## With room for the rendering

When `maxlen` leaves room for the whole reference rendering and a NUL, every literal and every
directive is written whole, each `strlen` measures exactly the text just written, and the next
write starts where it ends.  The loop then refines `renderReference`. -/

/-- `maxlen -= len` with `len` at most `maxlen`: no wrap. -/
theorem toNat_sub_ofNat {x : BitVec 64} {n : Nat} (h : n ≤ x.toNat) :
    (x - BitVec.ofNat 64 n).toNat = x.toNat - n := by
  have := x.isLt
  rw [BitVec.toNat_sub, BitVec.toNat_ofNat]
  omega

/-- The run lemma: from any point of the template, with room for the rest of the rendering,
the loop writes the rest of the rendering from `str`, then a NUL or nothing. -/
theorem vsnprintfMpiGo_renders {lit fmt : List Char} {args : List VaArg}
    (hnul : '\x00' ∉ lit ++ fmt) {buf : List Char} {str : Int} {maxlen : BitVec 64}
    (h0 : 0 ≤ str)
    (hroom : (renderReference K lit fmt args).length < maxlen.toNat)
    (hbuf : str + (renderReference K lit fmt args).length < buf.length) :
    ∃ tail ∈ [[], ['\x00']], vsnprintfMpiGo K buf str maxlen lit fmt args =
      .ok (splice buf str.toNat (renderReference K lit fmt args ++ tail)) := by
  induction lit, fmt, args using renderReference.induct K generalizing buf str maxlen with
  | case1 lit args =>
    rw [renderReference] at hroom hbuf ⊢
    rw [vsnprintfMpiGo]
    split
    · next hl => subst hl; exact ⟨[], by simp, by simp only [List.append_nil, splice_nil]⟩
    · have hl : (CStr.ofChars lit).chars = lit :=
        CStr.ofChars_chars_of_nul_not_mem (by simpa using hnul)
      refine ⟨['\x00'], by simp, ?_⟩
      rw [mplStrncpy_of_lt h0 (by simp only [CStr.length_eq, hl]; omega)
        (by simp only [CStr.length_eq, hl]; omega), hl]
      rfl
  | case2 lit args =>
    rw [renderReference] at hroom hbuf ⊢
    refine ⟨[], by simp, ?_⟩
    rw [vsnprintfMpiGo, min_eq_right hroom.le, List.take_length, storeAll_of_le h0 (by omega),
      ok_bind, List.append_nil]
  | case3 lit d rest args hd =>
    rw [renderReference, hd] at hroom hbuf ⊢
    refine ⟨[], by simp, ?_⟩
    rw [vsnprintfMpiGo, min_eq_right hroom.le, List.take_length, storeAll_of_le h0 (by omega),
      ok_bind, List.append_nil]
    dsimp only
    rw [hd]
  | case4 lit d rest args w args' hd ih =>
    rw [renderReference, hd] at hroom hbuf ⊢
    simp only [List.length_append, CStr.length_eq] at hroom hbuf
    have hnul' : '\x00' ∉ [] ++ rest := by
      simp only [List.nil_append]; exact fun h => hnul (by simp [h])
    have hb₁ : (splice buf str.toNat lit).length = buf.length := length_splice (by omega)
    have hb₂ : (splice buf str.toNat (lit ++ (w.text.chars ++ ['\x00']))).length = buf.length :=
      length_splice (by simp only [List.length_append, List.length_singleton]; omega)
    have hm₁ : (maxlen - BitVec.ofNat 64 lit.length).toNat = maxlen.toNat - lit.length :=
      toNat_sub_ofNat (by omega)
    obtain ⟨tail, htail, hgo⟩ := @ih hnul'
      (splice buf str.toNat (lit ++ (w.text.chars ++ ['\x00']))) (str + lit.length + w.text.length)
      (maxlen - BitVec.ofNat 64 lit.length - BitVec.ofNat 64 w.text.length) (by omega)
      (by rw [toNat_sub_ofNat (by rw [hm₁]; simp only [CStr.length_eq]; omega), hm₁]
          simp only [CStr.length_eq]; omega)
      (by rw [hb₂]; simp only [CStr.length_eq]; omega)
    rw [vsnprintfMpiGo, min_eq_right (by omega), List.take_length, storeAll_of_le h0 (by omega),
      ok_bind]
    dsimp only
    rw [hd]
    dsimp only
    rw [w.strlen_run (by omega) (by rw [hm₁]; simp only [CStr.length_eq]; omega)
        (by rw [hb₁]; simp only [CStr.length_eq]; omega),
      show (str + lit.length).toNat = str.toNat + lit.length by omega, splice_splice (by omega),
      hgo, show (str + lit.length + w.text.length).toNat =
        str.toNat + (lit ++ w.text.chars).length by
        simp only [List.length_append, CStr.length_eq]; omega, ← List.append_assoc]
    by_cases he : renderReference K [] rest args' ++ tail = []
    · refine ⟨['\x00'], by simp, ?_⟩
      rw [he, splice_nil, (List.append_eq_nil.mp he).1, List.append_nil]
    · refine ⟨tail, htail, ?_⟩
      rw [splice_append_overwrite (by omega)
        (by rw [List.length_singleton]; exact List.length_pos.mpr he)]
      simp only [List.append_assoc]
  | case5 lit c rest args h₁ h₂ ih =>
    have hc : c ≠ '%' := by
      rintro rfl
      cases rest with
      | nil => exact h₁ rfl rfl
      | cons d r => exact h₂ d r rfl rfl
    rw [renderReference.eq_4 K lit args c rest h₁ h₂] at hroom hbuf ⊢
    rw [vsnprintfMpiGo.eq_3 K buf str maxlen lit args c rest hc]
    exact ih (by simpa using hnul) h0 hroom hbuf

/-- With room for the whole reference rendering and a NUL, `vsnprintf_mpi` writes the rendering
from `str` and then a NUL or nothing, and no other byte of the object.  (No NUL follows when it
stops at a directive it does not handle right after literal text, or when the template is
empty.) -/
theorem vsnprintfMpi_renders (fmt : CStr) (args : List VaArg) {buf : List Char} {str : Int}
    {maxlen : BitVec 64} (h0 : 0 ≤ str)
    (hroom : (renderReference K [] fmt.chars args).length < maxlen.toNat)
    (hbuf : str + (renderReference K [] fmt.chars args).length < buf.length) :
    ∃ tail ∈ [[], ['\x00']], vsnprintfMpi K buf str maxlen fmt args =
      .ok (splice buf str.toNat (renderReference K [] fmt.chars args ++ tail)) :=
  vsnprintfMpiGo_renders K (by simpa using fmt.nul_not_mem) h0 hroom hbuf

/-- `"%d!"` with `42` into eight bytes: the rendering `42!` fits with its NUL. -/
theorem vsnprintfMpi_renders_int :
    (0 : Int) ≤ 0 ∧
      (renderReference Config.sample [] ("%d!" : CStr).chars [.int 42]).length <
        (8 : BitVec 64).toNat ∧
      (0 : Int) + (renderReference Config.sample [] ("%d!" : CStr).chars [.int 42]).length <
        (List.replicate 8 '\x00').length ∧
      ∃ tail ∈ [[], ['\x00']], vsnprintfMpi Config.sample (List.replicate 8 '\x00') 0 8 "%d!"
        [.int 42] = .ok (splice (List.replicate 8 '\x00') (0 : Int).toNat
          (renderReference Config.sample [] ("%d!" : CStr).chars [.int 42] ++ tail)) :=
  ⟨le_refl _, by decide, by decide,
    vsnprintfMpi_renders Config.sample _ _ (le_refl _) (by decide) (by decide)⟩

/-! ## The bound is broken -/

/-- A literal that fills the room leaves `maxlen = 0`, and the `strlen` after the next
directive reads the byte past the object: `"%d!%d"` with `12345` and `7` into three bytes. -/
theorem vsnprintfMpi_reads_past_end :
    vsnprintfMpi K (List.replicate 3 '\x00') 0 3 "%d!%d" [.int 12345, .int 7] =
      .error .outOfBounds := rfl

end MpichErrhan
