import MpichErrhan.CString
import MpichErrhan.Errcode

/-!
# What `errutil.c` takes from outside: constants, message tables, settings

`errutil.c` reads three kinds of data it does not define.  The error classes and handle
constants of `mpi.h`; the message tables of the generated `defmsg.h` (`generic_err_msgs`,
`specific_err_msgs`, `class_to_index`); and the two control variables
`MPIR_CVAR_PRINT_ERROR_STACK` and `MPIR_CVAR_CHOP_ERROR_STACK`.  None of these is among the
sources, so a `Config` carries them all, and every result of this development holds for every
`Config` whose class constants are ordered as `mpi.h` orders them (`ErrClasses`).

The routines over this data are modelled here: `is_valid_error_class`, `checkValidErrcode`,
`get_class_msg`, the C string comparisons, and the sorted table scan that
`FindGenericMsgIndex` and `FindSpecificMsgIndex` share (`findMsgIndexFrom`, one definition with the
table as parameter).  On a table with intact guard words and strictly increasing keys, the scan's
early exit at a greater key never skips a match, so it returns what a full linear search
returns (`sorted_scan_agrees_linear`): `strcmp` is a strict order (`strcmp_swap`,
`strcmp_lt_trans`), so past a greater key every key is greater.

`Config.sample` is one configuration, with MPICH's MPI-1 class numbers, a four-entry generic
table and a one-entry specific table; the concrete runs of later files use it.
-/

namespace MpichErrhan

/-! ## Error classes -/

/-- The error classes of `mpi.h` that `errutil.c` names, with the order it relies on. -/
structure ErrClasses where
  mpiErrUnknown : Nat
  mpiErrOther : Nat
  mpiErrInStatus : Nat
  mpichErrLastClass : Nat
  mpichErrFirstMpix : Nat
  mpichErrLastMpix : Nat
  other_pos : 0 < mpiErrOther
  other_le : mpiErrOther ≤ mpichErrLastClass
  unknown_le : mpiErrUnknown ≤ mpichErrLastClass
  inStatus_le : mpiErrInStatus ≤ mpichErrLastClass
  inStatus_ne_other : mpiErrInStatus ≠ mpiErrOther
  lastClass_lt : mpichErrLastClass < mpichErrFirstMpix
  firstMpix_lt : mpichErrFirstMpix < mpichErrLastMpix
  lastMpix_lt : mpichErrLastMpix < 128

/-! ## Message tables -/

/-- One `msgpair` of `defmsg.h`: a short key, its message, and two guard words. -/
structure MsgEntry where
  sentinal1 : Nat
  shortName : CStr
  longName : CStr
  sentinal2 : Nat
deriving DecidableEq

/-- The guard test both table scans make before trusting an entry. -/
def MsgEntry.sentinelsOk (e : MsgEntry) : Bool :=
  e.sentinal1 = 0xacebad03 && e.sentinal2 = 0xcb0bfa11

/-- The handle values of `mpi.h` that `vsnprintf_mpi` prints by name. -/
inductive MpiOp
  | opNull | max | min | sum | prod | land | band | lor | bor | lxor | bxor
  | minloc | maxloc | replace | noOp | equal
deriving DecidableEq, Repr

/-- The keyval constants `get_keyval_string` prints by name. -/
inductive MpiKeyval
  | keyvalInvalid | tagUb | host | io | wtimeIsGlobal | universeSize | lastusedcode
  | appnum | winBase | winSize | winDispUnit | winCreateFlavor | winModel
deriving DecidableEq, Repr

/-- The `MPI_MODE_*` assertion bits `GetAssertString` prints by name. -/
inductive MpiMode
  | nostore | nocheck | noput | noprecede | nosucceed
deriving DecidableEq, Repr

/-- Handle constants of `mpi.h` and the datatype services of `GetDTypeString`
(`MPIR_Type_get_combiner` and the builtin and combiner name tables), none among the sources. -/
structure MpiHandles where
  anySource : CInt
  procNull : CInt
  root : CInt
  anyTag : CInt
  inPlace : Nat
  commWorld : CInt
  commSelf : CInt
  commNull : CInt
  infoNull : CInt
  fileNull : Nat
  winNull : CInt
  groupNull : CInt
  requestNull : CInt
  errhandlerNull : CInt
  sessionNull : CInt
  datatypeNull : CInt
  errorsAreFatal : CInt
  errorsReturn : CInt
  errorsThrowExceptions : CInt
  errorsAbort : CInt
  /-- The four builtin error handlers have four handles. -/
  errors_nodup : [errorsAreFatal, errorsReturn, errorsThrowExceptions, errorsAbort].Nodup
  op : MpiOp → CInt
  keyval : MpiKeyval → CInt
  mode : MpiMode → CInt
  /-- `HANDLE_GET_MPI_KIND(d) != MPIR_DATATYPE || (HANDLE_GET_KIND(d) == HANDLE_KIND_INVALID
  && d != MPI_DATATYPE_NULL)`. -/
  invalidDatatype : CInt → Bool
  typeGetCombiner : CInt → CInt
  combinerNamed : CInt
  datatypeGetOrigBuiltin : CInt → CInt
  datatypeBuiltinToString : CInt → Option CStr
  datatypeCombinerToString : CInt → Option CStr

/-- The data `errutil.c` reads from `mpi.h`, `defmsg.h`, the control variables and the C
library's own formatting (`%p`, and the one-`int` format of a user code message). -/
structure Config extends ErrClasses where
  genericErrMsgs : List MsgEntry
  specificErrMsgs : List MsgEntry
  classToIndex : List Nat
  handles : MpiHandles
  haveRomio : Bool
  printErrorStack : Bool
  chopErrorStack : Int
  formatPointer : Nat → CStr
  formatInt : CStr → CInt → CStr
  errcodeToString : Option (CInt → CStr)
  /-- Every generic index plus one fits the 11 bits of the generic field. -/
  generic_fits : genericErrMsgs.length < 2048

variable (K : Config)

/-- `MPIR_Err_stack_init`: a negative chop width becomes the default of 80 columns. -/
def mpirErrStackInit : Config :=
  if K.chopErrorStack < 0 then { K with chopErrorStack := 80 } else K

/-! ## Classes -/

/-- `is_valid_error_class`: a built-in class or an MPIX class. -/
def isValidErrorClass (errcode : CInt) : Bool :=
  (0 ≤ errcode.toInt && errcode.toInt ≤ K.mpichErrLastClass) ||
    (K.mpichErrFirstMpix < errcode.toInt && errcode.toInt ≤ K.mpichErrLastMpix)

/-- A valid class is at most the last MPIX class. -/
theorem isValidErrorClass_le {c : CInt} (h : isValidErrorClass K c = true) :
    c.toNat ≤ K.mpichErrLastMpix := by
  have := K.lastClass_lt; have := K.firstMpix_lt; have := K.lastMpix_lt
  simp only [isValidErrorClass, Bool.or_eq_true, Bool.and_eq_true, decide_eq_true_eq] at h
  rw [BitVec.toInt_eq_toNat_cond] at h
  split at h <;> omega

/-- A valid class fits the class field. -/
theorem isValidErrorClass_lt {c : CInt} (h : isValidErrorClass K c = true) : c.toNat < 128 :=
  (isValidErrorClass_le K h).trans_lt K.lastMpix_lt

/-- `checkValidErrcode`: a code whose class lies past the last MPIX class gets class
`MPI_ERR_UNKNOWN`; `error_class` is `ERROR_GET_CLASS` of the code. -/
def checkValidErrcode (errorClass errcode : CInt) : CInt :=
  if errorClass.toInt > K.mpichErrLastMpix then
    (errcode &&& ~~~errorClassMask) ||| BitVec.ofNat 32 K.mpiErrUnknown
  else errcode

/-- `generic_err_msgs[i].long_name`, with the bound the C array has. -/
def genericLongName (i : Nat) : Except Fault CStr :=
  match K.genericErrMsgs[i]? with
  | some e => .ok e.longName
  | none => .error .outOfBounds

/-- `get_class_msg`. -/
def getClassMsg (errorClass : CInt) : Except Fault CStr :=
  if isValidErrorClass K errorClass then
    match K.classToIndex[errorClass.toNat]? with
    | some i => genericLongName K i
    | none => .error .outOfBounds
  else .ok "Unknown error class"

/-! ## The sorted table scan -/

/-- `strcmp`: lexicographic over the bytes as `unsigned char`, a prefix first. -/
def strcmp : List Char → List Char → Ordering
  | [], [] => .eq
  | [], _ :: _ => .lt
  | _ :: _, [] => .gt
  | a :: as, b :: bs =>
    if a.toNat % 256 < b.toNat % 256 then .lt
    else if b.toNat % 256 < a.toNat % 256 then .gt
    else strcmp as bs

/-- `strncmp(a, b, n)`: `strcmp` of the first `n` bytes of each. -/
def strncmp (a b : List Char) (n : Nat) : Ordering :=
  strcmp (a.take n) (b.take n)

/-- The loop of `FindGenericMsgIndex` and `FindSpecificMsgIndex` from entry `i` on: a bad
guard word ends the scan; an equal key is found; a greater key that `msg` does not prefix
ends the scan with `-1`. -/
def findMsgIndexFrom (msg : CStr) : Nat → List MsgEntry → Int
  | _, [] => -1
  | i, e :: es =>
    if !e.sentinelsOk then -1
    else match strcmp e.shortName.chars msg.chars with
      | .eq => i
      | .gt =>
        if strncmp e.shortName.chars msg.chars msg.length ≠ .eq then -1
        else findMsgIndexFrom msg (i + 1) es
      | .lt => findMsgIndexFrom msg (i + 1) es

/-- `FindGenericMsgIndex`. -/
def findGenericMsgIndex (msg : CStr) : Int := findMsgIndexFrom msg 0 K.genericErrMsgs

/-- `FindSpecificMsgIndex`. -/
def findSpecificMsgIndex (msg : CStr) : Int := findMsgIndexFrom msg 0 K.specificErrMsgs

/-- The scan returns `-1` or an index of the table. -/
theorem findMsgIndexFrom_range (msg : CStr) (i : Nat) (es : List MsgEntry) :
    findMsgIndexFrom msg i es = -1 ∨
      (i ≤ findMsgIndexFrom msg i es ∧ findMsgIndexFrom msg i es < i + es.length) := by
  induction es generalizing i with
  | nil => exact .inl rfl
  | cons e es ih =>
    simp only [findMsgIndexFrom]
    split
    · exact .inl rfl
    · split
      · exact .inr ⟨Int.le_refl _, by simp only [List.length_cons]; omega⟩
      · split
        · exact .inl rfl
        · rcases ih (i + 1) with h | ⟨h₁, h₂⟩
          · exact .inl h
          · exact .inr ⟨by omega, by simp; omega⟩
      · rcases ih (i + 1) with h | ⟨h₁, h₂⟩
        · exact .inl h
        · exact .inr ⟨by omega, by simp; omega⟩

/-- `strcmp` finds two strings equal exactly when their bytes are. -/
theorem strcmp_eq_iff (a b : List Char) :
    strcmp a b = .eq ↔ a.map (·.toNat % 256) = b.map (·.toNat % 256) := by
  induction a generalizing b with
  | nil => cases b <;> simp [strcmp]
  | cons x xs ih =>
    cases b with
    | nil => simp [strcmp]
    | cons y ys =>
      simp only [strcmp, List.map_cons, List.cons.injEq, ← ih]
      split
      · simp only [reduceCtorEq, false_iff]; omega
      · split
        · simp only [reduceCtorEq, false_iff]; omega
        · exact ⟨fun h => ⟨by omega, h⟩, And.right⟩

/-- `strcmp` the other way round gives the opposite answer. -/
theorem strcmp_swap (a b : List Char) : strcmp b a = (strcmp a b).swap := by
  induction a generalizing b with
  | nil => cases b <;> rfl
  | cons x xs ih =>
    cases b with
    | nil => rfl
    | cons y ys =>
      simp only [strcmp]
      by_cases h₁ : x.toNat % 256 < y.toNat % 256
      · simp only [h₁, if_true, if_neg (Nat.lt_asymm h₁), Ordering.swap]
      · by_cases h₂ : y.toNat % 256 < x.toNat % 256
        · simp only [h₁, h₂, if_true, if_false, Ordering.swap]
        · simp only [h₁, h₂, if_false, ih ys]

/-- `strcmp`'s order is transitive. -/
theorem strcmp_lt_trans {a b c : List Char} (hab : strcmp a b = .lt) (hbc : strcmp b c = .lt) :
    strcmp a c = .lt := by
  induction a generalizing b c with
  | nil => cases c with
    | nil => cases b <;> simp [strcmp] at hab hbc
    | cons _ _ => rfl
  | cons x xs ih =>
    cases b with
    | nil => simp [strcmp] at hab
    | cons y ys =>
      cases c with
      | nil => cases ys <;> simp [strcmp] at hbc
      | cons z zs =>
        simp only [strcmp] at hab hbc ⊢
        split at hab
        · have : x.toNat % 256 < z.toNat % 256 := by
            split at hbc
            · omega
            · split at hbc
              · cases hbc
              · omega
          rw [if_pos this]
        · split at hab
          · cases hab
          · split at hbc
            · rw [if_pos (by omega)]
            · split at hbc
              · cases hbc
              · rw [if_neg (by omega), if_neg (by omega)]
                exact ih hab hbc

/-- Two keys that `strcmp` equal to one string `strcmp` equal to each other. -/
theorem strcmp_eq_of_eq_of_eq {a b k : List Char} (ha : strcmp a k = .eq)
    (hb : strcmp b k = .eq) : strcmp a b = .eq := by
  rw [strcmp_eq_iff] at *
  exact ha.trans hb.symm

/-- A key after a key greater than `k` is greater than `k`. -/
theorem strcmp_gt_of_lt {a b k : List Char} (hak : strcmp a k = .gt) (hab : strcmp a b = .lt) :
    strcmp b k = .gt := by
  have hka : strcmp k a = .lt := by rw [strcmp_swap, hak]; rfl
  rw [strcmp_swap, strcmp_lt_trans hka hab]
  rfl

/-- An index the scan returns names an entry whose key `strcmp`s equal to `msg`. -/
theorem findMsgIndexFrom_found {msg : CStr} {i : Nat} {es : List MsgEntry}
    (h : 0 ≤ findMsgIndexFrom msg i es) :
    ∃ e, es[(findMsgIndexFrom msg i es).toNat - i]? = some e ∧
      strcmp e.shortName.chars msg.chars = .eq := by
  induction es generalizing i with
  | nil => exact absurd h (by decide : ¬(0 : Int) ≤ -1)
  | cons e es ih =>
    have hrest (h' : 0 ≤ findMsgIndexFrom msg (i + 1) es) :
        ∃ e', (e :: es)[(findMsgIndexFrom msg (i + 1) es).toNat - i]? = some e' ∧
          strcmp e'.shortName.chars msg.chars = .eq := by
      obtain ⟨e', he', hc⟩ := ih h'
      have := (findMsgIndexFrom_range msg (i + 1) es).resolve_left (by omega)
      refine ⟨e', ?_, hc⟩
      rw [show (findMsgIndexFrom msg (i + 1) es).toNat - i =
        (findMsgIndexFrom msg (i + 1) es).toNat - (i + 1) + 1 by omega, List.getElem?_cons_succ]
      exact he'
    cases hs : e.sentinelsOk
    · simp only [findMsgIndexFrom, hs, Bool.not_false, if_true] at h
      exact absurd h (by decide)
    · cases hc : strcmp e.shortName.chars msg.chars
      · simp only [findMsgIndexFrom, hs, hc, Bool.not_true] at h ⊢
        exact hrest h
      · simp only [findMsgIndexFrom, hs, hc, Bool.not_true]
        exact ⟨e, by simp, hc⟩
      · by_cases hp : strncmp e.shortName.chars msg.chars msg.length = .eq
        · simp only [findMsgIndexFrom, hs, hc, hp, Bool.not_true, ne_eq, not_true_eq_false]
            at h ⊢
          exact hrest h
        · simp only [findMsgIndexFrom, hs, hc, Bool.not_true, Bool.false_eq_true, if_false, ne_eq,
            hp, not_false_eq_true, if_true] at h
          exact absurd h (by decide)

/-- Over entries with intact guard words and keys all greater than `msg`, the scan ends with
`-1`, at an early exit or at the end of the table. -/
theorem findMsgIndexFrom_of_all_gt {msg : CStr} {es : List MsgEntry}
    (hs : ∀ e ∈ es, e.sentinelsOk = true)
    (hgt : ∀ e ∈ es, strcmp e.shortName.chars msg.chars = .gt) (i : Nat) :
    findMsgIndexFrom msg i es = -1 := by
  induction es generalizing i with
  | nil => rfl
  | cons e es ih =>
    have ih' := ih (fun e' h => hs e' (.tail _ h)) (fun e' h => hgt e' (.tail _ h)) (i + 1)
    simp only [findMsgIndexFrom, hs e (.head _), hgt e (.head _), Bool.not_true,
      Bool.false_eq_true, if_false]
    split
    · rfl
    · exact ih'

/-- Over entries with intact guard words and keys in strictly increasing `strcmp` order, the
scan from entry `i` returns the entry whose key `strcmp`s equal to `msg`, and `-1` when none
does. -/
theorem findMsgIndexFrom_of_pairwise {msg : CStr} {es : List MsgEntry}
    (hs : ∀ e ∈ es, e.sentinelsOk = true)
    (hsort : es.Pairwise fun a b => strcmp a.shortName.chars b.shortName.chars = .lt) (i : Nat) :
    (∀ (j : Nat) (e : MsgEntry), es[j]? = some e → strcmp e.shortName.chars msg.chars = .eq →
      findMsgIndexFrom msg i es = ((i + j : Nat) : Int)) ∧
    ((∀ e ∈ es, strcmp e.shortName.chars msg.chars ≠ .eq) → findMsgIndexFrom msg i es = -1) := by
  induction es generalizing i with
  | nil => exact ⟨fun j e h => by simp at h, fun _ => rfl⟩
  | cons e es ih =>
    obtain ⟨hlt, hsort'⟩ := List.pairwise_cons.mp hsort
    have hs' : ∀ e' ∈ es, e'.sentinelsOk = true := fun e' h => hs e' (.tail _ h)
    cases hc : strcmp e.shortName.chars msg.chars with
    | lt =>
      obtain ⟨ih₁, ih₂⟩ := ih hs' hsort' (i + 1)
      simp only [findMsgIndexFrom, hs e (.head _), Bool.not_true, Bool.false_eq_true, if_false, hc]
      refine ⟨fun j e' hj he' => ?_, fun hne => ih₂ fun e' h => hne e' (.tail _ h)⟩
      cases j with
      | zero =>
        simp only [List.getElem?_cons_zero, Option.some.injEq] at hj
        rw [← hj, hc] at he'
        cases he'
      | succ j =>
        rw [ih₁ j e' (by simpa only [List.getElem?_cons_succ] using hj) he', Nat.add_right_comm,
          Nat.add_assoc]
    | eq =>
      simp only [findMsgIndexFrom, hs e (.head _), Bool.not_true, Bool.false_eq_true, if_false, hc]
      refine ⟨fun j e' hj he' => ?_, fun hne => absurd hc (hne e (.head _))⟩
      cases j with
      | zero => rfl
      | succ j =>
        have he : strcmp e.shortName.chars e'.shortName.chars = .eq :=
          strcmp_eq_of_eq_of_eq hc he'
        rw [List.getElem?_cons_succ] at hj
        rw [hlt e' (List.getElem?_mem hj)] at he
        cases he
    | gt =>
      have hall : ∀ e' ∈ e :: es, strcmp e'.shortName.chars msg.chars = .gt := by
        intro e' h
        rcases List.mem_cons.mp h with rfl | h
        · exact hc
        · exact strcmp_gt_of_lt hc (hlt e' h)
      refine ⟨fun j e' hj he' => ?_, fun _ => findMsgIndexFrom_of_all_gt hs hall i⟩
      rw [hall e' (List.getElem?_mem hj)] at he'
      cases he'

/-! ## A sample configuration -/

/-- A table entry with intact guard words. -/
def MsgEntry.intact (shortName longName : String) : MsgEntry :=
  ⟨0xacebad03, shortName, longName, 0xcb0bfa11⟩

/-- MPICH's MPI-1 class numbers (`MPI_ERR_UNKNOWN` 13, `MPI_ERR_OTHER` 15,
`MPI_ERR_IN_STATUS` 17), with 79, 100 and 106 for the last class, the first MPIX class and
the last MPIX class. -/
def ErrClasses.sample : ErrClasses where
  mpiErrUnknown := 13
  mpiErrOther := 15
  mpiErrInStatus := 17
  mpichErrLastClass := 79
  mpichErrFirstMpix := 100
  mpichErrLastMpix := 106
  other_pos := by decide
  other_le := by decide
  unknown_le := by decide
  inStatus_le := by decide
  inStatus_ne_other := by decide
  lastClass_lt := by decide
  firstMpix_lt := by decide
  lastMpix_lt := by decide

/-- Handle values laid out as MPICH lays out its builtin handles. -/
def MpiHandles.sample : MpiHandles where
  anySource := BitVec.ofInt 32 (-2)
  procNull := BitVec.ofInt 32 (-1)
  root := BitVec.ofInt 32 (-3)
  anyTag := BitVec.ofInt 32 (-1)
  inPlace := 0xffffffffffffffff
  commWorld := 0x44000000
  commSelf := 0x44000001
  commNull := 0x04000000
  infoNull := 0x1c000000
  fileNull := 0
  winNull := 0x20000000
  groupNull := 0x08000000
  requestNull := 0x2c000000
  errhandlerNull := 0x14000000
  sessionNull := 0x6c000000
  datatypeNull := 0x0c000000
  errorsAreFatal := 0x54000000
  errorsReturn := 0x54000001
  errorsThrowExceptions := 0x54000002
  errorsAbort := 0x54000003
  errors_nodup := by decide
  op o := 0x58000000 + BitVec.ofNat 32 (MpiOp.toCtorIdx o)
  keyval k := 0x64400000 + BitVec.ofNat 32 (MpiKeyval.toCtorIdx k)
  mode m := BitVec.ofNat 32 (2 ^ MpiMode.toCtorIdx m * 1024)
  invalidDatatype _ := false
  typeGetCombiner _ := 0
  combinerNamed := 0
  datatypeGetOrigBuiltin d := d
  datatypeBuiltinToString _ := none
  datatypeCombinerToString _ := none

/-- C's `snprintf(buf, size, fmt, v)` for a format whose one conversion is `%d`: the bytes up to
the first `%d`, the decimal digits of `v`, and the rest. -/
def formatDecimal (v : CInt) : List Char → List Char
  | '%' :: 'd' :: rest => (toString v.toInt).toList ++ rest
  | c :: rest => c :: formatDecimal v rest
  | [] => []

/-- The sample configuration: a sorted four-entry generic table, class 0 named by
`**success` and every other class by `**other`, a one-entry specific table, and the
control variables at their defaults (print the stack, no chopping), and a C library whose
`snprintf` of a user code renders its `%d`. -/
def Config.sample : Config where
  toErrClasses := ErrClasses.sample
  genericErrMsgs :=
    [.intact "**fail" "Failure", .intact "**other" "Other MPI error",
     .intact "**success" "No MPI error",
     .intact "**user" "user defined function returned an error code"]
  specificErrMsgs := [.intact "**userdel" "user delete function returned error code %d"]
  classToIndex := 2 :: List.replicate 106 1
  handles := MpiHandles.sample
  haveRomio := false
  printErrorStack := true
  chopErrorStack := 0
  formatPointer _ := "0x1"
  formatInt fmt u := CStr.ofChars (formatDecimal u fmt.chars)
  errcodeToString := none
  generic_fits := by decide

/-! ## The scan over a sorted table -/

/-- What a full linear search of a table returns: the index of the first entry whose key
`strcmp`s equal to `msg`, and `-1` when none does. -/
def linearMsgIndex (msg : CStr) (es : List MsgEntry) : Int :=
  match es.findIdx? fun e => decide (strcmp e.shortName.chars msg.chars = .eq) with
  | some i => i
  | none => -1

/-- A table the scans can trust: every guard word intact, and the keys strictly increasing
under `strcmp`. -/
def MsgTableOk (es : List MsgEntry) : Prop :=
  (∀ e ∈ es, e.sentinelsOk = true) ∧
    es.Chain' fun a b => strcmp a.shortName.chars b.shortName.chars = .lt

/-- On a table the scans can trust, the scan from entry `0` is a full linear search. -/
theorem findMsgIndexFrom_eq_linear {es : List MsgEntry} (h : MsgTableOk es) (msg : CStr) :
    findMsgIndexFrom msg 0 es = linearMsgIndex msg es := by
  have : IsTrans MsgEntry fun a b => strcmp a.shortName.chars b.shortName.chars = .lt :=
    ⟨fun _ _ _ => strcmp_lt_trans⟩
  obtain ⟨hfound, hnone⟩ :=
    @findMsgIndexFrom_of_pairwise msg es h.1 (List.chain'_iff_pairwise.mp h.2) 0
  unfold linearMsgIndex
  split
  · rename_i j hj
    obtain ⟨hlt, hp, -⟩ := List.findIdx?_eq_some_iff_getElem.mp hj
    simpa only [Nat.zero_add] using
      hfound j _ (List.getElem?_eq_getElem hlt) (of_decide_eq_true hp)
  · rename_i hj
    exact hnone fun e he => of_decide_eq_false (List.findIdx?_eq_none_iff.mp hj e he)

/-- `FindGenericMsgIndex` and `FindSpecificMsgIndex` scan `generic_err_msgs` and
`specific_err_msgs` in key order and stop early at a greater key that `msg` does not prefix.  On
a table whose guard words are intact and whose keys increase strictly under `strcmp`, that early
exit never skips a match: each returns what a full linear search of its table returns, the index
of the entry whose key `strcmp`s equal to `msg`, or `-1` when there is none. -/
theorem sorted_scan_agrees_linear (msg : CStr) :
    (MsgTableOk K.genericErrMsgs →
      findGenericMsgIndex K msg = linearMsgIndex msg K.genericErrMsgs) ∧
    (MsgTableOk K.specificErrMsgs →
      findSpecificMsgIndex K msg = linearMsgIndex msg K.specificErrMsgs) :=
  ⟨fun h => findMsgIndexFrom_eq_linear h msg, fun h => findMsgIndexFrom_eq_linear h msg⟩

/-- Both sample tables can be trusted; `**other` is entry `1` of the generic one and `**userdel`
entry `0` of the specific one. -/
theorem sorted_scan_agrees_linear_sample :
    MsgTableOk Config.sample.genericErrMsgs ∧ MsgTableOk Config.sample.specificErrMsgs ∧
      findGenericMsgIndex Config.sample "**other" =
        linearMsgIndex "**other" Config.sample.genericErrMsgs ∧
      findSpecificMsgIndex Config.sample "**userdel" =
        linearMsgIndex "**userdel" Config.sample.specificErrMsgs :=
  have hg : MsgTableOk Config.sample.genericErrMsgs :=
    ⟨by decide, .cons (by decide) (.cons (by decide) (.cons (by decide) .nil))⟩
  have hs : MsgTableOk Config.sample.specificErrMsgs := ⟨by decide, .nil⟩
  ⟨hg, hs, (sorted_scan_agrees_linear Config.sample "**other").1 hg,
    (sorted_scan_agrees_linear Config.sample "**userdel").2 hs⟩

example : linearMsgIndex "**other" Config.sample.genericErrMsgs = 1 := by decide

end MpichErrhan
