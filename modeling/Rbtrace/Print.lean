import Mathlib.Data.BitVec
import Rbtrace.Lib.CInt
import Rbtrace.Lib.Tokens
import Rbtrace.Prbt

/-!
# What `prbt` prints, and the option `-i`

`trace_print_fn` and `format_trace_record` of `prbt.c`, and the parser of the option, which
`prbt` and `rbt` have from `include/rbtrace.h`.

The mask of trace IDs has 64 bits, but both the parser and the test of a record make their
bit with `1 << n`, where `1` is an `int`.  On x86 the count of such a shift is taken modulo
32, so a record with trace ID 33 or 34 passes for one with trace ID 1 or 2
(`prints_selected_iff`).
-/

namespace Rbtrace

open CInt Tokens

/-! ## Trace IDs and their names -/

/-- `RBT_TRAFFIC_TEST`, the first trace ID of traffic. -/
def RBT_TRAFFIC_TEST : Nat := 2

/-- `RBT_TRAFFIC_LAST`. -/
def RBT_TRAFFIC_LAST : Nat := RBT_TRAFFIC_TEST + 1

/-- `rbt_tid_str`: `"NULL"`, `"LOST"` and `"TEST"`. -/
def rbtTidStr : List CStr := [[78, 85, 76, 76], [76, 79, 83, 84], [84, 69, 83, 84]]

/-- `(uint64_t)(1 << n)`: the shift is one of `int`, with its count modulo 32, and the
result is extended with its sign. -/
def intShl (n : Nat) : BitVec 64 := (1#32 <<< (n % 32)).signExtend 64

/-- The byte `','`. -/
def comma : UInt8 := 44

/-- The `for` loop of `str_to_tflags`: the trace ID of a name. -/
def trafficId (pch : CStr) : Option Nat :=
  (List.range' RBT_TRAFFIC_TEST (RBT_TRAFFIC_LAST - RBT_TRAFFIC_TEST)).find? fun i ↦
    rbtTidStr[i]? = some pch

/-- The `while` loop of `str_to_tflags`, from the text that `strtok` has left. -/
def tflagsLoop (ptr : CStr) (tflags : BitVec 64) : BitVec 64 :=
  match _h : next comma ptr with
  | none => tflags
  | some (pch, rest) =>
      match trafficId pch with
      | none => 0
      | some i => tflagsLoop rest (tflags ||| intShl i)
termination_by ptr.length
decreasing_by exact length_lt_of_next _h

/-- `str_to_tflags`; `dup` is whether `strdup` succeeds. -/
def strToTflags (dup : Bool) (str : CStr) : BitVec 64 := if dup then tflagsLoop str 0 else 0

/-- The option `-i`: the new mask, `none` if the argument is refused. -/
def optTraceIds (dup : Bool) (optarg : CStr) : Option (BitVec 64) :=
  let ids := strToTflags dup optarg
  if ids = 0 then none
  else some (ids ||| intShl RBT_LOST.toNat)

/-! ## Conversions of `printf` -/

/-- The digits of a number. -/
def printfDigits (base : Nat) (upper : Bool) (n : Nat) : CStr :=
  (Nat.toDigits base n).map fun c ↦ UInt8.ofNat (if upper then c.toUpper else c).toNat

/-- A field of width `w`, filled up on the left. -/
def fillLeft (fill : UInt8) (w : Nat) (s : CStr) : CStr := List.replicate (w - s.length) fill ++ s

/-- `%<w>d`. -/
def printfInt (w : Nat) (x : Int) : CStr :=
  fillLeft 32 w ((if x < 0 then [45] else []) ++ printfDigits 10 false x.natAbs)

/-- `%0<w>ld`. -/
def printfIntZero (w : Nat) (x : Int) : CStr :=
  if x < 0 then 45 :: fillLeft 48 (w - 1) (printfDigits 10 false x.natAbs)
  else fillLeft 48 w (printfDigits 10 false x.natAbs)

/-- `%#<w>llx`, or `%#<w>llX`. -/
def printfHexAlt (upper : Bool) (w n : Nat) : CStr :=
  fillLeft 32 w (if n = 0 then [48]
    else [48, if upper then 88 else 120] ++ printfDigits 16 upper n)

/-! ## Records -/

/-- `sprintf` of the four words with `rbt_fmt_str[traceid]`.  The conversions `%d` and `%x`
take the low half of a word. -/
def rbtFmt (re : RbtraceEntry) : CStr :=
  match re.traceid.toNat with
  | 0 => [78, 85, 76, 76]
  | 1 => [76, 111, 115, 116, 32] ++ printfInt 0 re.a0.toInt
  | _ =>
      [79, 70, 70, 32] ++ printfHexAlt true 16 re.a0.toNat ++
      [32, 76, 69, 78, 32] ++ printfHexAlt false 6 re.a1.toNat ++
      [32, 68, 69, 86, 32] ++ printfInt 4 (i32 re.a2.toInt) ++
      [32, 79, 80, 32] ++ fillLeft 48 4 (printfDigits 16 false (u32 re.a3.toInt))

/-- `format_trace_record`. -/
def formatTraceRecord (re : RbtraceEntry) : CStr :=
  (if RBT_TRAFFIC_LAST ≤ re.traceid.toNat then
    [73, 68, 58] ++ printfInt 0 re.traceid.toNat ++
      [re.a0, re.a1, re.a2, re.a3].flatMap fun a ↦
        [44, 32] ++ fillLeft 32 16 (printfDigits 16 true a.toNat)
  else fillLeft 32 4 (rbtTidStr.getD re.traceid.toNat []) ++ [32] ++ rbtFmt re) ++ [10]

/-- The options that `trace_print_fn` reads. -/
structure PrintOpts where
  showTimestamp : Bool
  traceIds : BitVec 64

/-- A line of `trace_print_fn`, on either stream. -/
inductive PrintLine where
  | record (text : CStr)
  | invalidTimestamp (idx : Nat) (tvSec : BitVec 64)
deriving DecidableEq

/-- The text of a record, and what is in front of it. -/
def recordText (showTimestamp : Bool) (gm : Tm) (re : RbtraceEntry) : CStr :=
  (if showTimestamp then
    printfD 2 (gm.tmMon + 1) ++ [45] ++ printfD 2 gm.tmMday ++ [32] ++ printfD 2 gm.tmHour ++ [58] ++
      printfD 2 gm.tmMin ++ [58] ++ printfD 2 gm.tmSec ++ [46] ++
      printfIntZero 9 re.timestamp.tvNsec.toInt ++ [32]
  else []) ++
  printfInt 2 re.cpuid.toNat ++ [32] ++ printfInt 8 re.thread.toNat ++ [32] ++ formatTraceRecord re

/-- `trace_print_fn`: what it prints.  It never asks to stop. -/
def tracePrintFn (opts : PrintOpts) (gmtime : BitVec 64 → Option Tm) (rf : RbtraceFheader) (idx : Nat)
    (re : RbtraceEntry) : List PrintLine :=
  if opts.traceIds &&& intShl re.traceid.toNat = 0 then []
  else match gmtime (re.timestamp.tvSec + rf.gmtoff) with
    | none => [.invalidTimestamp idx re.timestamp.tvSec]
    | some gm => [.record (recordText opts.showTimestamp gm re)]

/-- What is printed about some records, each with its running number. -/
def printRecords (opts : PrintOpts) (gmtime : BitVec 64 → Option Tm) (rf : RbtraceFheader)
    (recs : List (Nat × RbtraceEntry)) : List PrintLine :=
  recs.flatMap fun r ↦ tracePrintFn opts gmtime rf r.1 r.2

/-! ## Masks -/

section

variable {i j k : Nat}

/-- The low half of a shifted `int`. -/
theorem getLsbD_intShl (n : Nat) (hk : k < 32) : (intShl n).getLsbD k = decide (k = n % 32) := by
  have hk' : k < 64 := hk.trans (by decide)
  have hn : n % 32 < 32 := Nat.mod_lt n (by decide)
  rw [intShl, BitVec.getLsbD_signExtend, if_pos hk, BitVec.getLsbD_shiftLeft, decide_eq_true hk,
    decide_eq_true hk', Bool.true_and, Bool.true_and, BitVec.getLsbD_one]
  by_cases h : k < n % 32
  · simp [h, h.ne]
  · simp [h]
    omega

/-- The high half is the sign. -/
theorem getLsbD_intShl_of_le (n : Nat) (hk : 32 ≤ k) (hn : n % 32 < 31) :
    (intShl n).getLsbD k = false := by
  rw [intShl, BitVec.getLsbD_signExtend, if_neg (not_lt.2 hk), BitVec.msb_eq_getLsbD_last,
    BitVec.getLsbD_shiftLeft, BitVec.getLsbD_one]
  have hne : ¬ 31 - n % 32 = 0 := by omega
  simp [hne]

/-- A shift sets a bit. -/
theorem intShl_ne_zero (n : Nat) : intShl n ≠ 0 := by
  intro h
  have hbit := getLsbD_intShl n (Nat.mod_lt n (show 0 < 32 by decide))
  rw [h] at hbit
  simp at hbit

/-- Two shifts have no bit in common exactly if the counts differ modulo 32.  One of them
must not set the sign, which fills the high half. -/
theorem intShl_and_eq_zero_iff (hi : i < 31) : intShl i &&& intShl j = 0 ↔ i ≠ j % 32 := by
  have hmod : i % 32 = i := Nat.mod_eq_of_lt (hi.trans (by decide))
  constructor
  · rintro h rfl
    have hbit := congrArg (BitVec.getLsbD · (j % 32)) h
    have hj : j % 32 < 32 := Nat.mod_lt j (by decide)
    simp only [BitVec.getLsbD_and, getLsbD_intShl _ hj, hmod] at hbit
    simp at hbit
  · intro hne
    apply BitVec.eq_of_getLsbD_eq
    intro k _
    rw [BitVec.getLsbD_and]
    by_cases hk : k < 32
    · rw [getLsbD_intShl i hk, getLsbD_intShl j hk, hmod]
      by_cases hki : k = i
      · have hkj : ¬ k = j % 32 := fun h ↦ hne (hki.symm.trans h)
        simp [hkj]
      · simp [hki]
    · rw [getLsbD_intShl_of_le i (not_lt.1 hk) (hmod.trans_lt hi)]
      simp

/-- A test of a mask is a test of everything that has been put into it. -/
theorem foldl_or_and_eq_zero_iff {β : Type*} (f : β → BitVec 64) (l : List β) (t m : BitVec 64) :
    l.foldl (fun t x ↦ t ||| f x) t &&& m = 0 ↔ t &&& m = 0 ∧ ∀ x ∈ l, f x &&& m = 0 := by
  induction l generalizing t with
  | nil => simp
  | cons x l ih =>
      have hor : (t ||| f x) &&& m = 0 ↔ t &&& m = 0 ∧ f x &&& m = 0 := by
        rw [BitVec.and_or_distrib_right]
        exact BitVec.or_eq_zero_iff
      rw [List.foldl_cons, ih, hor, List.forall_mem_cons, and_assoc]

end

/-! ## The argument of `-i` -/

/-- The names in an argument: what is not empty between commas. -/
def names (str : CStr) : List CStr := tokens comma str

/-- The name of traffic with trace ID `i`. -/
def HasId (name : CStr) (i : Nat) : Prop :=
  RBT_TRAFFIC_TEST ≤ i ∧ i < RBT_TRAFFIC_LAST ∧ rbtTidStr[i]? = some name

instance (name : CStr) (i : Nat) : Decidable (HasId name i) :=
  inferInstanceAs (Decidable (_ ∧ _ ∧ _))

/-- There is a name, and all are names of traffic. -/
def KnownNames (str : CStr) : Prop := names str ≠ [] ∧ ∀ name ∈ names str, ∃ i, HasId name i

/-- The `for` loop finds the trace ID of a name. -/
theorem trafficId_eq_some_iff {name : CStr} {i : Nat} : trafficId name = some i ↔ HasId name i := by
  constructor
  · intro h
    unfold trafficId at h
    obtain ⟨hge, hlt⟩ := List.mem_range'_1.1 (List.mem_of_find?_eq_some h)
    have hname := List.find?_some h
    exact ⟨hge, hlt, of_decide_eq_true hname⟩
  · rintro ⟨hge, hlt, hname⟩
    -- there is one trace ID of traffic, so the loop stops at it or not at all
    obtain rfl : i = RBT_TRAFFIC_TEST := le_antisymm (Nat.le_of_lt_succ hlt) hge
    exact List.find?_cons_of_pos (decide_eq_true hname)

theorem trafficId_isSome_iff {name : CStr} : (trafficId name).isSome ↔ ∃ i, HasId name i := by
  rw [Option.isSome_iff_exists]
  exact exists_congr fun _ ↦ trafficId_eq_some_iff

/-- **The parser.**  One unknown name anywhere is enough to get nothing. -/
theorem tflagsLoop_eq (ptr : CStr) (tflags : BitVec 64) :
    tflagsLoop ptr tflags =
      if ∀ name ∈ names ptr, (trafficId name).isSome then
        (names ptr).foldl (fun t name ↦ t ||| intShl ((trafficId name).getD 0)) tflags
      else 0 := by
  fun_induction tflagsLoop ptr tflags with
  | case1 ptr tflags h =>
      rw [names, tokens_eq_next, h]
      rfl
  | case2 ptr tflags pch rest h hid =>
      rw [names, tokens_eq_next, h, if_neg]
      intro hall
      have hsome := hall pch List.mem_cons_self
      rw [hid] at hsome
      cases hsome
  | case3 ptr tflags pch rest h i hid ih =>
      have hcons : names ptr = pch :: names rest := by rw [names, tokens_eq_next, h, names]
      have hall : (∀ name ∈ names ptr, (trafficId name).isSome) ↔
          ∀ name ∈ names rest, (trafficId name).isSome := by
        rw [hcons, List.forall_mem_cons, hid]
        exact and_iff_right rfl
      rw [ih]
      refine if_congr hall.symm ?_ rfl
      rw [hcons, List.foldl_cons, hid, Option.getD_some]

/-- **What is accepted**: an argument with a name, all of whose names are known. -/
theorem strToTflags_ne_zero_iff (dup : Bool) (str : CStr) :
    strToTflags dup str ≠ 0 ↔ dup = true ∧ KnownNames str := by
  have hempty : ∀ t : BitVec 64, t = 0 ↔ t &&& BitVec.allOnes 64 = 0 := by
    intro t
    rw [BitVec.and_allOnes]
  have hall : (∀ name ∈ names str, (trafficId name).isSome) ↔ ∀ name ∈ names str, ∃ i, HasId name i :=
    forall₂_congr fun _ _ ↦ trafficId_isSome_iff
  unfold strToTflags
  cases dup with
  | false => exact iff_of_false (fun h ↦ h rfl) fun h ↦ Bool.false_ne_true h.1
  | true =>
      rw [if_pos rfl, tflagsLoop_eq]
      by_cases hk : ∀ name ∈ names str, (trafficId name).isSome
      · rw [if_pos hk, ne_eq, hempty, foldl_or_and_eq_zero_iff, KnownNames, ← hall]
        constructor
        · intro h
          refine ⟨rfl, fun hnil ↦ h ⟨rfl, ?_⟩, hk⟩
          rw [hnil]
          exact fun _ hmem ↦ absurd hmem List.not_mem_nil
        · rintro ⟨-, hne, -⟩ ⟨-, hzero⟩
          obtain ⟨name, hname⟩ := List.exists_mem_of_ne_nil _ hne
          exact intShl_ne_zero _ ((hempty _).2 (hzero name hname))
      · rw [if_neg hk]
        exact iff_of_false (fun h ↦ h rfl) fun h ↦ hk (hall.2 h.2.2)

/-! ## The records that are printed -/

/-- The record is a loss report, or its trace ID is that of a name in the argument. -/
def Selected (str : CStr) (re : RbtraceEntry) : Prop :=
  re.traceid.toNat = RBT_LOST.toNat ∨ ∃ name ∈ names str, HasId name re.traceid.toNat

instance (str : CStr) (re : RbtraceEntry) : Decidable (Selected str re) :=
  inferInstanceAs (Decidable (_ ∨ _))

/-- The line about a record, if its time can be told. -/
def recordLine (showTimestamp : Bool) (gmtime : BitVec 64 → Option Tm) (rf : RbtraceFheader)
    (re : RbtraceEntry) : Option PrintLine :=
  (gmtime (re.timestamp.tvSec + rf.gmtoff)).map fun gm ↦ .record (recordText showTimestamp gm re)

section

variable {dup showTimestamp : Bool} {str : CStr} {gmtime : BitVec 64 → Option Tm} {rf : RbtraceFheader}
  {ids : BitVec 64} {recs : List (Nat × RbtraceEntry)}

/-- **The test of a record**: its trace ID is compared modulo 32. -/
theorem and_intShl_eq_zero_iff (h : optTraceIds dup str = some ids) (n : Nat) :
    ids &&& intShl n = 0 ↔ RBT_LOST.toNat ≠ n % 32 ∧ ∀ name ∈ names str, ¬ HasId name (n % 32) := by
  unfold optTraceIds at h
  dsimp only at h
  split at h <;> rename_i hne
  · cases h
  obtain ⟨rfl, hknown⟩ := (strToTflags_ne_zero_iff dup str).1 hne
  have hall : ∀ name ∈ names str, (trafficId name).isSome := fun name hname ↦
    trafficId_isSome_iff.2 (hknown.2 name hname)
  obtain rfl := Option.some.inj h
  have hor : (strToTflags true str ||| intShl RBT_LOST.toNat) &&& intShl n = 0 ↔
      strToTflags true str &&& intShl n = 0 ∧ intShl RBT_LOST.toNat &&& intShl n = 0 := by
    rw [BitVec.and_or_distrib_right]
    exact BitVec.or_eq_zero_iff
  rw [hor, strToTflags, if_pos rfl, tflagsLoop_eq, if_pos hall, foldl_or_and_eq_zero_iff,
    intShl_and_eq_zero_iff (by decide), and_comm]
  refine and_congr_right fun _ ↦
    (and_iff_right BitVec.zero_and).trans (forall₂_congr fun name hname ↦ ?_)
  obtain ⟨i, hi⟩ := Option.isSome_iff_exists.1 (hall name hname)
  have hid := trafficId_eq_some_iff.1 hi
  have hlt : i < 31 := hid.2.1.trans (by decide)
  rw [hi, Option.getD_some, intShl_and_eq_zero_iff hlt]
  refine not_congr ⟨fun h ↦ h ▸ hid, fun h ↦ ?_⟩
  exact Option.some.inj (hi.symm.trans (trafficId_eq_some_iff.2 h))

/-- What is printed, as a selection of the records. -/
theorem printRecords_eq (hgm : ∀ r ∈ recs, gmtime (r.2.timestamp.tvSec + rf.gmtoff) ≠ none) :
    printRecords ⟨showTimestamp, ids⟩ gmtime rf recs =
      (recs.filter fun r ↦ ids &&& intShl r.2.traceid.toNat ≠ 0).filterMap fun r ↦
        recordLine showTimestamp gmtime rf r.2 := by
  induction recs with
  | nil => rfl
  | cons r recs ih =>
      obtain ⟨hr, hrecs⟩ := List.forall_mem_cons.1 hgm
      obtain ⟨gm, hgm⟩ := Option.ne_none_iff_exists'.1 hr
      have hline : recordLine showTimestamp gmtime rf r.2 =
          some (.record (recordText showTimestamp gm r.2)) := by
        rw [recordLine, hgm, Option.map_some]
      rw [printRecords, List.flatMap_cons, tracePrintFn, hgm]
      by_cases hmask : ids &&& intShl r.2.traceid.toNat = 0
      · rw [if_pos hmask, List.nil_append, List.filter_cons_of_neg (by simpa using hmask)]
        exact ih hrecs
      · rw [if_neg hmask, List.filter_cons_of_pos (by simpa using hmask), List.filterMap_cons, hline]
        exact congrArg _ (ih hrecs)

/-- What `prbt` prints about the records of a file. -/
def printFile (opts : PrintOpts) (gmtime : BitVec 64 → Option Tm) (io : PrbtIo) (file : List UInt8) :
    List PrintLine :=
  printRecords opts gmtime (readHeader file).hdr
    ((parseTraceFile io (fun _ _ ↦ false) file (readHeader file)).1.calls.map fun c ↦
      (c.1, RbtraceEntry.ofBytes c.2))

/-- **Without the option** every record of the listing is printed. -/
theorem printFile_of_all {io : PrbtIo} {file : List UInt8}
    (hgm : ∀ re ∈ listing io file,
      gmtime (re.timestamp.tvSec + (readHeader file).hdr.gmtoff) ≠ none) :
    printFile ⟨showTimestamp, BitVec.allOnes 64⟩ gmtime io file =
      (listing io file).filterMap (recordLine showTimestamp gmtime (readHeader file).hdr) := by
  have hpass : ∀ r : Nat × RbtraceEntry, BitVec.allOnes 64 &&& intShl r.2.traceid.toNat ≠ 0 := by
    intro r
    rw [BitVec.allOnes_and]
    exact intShl_ne_zero _
  rw [printFile, printRecords_eq, List.filter_eq_self.2 fun r _ ↦ decide_eq_true (hpass r), listing,
    List.filterMap_map, List.filterMap_map]
  · rfl
  · intro r hr
    obtain ⟨c, hc, rfl⟩ := List.mem_map.1 hr
    exact hgm _ (List.mem_map_of_mem hc)

/-- The only names are those of trace ID 2. -/
theorem exists_hasId_iff (hk : KnownNames str) (n : Nat) :
    (∃ name ∈ names str, HasId name n) ↔ n = RBT_TRAFFIC_TEST := by
  have huniq : ∀ {name i}, HasId name i → i = RBT_TRAFFIC_TEST := fun h ↦
    le_antisymm (Nat.le_of_lt_succ h.2.1) h.1
  constructor
  · rintro ⟨name, -, hid⟩
    exact huniq hid
  · rintro rfl
    obtain ⟨name, hname⟩ := List.exists_mem_of_ne_nil _ hk.1
    obtain ⟨i, hid⟩ := hk.2 name hname
    exact ⟨name, hname, huniq hid ▸ hid⟩

/-- With known names, the records with trace IDs 1 and 2 are selected. -/
theorem selected_iff (hk : KnownNames str) (re : RbtraceEntry) :
    Selected str re ↔ re.traceid.toNat = 1 ∨ re.traceid.toNat = 2 := by
  rw [Selected, exists_hasId_iff hk]
  rfl

/-- **The records that pass** are the selected ones, and those with trace ID 33 or 34. -/
theorem passes_iff (hk : KnownNames str) (h : optTraceIds dup str = some ids) (re : RbtraceEntry) :
    ids &&& intShl re.traceid.toNat ≠ 0 ↔
      Selected str re ∨ re.traceid.toNat = 33 ∨ re.traceid.toNat = 34 := by
  have hlt := re.traceid.isLt
  have hnone : (∀ name ∈ names str, ¬ HasId name (re.traceid.toNat % 32)) ↔
      re.traceid.toNat % 32 ≠ 2 := by
    rw [ne_eq, show (2 : Nat) = RBT_TRAFFIC_TEST from rfl, ← exists_hasId_iff hk]
    push Not
    rfl
  have hlost : RBT_LOST.toNat = 1 := rfl
  rw [ne_eq, and_intShl_eq_zero_iff h, hnone, selected_iff hk, hlost]
  omega

end

/-- A selection that takes too much shows more lines. -/
theorem filterMap_filter_eq_iff {α β : Type*} {f : α → Option β} {p q : α → Bool} {l : List α}
    (hf : ∀ x ∈ l, f x ≠ none) (hqp : ∀ x, q x → p x) :
    (l.filter p).filterMap f = (l.filter q).filterMap f ↔ ∀ x ∈ l, p x → q x := by
  have hlen : ∀ p : α → Bool, ((l.filter p).filterMap f).length = (l.filter p).length := by
    intro p
    refine List.filterMap_length_eq_length.2 fun x hx ↦ ?_
    exact Option.isSome_iff_ne_none.2 (hf x (List.mem_of_mem_filter hx))
  constructor
  · intro h x hx hp
    have heq : (l.filter q).length = (l.filter p).length := by rw [← hlen, ← hlen, h]
    have hsame := (List.monotone_filter_right l hqp).eq_of_length heq
    have hmem : x ∈ l.filter q := hsame ▸ List.mem_filter.2 ⟨hx, hp⟩
    exact (List.mem_filter.1 hmem).2
  · intro h
    rw [List.filter_congr fun x hx ↦ Bool.eq_iff_iff.2 ⟨h x hx, hqp x⟩]

/-- What is printed is what is selected, exactly if no other record passes. -/
theorem printRecords_eq_selected_iff {dup showTimestamp : Bool} {str : CStr}
    {gmtime : BitVec 64 → Option Tm} {rf : RbtraceFheader} {ids : BitVec 64}
    {recs : List (Nat × RbtraceEntry)} (hk : KnownNames str) (hids : optTraceIds dup str = some ids)
    (hgm : ∀ r ∈ recs, gmtime (r.2.timestamp.tvSec + rf.gmtoff) ≠ none) :
    printRecords ⟨showTimestamp, ids⟩ gmtime rf recs =
        (recs.filter fun r ↦ Selected str r.2).filterMap (fun r ↦
          recordLine showTimestamp gmtime rf r.2) ↔
      ∀ r ∈ recs, r.2.traceid.toNat ≠ 33 ∧ r.2.traceid.toNat ≠ 34 := by
  have hlines : ∀ r ∈ recs, recordLine showTimestamp gmtime rf r.2 ≠ none := by
    intro r hr h
    exact hgm r hr (Option.map_eq_none_iff.1 h)
  rw [printRecords_eq hgm, filterMap_filter_eq_iff hlines]
  · refine forall₂_congr fun r _ ↦ ?_
    simp only [decide_eq_true_eq, passes_iff hk hids, selected_iff hk]
    omega
  · intro r
    simp only [decide_eq_true_eq, passes_iff hk hids]
    exact .inl

/-- **The option `-i`.**  For every argument and all records with times that can be told:
that what is printed of an accepted argument is exactly what it selects, and that what is
accepted is a list of known names, is true exactly if, for a list of known names, `strdup`
finds memory and no record has trace ID 33 or 34. -/
theorem prints_selected_iff (dup : Bool) (str : CStr) (showTimestamp : Bool)
    (gmtime : BitVec 64 → Option Tm) (rf : RbtraceFheader) (recs : List (Nat × RbtraceEntry))
    (hgm : ∀ r ∈ recs, gmtime (r.2.timestamp.tvSec + rf.gmtoff) ≠ none) :
    ((∀ ids, optTraceIds dup str = some ids →
        printRecords ⟨showTimestamp, ids⟩ gmtime rf recs =
          (recs.filter fun r ↦ Selected str r.2).filterMap fun r ↦
            recordLine showTimestamp gmtime rf r.2) ∧
      (strToTflags dup str ≠ 0 ↔ KnownNames str)) ↔
    (KnownNames str → dup = true ∧
      ∀ r ∈ recs, r.2.traceid.toNat ≠ 33 ∧ r.2.traceid.toNat ≠ 34) := by
  by_cases hk : KnownNames str
  · cases dup with
    | false =>
        refine iff_of_false (fun h ↦ ?_) fun h ↦ Bool.false_ne_true (h hk).1
        exact Bool.false_ne_true ((strToTflags_ne_zero_iff false str).1 (h.2.2 hk)).1
    | true =>
        have hne := (strToTflags_ne_zero_iff true str).2 ⟨rfl, hk⟩
        obtain ⟨ids, hids⟩ : ∃ ids, optTraceIds true str = some ids := ⟨_, if_neg hne⟩
        have hprint := @printRecords_eq_selected_iff true showTimestamp str gmtime rf ids recs hk hids hgm
        constructor
        · rintro ⟨hall, -⟩ -
          exact ⟨rfl, hprint.1 (hall ids hids)⟩
        · intro h
          refine ⟨fun ids' hids' ↦ ?_, iff_of_true hne hk⟩
          obtain rfl : ids = ids' := Option.some.inj (hids.symm.trans hids')
          exact hprint.2 (h hk).2
  · have hzero : strToTflags dup str = 0 :=
      not_not.1 fun h ↦ hk ((strToTflags_ne_zero_iff dup str).1 h).2
    refine iff_of_true ⟨fun ids h ↦ ?_, iff_of_false (fun h ↦ h hzero) hk⟩ fun h ↦ absurd h hk
    rw [optTraceIds, hzero] at h
    cases h

/-- The argument `TEST`. -/
def testArg : CStr := [84, 69, 83, 84]

theorem knownNames_testArg : KnownNames testArg := by
  have hnames : names testArg = [testArg] := by decide
  rw [KnownNames, hnames]
  refine ⟨List.cons_ne_nil _ _, fun name hname ↦ ⟨2, ?_⟩⟩
  rw [List.mem_singleton.1 hname]
  decide

/-- A record with the given trace ID, made at the epoch. -/
def recordWithId (n : Nat) : RbtraceEntry := { RbtraceEntry.zero with traceid := BitVec.ofNat 6 n }

/-- `gmtime` at the epoch. -/
def epochOnly (t : BitVec 64) : Option Tm := if t = 0 then some ⟨0, 1, 0, 0, 0, 0, []⟩ else none

/-- Of records with trace IDs 1, 2 and 5, the first two are printed. -/
theorem prints_selected_of_three : ∃ ids, optTraceIds true testArg = some ids ∧
    printRecords ⟨true, ids⟩ epochOnly PaddedRbtraceFheader.zero.hdr
        [(0, recordWithId 1), (1, recordWithId 2), (2, recordWithId 5)] =
      [recordWithId 1, recordWithId 2].map fun re ↦
        .record (recordText true ⟨0, 1, 0, 0, 0, 0, []⟩ re) := by
  have hne := (strToTflags_ne_zero_iff true testArg).2 ⟨rfl, knownNames_testArg⟩
  obtain ⟨ids, hids⟩ : ∃ ids, optTraceIds true testArg = some ids := ⟨_, if_neg hne⟩
  have h := prints_selected_iff true testArg true epochOnly PaddedRbtraceFheader.zero.hdr
    [(0, recordWithId 1), (1, recordWithId 2), (2, recordWithId 5)] (by decide)
  refine ⟨ids, hids, ((h.2 fun _ ↦ ⟨rfl, by decide⟩).1 ids hids).trans ?_⟩
  rfl

/-- A record with trace ID 34 is printed, though `TEST` does not select it. -/
theorem prints_unselected : ∃ ids, optTraceIds true testArg = some ids ∧
    ¬ Selected testArg (recordWithId 34) ∧
    printRecords ⟨true, ids⟩ epochOnly PaddedRbtraceFheader.zero.hdr [(0, recordWithId 34)] ≠
      ([(0, recordWithId 34)].filter fun r ↦ Selected testArg r.2).filterMap fun r ↦
        recordLine true epochOnly PaddedRbtraceFheader.zero.hdr r.2 := by
  have hne := (strToTflags_ne_zero_iff true testArg).2 ⟨rfl, knownNames_testArg⟩
  obtain ⟨ids, hids⟩ : ∃ ids, optTraceIds true testArg = some ids := ⟨_, if_neg hne⟩
  refine ⟨ids, hids, by decide, fun h ↦ ?_⟩
  have hno := (printRecords_eq_selected_iff knownNames_testArg hids (by decide)).1 h
  exact (hno _ List.mem_cons_self).2 rfl

end Rbtrace
