import Rbtrace.Damaged
import Rbtrace.Print
import Rbtrace.ZapName

/-!
# The lines of a listing

`trace_print_fn` puts the line of a record together in `record_buf`, 256 bytes of its stack,
with one `sprintf` after the other, and hands the buffer to `fprintf` as the format.  Nothing
checks a length or looks for a `%`.  It goes well for every file all the same
(`safe_of_mem_printFile`): each conversion has a longest result, and none of them makes a `%`.

The tests of the repository count the lines of a listing that contain `TEST` or `NULL`.  That
is the number of records of the two kinds (`countP_printFile`): no number and no other text
of a line contains these letters.
-/

namespace Rbtrace

open CInt

/-! ## Buffers, formats and lines -/

/-- `sizeof(record_buf)`. -/
def RECORD_BUF_SIZE : Nat := 256

/-- `fprintf(fp, format)` without arguments; `none` if a conversion asks for one. -/
def fprintf : CStr → Option CStr
  | [] => some []
  | 37 :: 37 :: format => (fprintf format).map (37 :: ·)
  | 37 :: _ => none
  | b :: format => (fprintf format).map (b :: ·)

/-- What `gmtime` can return. -/
structure Tm.Valid (gm : Tm) : Prop where
  mon : gm.tmMon < 12
  mday : gm.tmMday < 32
  hour : gm.tmHour < 24
  min : gm.tmMin < 60
  sec : gm.tmSec < 61

/-- A line that `grep -E "TEST|NULL"` keeps. -/
def PrintLine.Matches : PrintLine → Prop
  | .record text => rbtTidStr.getD 2 [] <:+: text ∨ rbtTidStr.getD 0 [] <:+: text
  | .invalidTimestamp _ _ => False

instance : DecidablePred PrintLine.Matches
  | .record _ => inferInstanceAs (Decidable (_ ∨ _))
  | .invalidTimestamp _ _ => inferInstanceAs (Decidable False)

/-! ## Lengths -/

section

variable {base w n k : Nat} {x : Int}

theorem length_printfDigits_le (hb : 1 < base) (hk : 0 < k) (h : n < base ^ k) (upper : Bool) :
    (printfDigits base upper n).length ≤ k := by
  rw [printfDigits, List.length_map]
  exact (Nat.length_toDigits_le_iff hb hk).2 h

theorem length_fillLeft (fill : UInt8) (w : Nat) (s : CStr) :
    (fillLeft fill w s).length = max w s.length := by
  rw [fillLeft, List.length_append, List.length_replicate]
  omega

theorem length_printfInt_le (hk : 0 < k) (h : x.natAbs < 10 ^ k) :
    (printfInt w x).length ≤ max w (k + 1) := by
  have hd := length_printfDigits_le (by decide) hk h false
  rw [printfInt, length_fillLeft, List.length_append]
  split
  · simp only [List.length_singleton]
    omega
  · simp only [List.length_nil]
    omega

theorem length_printfIntZero_le (hk : 0 < k) (h : x.natAbs < 10 ^ k) :
    (printfIntZero w x).length ≤ max w (k + 1) := by
  have hd := length_printfDigits_le (by decide) hk h false
  unfold printfIntZero
  split
  · rw [List.length_cons, length_fillLeft]
    omega
  · rw [length_fillLeft]
    omega

theorem length_printfHexAlt_le (hk : 0 < k) (h : n < 16 ^ k) (upper : Bool) :
    (printfHexAlt upper w n).length ≤ max w (k + 2) := by
  have hd := length_printfDigits_le (by decide) hk h upper
  rw [printfHexAlt, length_fillLeft]
  split
  · simp only [List.length_singleton]
    omega
  · simp only [List.length_append, List.length_cons, List.length_nil]
    omega

end

/-- The longest text `sprintf` makes of the four words. -/
theorem length_rbtFmt_le (re : RbtraceEntry) : (rbtFmt re).length ≤ 73 := by
  have h₀ := length_printfHexAlt_le (w := 16) (k := 16) (by decide) re.a0.isLt true
  have h₁ := length_printfHexAlt_le (w := 6) (k := 16) (by decide) re.a1.isLt false
  have h₂ : (printfInt 4 (i32 re.a2.toInt)).length ≤ max 4 (10 + 1) :=
    length_printfInt_le (by decide) (by unfold i32; omega)
  have h₃ : (printfDigits 16 false (u32 re.a3.toInt)).length ≤ 8 :=
    length_printfDigits_le (by decide) (by decide) (by unfold u32; omega) false
  have hlost : (printfInt 0 re.a0.toInt).length ≤ max 0 (19 + 1) :=
    length_printfInt_le (by decide) (by have := re.a0.toInt_lt; have := re.a0.le_toInt; omega)
  unfold rbtFmt
  split
  · exact Nat.le_add_left 4 69
  · simp only [List.length_append, List.length_cons, List.length_nil]
    omega
  · simp only [List.length_append, List.length_cons, List.length_nil, length_fillLeft]
    omega

/-- The longest line about a record. -/
theorem length_formatTraceRecord_le (re : RbtraceEntry) : (formatTraceRecord re).length ≤ 79 := by
  unfold formatTraceRecord
  split
  · have hid : (printfInt 0 (re.traceid.toNat : Int)).length ≤ max 0 (2 + 1) :=
      length_printfInt_le (by decide) (by have := re.traceid.isLt; omega)
    have hword : ∀ a : BitVec 64, (printfDigits 16 true a.toNat).length ≤ 16 := fun a ↦
      length_printfDigits_le (by decide) (by decide) (show a.toNat < 16 ^ 16 from a.isLt) true
    have h₀ := hword re.a0
    have h₁ := hword re.a1
    have h₂ := hword re.a2
    have h₃ := hword re.a3
    simp only [List.length_append, List.length_cons, List.length_nil, List.flatMap_cons,
      List.flatMap_nil, length_fillLeft]
    omega
  · rename_i hid
    have htid : (rbtTidStr.getD re.traceid.toNat []).length = 4 := by
      have hlt : re.traceid.toNat < 3 := not_le.1 hid
      revert hlt
      generalize re.traceid.toNat = i
      revert i
      decide
    have hfmt := length_rbtFmt_le re
    simp only [List.length_append, List.length_cons, List.length_nil, length_fillLeft]
    omega

/-- The longest line. -/
theorem length_recordText_le {gm : Tm} (hgm : gm.Valid) (showTimestamp : Bool) (re : RbtraceEntry) :
    (recordText showTimestamp gm re).length ≤ 129 := by
  have hfmt := length_formatTraceRecord_le re
  have hmon : (printfD 2 (gm.tmMon + 1)).length = 2 :=
    length_printfD ((Nat.succ_lt_succ hgm.mon).trans (by decide))
  have hmday := length_printfD (w := 2) (hgm.mday.trans (by decide))
  have hhour := length_printfD (w := 2) (hgm.hour.trans (by decide))
  have hmin := length_printfD (w := 2) (hgm.min.trans (by decide))
  have hsec := length_printfD (w := 2) (hgm.sec.trans (by decide))
  have hnsec : (printfIntZero 9 re.timestamp.tvNsec.toInt).length ≤ max 9 (19 + 1) :=
    length_printfIntZero_le (by decide) (by
      have := re.timestamp.tvNsec.toInt_lt
      have := re.timestamp.tvNsec.le_toInt
      omega)
  have hcpu : (printfInt 2 (re.cpuid.toNat : Int)).length ≤ max 2 (3 + 1) :=
    length_printfInt_le (by decide) (by have := re.cpuid.isLt; omega)
  have hthread : (printfInt 8 (re.thread.toNat : Int)).length ≤ max 8 (6 + 1) :=
    length_printfInt_le (by decide) (by have := re.thread.isLt; omega)
  unfold recordText
  split
  · simp only [List.length_append, List.length_cons, List.length_nil]
    omega
  · simp only [List.length_append, List.length_cons, List.length_nil]
    omega

/-! ## Bytes -/

/-- A digit, as it is printed. -/
def digitByte (upper : Bool) (d : Nat) : UInt8 :=
  UInt8.ofNat (if upper then d.digitChar.toUpper else d.digitChar).toNat

section

variable {base w n : Nat} {L : List UInt8}

/-- The digits of a number are digits. -/
theorem exists_of_mem_toDigits (hb : 1 < base) (n : Nat) {c : Char} (hc : c ∈ Nat.toDigits base n) :
    ∃ d < base, c = d.digitChar := by
  induction n using Nat.strong_induction_on with
  | _ n ih =>
      rw [Nat.toDigits_eq_if hb] at hc
      split at hc
      · rename_i hn
        exact ⟨n, hn, List.mem_singleton.1 hc⟩
      · rename_i hn
        rcases List.mem_append.1 hc with hc | hc
        · exact ih (n / base) (Nat.div_lt_self (by omega) hb) hc
        · exact ⟨n % base, Nat.mod_lt n (by omega), List.mem_singleton.1 hc⟩

theorem printfDigits_subset (hb : 1 < base) {upper : Bool} (h : ∀ d < base, digitByte upper d ∈ L)
    (n : Nat) : printfDigits base upper n ⊆ L := by
  intro b hmem
  obtain ⟨c, hc, rfl⟩ := List.mem_map.1 hmem
  obtain ⟨d, hd, rfl⟩ := exists_of_mem_toDigits hb n hc
  exact h d hd

theorem fillLeft_subset {fill : UInt8} {s : CStr} (hfill : fill ∈ L) (hs : s ⊆ L) (w : Nat) :
    fillLeft fill w s ⊆ L := by
  intro b hb
  rcases List.mem_append.1 hb with hb | hb
  · rw [List.eq_of_mem_replicate hb]
    exact hfill
  · exact hs hb

theorem printfInt_subset (h : ∀ d < 10, digitByte false d ∈ L) (hfill : 32 ∈ L) (hminus : 45 ∈ L)
    (w : Nat) (x : Int) : printfInt w x ⊆ L := by
  refine fillLeft_subset hfill (List.append_subset.2 ⟨?_, printfDigits_subset (by decide) h _⟩) w
  split
  · exact List.cons_subset.2 ⟨hminus, List.nil_subset L⟩
  · exact List.nil_subset L

theorem printfIntZero_subset (h : ∀ d < 10, digitByte false d ∈ L) (hminus : 45 ∈ L) (w : Nat)
    (x : Int) : printfIntZero w x ⊆ L := by
  have hfill : ∀ w, fillLeft 48 w (printfDigits 10 false x.natAbs) ⊆ L :=
    fillLeft_subset (h 0 (by decide)) (printfDigits_subset (by decide) h _)
  unfold printfIntZero
  split
  · exact List.cons_subset.2 ⟨hminus, hfill _⟩
  · exact hfill w

theorem printfHexAlt_subset {upper : Bool} (h : ∀ d < 16, digitByte upper d ∈ L) (hfill : 32 ∈ L)
    (hx : (if upper then 88 else 120) ∈ L) (w n : Nat) : printfHexAlt upper w n ⊆ L := by
  have hzero : 48 ∈ L := by
    have := h 0 (by decide)
    cases upper <;> exact this
  refine fillLeft_subset hfill ?_ w
  split
  · exact List.cons_subset.2 ⟨hzero, List.nil_subset L⟩
  · refine List.append_subset.2 ⟨?_, printfDigits_subset (by decide) h n⟩
    exact List.cons_subset.2 ⟨hzero, List.cons_subset.2 ⟨hx, List.nil_subset L⟩⟩

theorem decimal_subset (h : ∀ d < 10, digitByte false d ∈ L) (fuel n : Nat) :
    decimal fuel n ⊆ L := by
  have hdigit : ∀ d < 10, digitByte false d = UInt8.ofNat (48 + d) := by decide
  induction fuel generalizing n with
  | zero => exact List.nil_subset L
  | succ fuel ih =>
      unfold decimal
      split
      · exact List.nil_subset L
      · refine List.append_subset.2 ⟨ih _, List.cons_subset.2 ⟨?_, List.nil_subset L⟩⟩
        have hmod := Nat.mod_lt n (show 0 < 10 by decide)
        rw [← hdigit _ hmod]
        exact h _ hmod

theorem printfD_subset (h : ∀ d < 10, digitByte false d ∈ L) (w n : Nat) : printfD w n ⊆ L :=
  fillLeft_subset (h 0 (by decide)) (decimal_subset h 20 n) w

end

/-- What the time stamp, the CPU and the thread are made of: digits and `" -.:"`. -/
def timeBytes : CStr := (List.range 10).map (digitByte false) ++ [32, 45, 46, 58]

/-- What else a record of some kind is printed with. -/
def fieldBytes : Nat → CStr
  | 0 => [78, 85, 76]
  | 1 => [76, 79, 83, 84, 111, 115, 116]
  | 2 => (List.range 16).map (digitByte false) ++ (List.range 16).map (digitByte true) ++
      [84, 69, 83, 79, 70, 76, 78, 68, 86, 80, 88, 120]
  | _ => (List.range 16).map (digitByte true) ++ [73, 68, 44]

/-- What a line about a record is made of, but for its end. -/
def lineBytes (traceid : Nat) : CStr := timeBytes ++ fieldBytes traceid

theorem digitByte_mem_lineBytes (traceid : Nat) : ∀ d < 10, digitByte false d ∈ lineBytes traceid :=
  fun _ hd ↦ List.mem_append_left _ <| List.mem_append_left _ <|
    List.mem_map_of_mem (List.mem_range.2 hd)

theorem printfInt_subset_lineBytes (traceid w : Nat) (x : Int) :
    printfInt w x ⊆ lineBytes traceid :=
  printfInt_subset (digitByte_mem_lineBytes traceid)
    (List.mem_append_left _ (by decide)) (List.mem_append_left _ (by decide)) w x

/-- A word in hexadecimal. -/
theorem fillLeft_hex_subset {fill : UInt8} {upper : Bool} {L : CStr} (hfill : fill ∈ L)
    (h : ∀ d < 16, digitByte upper d ∈ L) (w n : Nat) :
    fillLeft fill w (printfDigits 16 upper n) ⊆ L :=
  fillLeft_subset hfill (printfDigits_subset (by decide) h n) w

theorem rbtFmt_subset (re : RbtraceEntry) (h : re.traceid.toNat < 3) :
    rbtFmt re ⊆ lineBytes re.traceid.toNat := by
  unfold rbtFmt
  split
  · rename_i hid
    rw [hid]
    decide
  · rename_i hid
    rw [hid]
    exact List.append_subset.2 ⟨by decide, printfInt_subset_lineBytes 1 0 _⟩
  · rename_i hnull hlost
    have hid : re.traceid.toNat = 2 := by
      have h₀ : re.traceid.toNat ≠ 0 := hnull
      have h₁ : re.traceid.toNat ≠ 1 := hlost
      omega
    rw [hid]
    simp only [List.append_subset]
    exact ⟨⟨⟨⟨⟨⟨⟨by decide, printfHexAlt_subset (by decide) (by decide) (by decide) _ _⟩,
      by decide⟩,
      printfHexAlt_subset (by decide) (by decide) (by decide) _ _⟩, by decide⟩,
      printfInt_subset_lineBytes 2 4 _⟩, by decide⟩,
      fillLeft_hex_subset (by decide) (by decide) _ _⟩

/-- A line ends with its newline, and has no other. -/
theorem exists_formatTraceRecord_eq (re : RbtraceEntry) :
    ∃ body, formatTraceRecord re = body ++ [10] ∧ body ⊆ lineBytes re.traceid.toNat := by
  refine ⟨_, rfl, ?_⟩
  split
  · rename_i hid
    have hother : fieldBytes re.traceid.toNat = fieldBytes 3 := by
      have h : 3 ≤ re.traceid.toNat := hid
      generalize re.traceid.toNat = i at h
      match i, h with
      | i + 3, _ => rfl
    have hhex : ∀ a : BitVec 64, fillLeft 32 16 (printfDigits 16 true a.toNat) ⊆ lineBytes 3 :=
      fun a ↦ fillLeft_hex_subset (by decide) (by decide) 16 a.toNat
    rw [lineBytes, hother]
    simp only [List.append_subset, List.flatMap_cons, List.flatMap_nil]
    exact ⟨⟨by decide, printfInt_subset_lineBytes 3 0 _⟩, ⟨by decide, hhex _⟩, ⟨by decide, hhex _⟩,
      ⟨by decide, hhex _⟩, ⟨by decide, hhex _⟩, List.nil_subset _⟩
  · rename_i hid
    have hlt : re.traceid.toNat < 3 := not_le.1 hid
    have htid : ∀ i < 3, fillLeft 32 4 (rbtTidStr.getD i []) ⊆ lineBytes i := by decide
    have hspace : ∀ i < 3, ([32] : CStr) ⊆ lineBytes i := by decide
    exact List.append_subset.2 ⟨List.append_subset.2 ⟨htid _ hlt, hspace _ hlt⟩,
      rbtFmt_subset re hlt⟩

theorem exists_recordText_eq (showTimestamp : Bool) (gm : Tm) (re : RbtraceEntry) :
    ∃ body, recordText showTimestamp gm re = body ++ [10] ∧ body ⊆ lineBytes re.traceid.toNat := by
  obtain ⟨body, hbody, hsub⟩ := exists_formatTraceRecord_eq re
  have hdigit := digitByte_mem_lineBytes re.traceid.toNat
  have hsep : ∀ b ∈ ([32, 45, 46, 58] : CStr), ([b] : CStr) ⊆ lineBytes re.traceid.toNat := by
    intro b hb
    refine List.cons_subset.2 ⟨?_, List.nil_subset _⟩
    exact List.mem_append_left _ (List.mem_append_right _ hb)
  refine ⟨_, by rw [recordText, hbody, ← List.append_assoc], ?_⟩
  refine List.append_subset.2 ⟨?_, hsub⟩
  simp only [List.append_subset]
  refine ⟨⟨⟨⟨?_, printfInt_subset_lineBytes _ _ _⟩, hsep 32 (by decide)⟩,
    printfInt_subset_lineBytes _ _ _⟩, hsep 32 (by decide)⟩
  split
  · simp only [List.append_subset]
    exact ⟨⟨⟨⟨⟨⟨⟨⟨⟨⟨⟨printfD_subset hdigit _ _, hsep 45 (by decide)⟩, printfD_subset hdigit _ _⟩,
      hsep 32 (by decide)⟩, printfD_subset hdigit _ _⟩, hsep 58 (by decide)⟩,
      printfD_subset hdigit _ _⟩, hsep 58 (by decide)⟩, printfD_subset hdigit _ _⟩,
      hsep 46 (by decide)⟩,
      printfIntZero_subset hdigit (hsep 45 (by decide) List.mem_cons_self) _ _⟩,
      hsep 32 (by decide)⟩
  · exact List.nil_subset _

theorem fprintf_eq_self {s : CStr} (h : 37 ∉ s) : fprintf s = some s := by
  induction s with
  | nil => rfl
  | cons b s ih =>
      have hb : b ≠ 37 := fun hb ↦ h (hb ▸ List.mem_cons_self)
      rw [fprintf.eq_4 b s (fun format hb' _ ↦ hb hb') hb, ih fun hs ↦
        h (List.mem_cons_of_mem b hs)]
      rfl

/-! ## The lines of a file -/

section

variable {opts : PrintOpts} {gmtime : BitVec 64 → Option Tm} {rf : RbtraceFheader}

/-- The record is shown: its trace ID is selected and its time can be told. -/
def PrintOpts.Shows (opts : PrintOpts) (gmtime : BitVec 64 → Option Tm) (rf : RbtraceFheader)
    (re : RbtraceEntry) : Prop :=
  opts.traceIds &&& intShl re.traceid.toNat ≠ 0 ∧ (gmtime (re.timestamp.tvSec + rf.gmtoff)).isSome

instance (opts : PrintOpts) (gmtime : BitVec 64 → Option Tm) (rf : RbtraceFheader) :
    DecidablePred (opts.Shows gmtime rf) := fun _ ↦ inferInstanceAs (Decidable (_ ∧ _))

/-- A line that is printed is the text of a record. -/
theorem exists_of_mem_printRecords {recs : List (Nat × RbtraceEntry)} {text : CStr}
    (h : .record text ∈ printRecords opts gmtime rf recs) :
    ∃ t gm re, gmtime t = some gm ∧ text = recordText opts.showTimestamp gm re := by
  obtain ⟨r, -, hr⟩ := List.mem_flatMap.1 h
  unfold tracePrintFn at hr
  split at hr
  · cases hr
  · split at hr
    · cases List.mem_singleton.1 hr
    · rename_i gm hgm
      cases List.mem_singleton.1 hr
      exact ⟨_, gm, r.2, hgm, rfl⟩

/-- **Every line is safe to print.**  Whatever a file holds, and whatever `malloc` and `pread`
do: the line of a record fits into `record_buf` with its NUL, `fprintf` prints it as it is, it
ends with a newline, and what is in front of it is printable. -/
theorem safe_of_mem_printFile (hgm : ∀ t gm, gmtime t = some gm → gm.Valid) {io : PrbtIo}
    {file : List UInt8} {text : CStr} (h : .record text ∈ printFile opts gmtime io file) :
    text.length + 1 ≤ RECORD_BUF_SIZE ∧ fprintf text = some text ∧
      ∃ body, text = body ++ [10] ∧ ∀ b ∈ body, 32 ≤ b ∧ b < 127 := by
  obtain ⟨t, gm, re, ht, rfl⟩ := exists_of_mem_printRecords h
  obtain ⟨body, hbody, hsub⟩ := exists_recordText_eq opts.showTimestamp gm re
  have hbytes : ∀ b ∈ body, 32 ≤ b ∧ b < 127 ∧ b ≠ 37 := by
    have hline : ∀ i : Fin 64, (lineBytes i).all fun b ↦ 32 ≤ b ∧ b < 127 ∧ b ≠ 37 := by
      decide +kernel
    intro b hb
    exact of_decide_eq_true <| List.all_eq_true.1 (hline ⟨_, re.traceid.isLt⟩) b (hsub hb)
  have hlen := length_recordText_le (hgm t gm ht) opts.showTimestamp re
  refine ⟨Nat.succ_le_of_lt (hlen.trans_lt (by decide)), fprintf_eq_self ?_, body, hbody,
    fun b hb ↦ ⟨(hbytes b hb).1, (hbytes b hb).2.1⟩⟩
  rw [hbody, List.mem_append, List.mem_singleton]
  rintro (hb | hb)
  · exact (hbytes 37 hb).2.2 rfl
  · exact absurd hb (by decide)

/-- The line of a file with one record. -/
theorem safe_of_mem_printFile_one :
    ∃ text, .record text ∈ printFile ⟨true, BitVec.allOnes 64⟩ (fun _ ↦ some .utc) .smooth
      (traceFile (sampleHeader oneRing 0) [recordWithId 2]) ∧ text.length + 1 ≤ RECORD_BUF_SIZE := by
  have hlist : listing .smooth (traceFile (sampleHeader oneRing 0) [recordWithId 2]) =
      [recordWithId 2] :=
    listing_traceFile (j := 0) PrbtIo.smooth_ok (by decide) (by decide)
      (.inl ⟨rfl, rfl⟩) (by decide)
      (by decide) (.inl (by decide))
  have hmem : .record (recordText true .utc (recordWithId 2)) ∈
      printFile ⟨true, BitVec.allOnes 64⟩ (fun _ ↦ some .utc) .smooth
        (traceFile (sampleHeader oneRing 0) [recordWithId 2]) := by
    rw [printFile_of_all fun _ _ ↦ Option.some_ne_none _, hlist]
    exact List.mem_cons_self
  have hgm : ∀ (t : BitVec 64) gm, some Tm.utc = some gm → gm.Valid := by
    rintro t gm h
    obtain rfl := Option.some.inj h
    exact ⟨by decide, by decide, by decide, by decide, by decide⟩
  exact ⟨_, hmem, (safe_of_mem_printFile hgm hmem).1⟩

/-- The name of a record's kind is in its line. -/
theorem tid_isInfix_recordText (showTimestamp : Bool) (gm : Tm) {re : RbtraceEntry}
    (h : re.traceid.toNat < 3) :
    rbtTidStr.getD re.traceid.toNat [] <:+: recordText showTimestamp gm re := by
  have htid : ∀ i < 3, fillLeft 32 4 (rbtTidStr.getD i []) = rbtTidStr.getD i [] := by decide
  have hformat : rbtTidStr.getD re.traceid.toNat [] <+: formatTraceRecord re := by
    rw [formatTraceRecord, if_neg (not_le.2 (show re.traceid.toNat < RBT_TRAFFIC_LAST from h)),
      htid _ h, List.append_assoc, List.append_assoc]
    exact List.prefix_append _ _
  exact hformat.isInfix.trans (List.suffix_append _ _).isInfix

/-- **Which lines match**: those of the two kinds. -/
theorem matches_recordText_iff (showTimestamp : Bool) (gm : Tm) (re : RbtraceEntry) :
    (PrintLine.record (recordText showTimestamp gm re)).Matches ↔
      re.traceid.toNat = 0 ∨ re.traceid.toNat = 2 := by
  constructor
  · intro h
    by_contra! hid
    obtain ⟨body, hbody, hsub⟩ := exists_recordText_eq showTimestamp gm re
    have htext : recordText showTimestamp gm re ⊆ lineBytes re.traceid.toNat ++ [10] := by
      rw [hbody]
      exact List.append_subset.2
        ⟨List.Subset.trans hsub (List.subset_append_left _ _), List.subset_append_right _ _⟩
    -- a loss report has no `E` and no `N`, a record of an unknown kind no `T` and no `N`
    have hletters : ∀ i : Fin 64, i.val ≠ 0 → i.val ≠ 2 →
        78 ∉ lineBytes i ++ [10] ∧ (69 ∉ lineBytes i ++ [10] ∨ 84 ∉ lineBytes i ++ [10]) := by
      decide
    obtain ⟨hn, het⟩ := hletters ⟨_, re.traceid.isLt⟩ hid.1 hid.2
    rcases h with h | h
    · rcases het with he | ht
      · exact he (htext (h.subset (by decide)))
      · exact ht (htext (h.subset (by decide)))
    · exact hn (htext (h.subset (by decide)))
  · rintro (hid | hid)
    · have h := tid_isInfix_recordText showTimestamp gm (hid.trans_lt (by decide))
      rw [hid] at h
      exact .inr h
    · have h := tid_isInfix_recordText showTimestamp gm (hid.trans_lt (by decide))
      rw [hid] at h
      exact .inl h

theorem countP_printRecords (recs : List (Nat × RbtraceEntry)) :
    (printRecords opts gmtime rf recs).countP (fun l ↦ decide l.Matches) =
      recs.countP fun r ↦ opts.Shows gmtime rf r.2 ∧
        (r.2.traceid.toNat = 0 ∨ r.2.traceid.toNat = 2) := by
  have hone : ∀ r : Nat × RbtraceEntry,
      (tracePrintFn opts gmtime rf r.1 r.2).countP (fun l ↦ decide l.Matches) =
        if opts.Shows gmtime rf r.2 ∧ (r.2.traceid.toNat = 0 ∨ r.2.traceid.toNat = 2) then 1
        else 0 := by
    intro r
    unfold tracePrintFn
    split
    · rename_i hid
      exact (if_neg fun h ↦ h.1.1 hid).symm
    · rename_i hid
      cases hgm : gmtime (r.2.timestamp.tvSec + rf.gmtoff) with
      | none =>
          rw [if_neg fun h ↦ by simpa [hgm] using h.1.2]
          rfl
      | some gm =>
          have hshows : opts.Shows gmtime rf r.2 := ⟨hid, by rw [hgm]; rfl⟩
          simp only [List.countP_singleton, decide_eq_true_eq, matches_recordText_iff, hshows,
            true_and]
  induction recs with
  | nil => rfl
  | cons r recs ih =>
      have hcons : printRecords opts gmtime rf (r :: recs) =
          tracePrintFn opts gmtime rf r.1 r.2 ++ printRecords opts gmtime rf recs := rfl
      rw [hcons, List.countP_append, hone, ih, List.countP_cons, add_comm]
      simp only [decide_eq_true_eq]

/-- **What the tests count.**  For every file and all options: the lines of the listing that
contain `TEST` or `NULL` are as many as the records shown that are of one of the two kinds.
The listing is the lines of the records; the lines about the header, which `egrep` sees as
well, are not in it. -/
theorem countP_printFile (opts : PrintOpts) (gmtime : BitVec 64 → Option Tm) (io : PrbtIo)
    (file : List UInt8) :
    (printFile opts gmtime io file).countP (fun l ↦ decide l.Matches) =
      (listing io file).countP fun re ↦ opts.Shows gmtime (readHeader file).hdr re ∧
        (re.traceid.toNat = 0 ∨ re.traceid.toNat = 2) := by
  rw [printFile, countP_printRecords, listing, List.countP_map, List.countP_map]
  rfl

end

end Rbtrace
