import Rbtrace.HeaderRoundTrip
import Rbtrace.PageLoops

/-!
# Headers the reader was not made for

`prbt` believes what an accepted header says: the offsets of its strings, the size of a
page and the wrap position.  Here is exactly which of them lead it out of bounds
(`inBounds_iff`): a string without a NUL behind its offset, a page size beyond 64 bits, a
wrap position in a file with empty pages, and one in the middle of a record whose page is
full.
-/

namespace Rbtrace

/-! ## Strings -/

/-- The string a line prints, if it prints one, lies inside the header. -/
def HeaderLine.InHeader : HeaderLine → Prop
  | .openAt _ _ zone => zone.isSome
  | .ringName name => name.isSome
  | .ringDesc desc => desc.isSome
  | _ => True

/-- At each of the three offsets the header has a NUL still to come. -/
def StringsInHeader (file : List UInt8) : Prop :=
  ∀ off ∈ [(readHeader file).hdr.tzOff, (readHeader file).hdr.nameOff, (readHeader file).hdr.descOff],
    0 ∈ (file.take RBTRACE_FHEADER_SIZE).drop off

section

variable {gmtime : BitVec 64 → Option Tm} {errno : Int} {file : List UInt8}

/-- An accepted header has its strings in it exactly if their NULs are. -/
theorem inHeader_iff (hvalid : ValidHeader gmtime file) :
    (∀ line ∈ (parseTraceHeader ⟨errno, none, gmtime⟩ file).2, line.InHeader) ↔
      StringsInHeader file := by
  obtain ⟨gm, -, hlines⟩ := hvalid.parseTraceHeader errno
  rw [hlines, StringsInHeader]
  simp only [List.cons_append, List.forall_mem_cons, List.forall_mem_append, HeaderLine.InHeader,
    CString.read_isSome_iff, true_and, List.not_mem_nil, false_imp_iff, implies_true, and_true]
  refine and_congr_right fun _ ↦ and_iff_right fun line hline ↦ ?_
  split at hline
  · rw [List.mem_singleton.1 hline]
    trivial
  · exact absurd hline List.not_mem_nil

end

/-! ## Pages -/

/-- From offset `off` of a page of `ps` bytes, `n` of them read, every record is inside the
page. -/
def StaysInPage (ps n off : Nat) : Prop :=
  ∀ i, off + sizeofEntry * i < min ps n → off + sizeofEntry * i + sizeofEntry ≤ ps

/-- A start at a record stays in the page; any other start does so only if the last place
it comes to is behind the bytes read. -/
theorem staysInPage_iff {N start : Nat} (hN : N ≠ 0) (n : Nat) :
    StaysInPage (sizeofEntry * N) n (start % (sizeofEntry * N)) ↔
      start % sizeofEntry = 0 ∨ n + sizeofEntry ≤ sizeofEntry * N + start % sizeofEntry := by
  have hlt := Nat.mod_lt start (Nat.mul_pos (show 0 < sizeofEntry by decide) (Nat.pos_of_ne_zero hN))
  rw [← Nat.mod_mod_of_dvd start (Nat.dvd_mul_right sizeofEntry N)]
  generalize start % (sizeofEntry * N) = off at *
  unfold StaysInPage sizeofEntry at *
  constructor
  · intro h
    have hlast := h (N - 1 - off / 56)
    omega
  · intro h i hi
    omega

section

variable {io : PrbtIo} {hdr body : List UInt8} {prf : PaddedRbtraceFheader} {ps : Nat}

/-- A page of no bytes ends a pass. -/
theorem pageLoop_zero {parseFn : ParseFn} {atEnd : Nat → Nat → Bool}
    (hio : ∀ k, io.preadFails k = false) (file : List UInt8) (fuel p off : Nat) (st : PageState) :
    (pageLoop io parseFn file 0 atEnd (fuel + 1) p off st).2 = none := by
  rw [pageLoop, hio, loadTracePage, if_neg Bool.false_ne_true]
  rfl

/-- A fault is one of the first or of the second pass. -/
theorem parseTraceFile_ne_fault {parseFn : ParseFn} {file : List UInt8} {junk : Nat → UInt8}
    (hjunk : io.malloc = some junk) (hps : sizeofEntry * prf.hdr.nrRecords % 2 ^ 64 = ps)
    (hzero : prf.hdr.wrapPos ≤ RBTRACE_FHEADER_SIZE ∨ ps ≠ 0)
    (hfirst : (firstPass io parseFn file prf ps junk).2 ≠ some .fault)
    (hsecond : ∀ st : PageState, st.page.length = ps →
      (secondPass io parseFn file prf ps st).2 ≠ some .fault) :
    (parseTraceFile io parseFn file prf).2 ≠ .fault := by
  have hlen : (firstPass io parseFn file prf ps junk).1.page.length = ps :=
    (calls_prefix_pageLoop ..).2 (by simp)
  have hsecond := hsecond _ hlen
  rw [parseTraceFile_eq_passes io parseFn file prf ps hjunk hps hzero]
  split
  · rename_i e he
    intro h
    rw [he] at hfirst
    exact hfirst (congrArg some h)
  split
  · exact nofun
  · dsimp only
    intro h
    cases he : (secondPass io parseFn file prf ps (firstPass io parseFn file prf ps junk).1).2 with
    | none =>
        rw [he] at h
        exact absurd h nofun
    | some e =>
        rw [he] at h hsecond
        exact hsecond (congrArg some h)

/-- The reader stays in its pages exactly if the first pass stays in its first one. -/
theorem parseTraceFile_ne_fault_iff {junk : Nat → UInt8} (hjunk : io.malloc = some junk)
    (hio : ∀ k, io.preadFails k = false) (hhdr : hdr.length = RBTRACE_FHEADER_SIZE)
    (hN : prf.hdr.nrRecords ≠ 0) (hps : ps = sizeofEntry * prf.hdr.nrRecords) (hsize : ps < 2 ^ 64) :
    (∀ parseFn, (parseTraceFile io parseFn (hdr ++ body) prf).2 ≠ .fault) ↔
      StaysInPage ps (body.length - (prf.hdr.wrapPos - RBTRACE_FHEADER_SIZE) / ps * ps)
        ((prf.hdr.wrapPos - RBTRACE_FHEADER_SIZE) % ps) := by
  have hzero : ps ≠ 0 := hps ▸ Nat.mul_ne_zero (by decide) hN
  have hmod : sizeofEntry * prf.hdr.nrRecords % 2 ^ 64 = ps := hps ▸ Nat.mod_eq_of_lt (hps ▸ hsize)
  constructor
  · -- the callback that never stops is led out of the page
    intro h
    by_contra hout
    unfold StaysInPage at hout
    push Not at hout
    obtain ⟨i, hi, hleave⟩ := hout
    have hfault : (firstPass io (fun _ _ ↦ false) (hdr ++ body) prf ps junk).2 = some .fault :=
      pageLoop_eq_fault hio hhdr (by simp) hi hleave _
    refine h (fun _ _ ↦ false) ?_
    rw [parseTraceFile_eq_passes io _ _ prf ps hjunk hmod (.inr hzero), hfault]
  · intro h parseFn
    have hfuel : ∀ p, body.length - p * ps < (hdr ++ body).length + 1 := fun p ↦ by
      rw [List.length_append]
      omega
    refine parseTraceFile_ne_fault hjunk hmod (.inr hzero) ?_ fun st hst ↦ ?_
    · exact pageLoop_ne_fault hio hhdr hps (Nat.pos_of_ne_zero hN) _ _ _ _ (hfuel _) (by simp) h
    · refine pageLoop_ne_fault hio hhdr hps (Nat.pos_of_ne_zero hN) _ _ _ _ (hfuel _) hst ?_
      intro i hi
      subst hps
      unfold sizeofEntry at *
      omega

/-- What keeps the first pass in its pages: it starts at the head of the file, or at a
record, or so that the last place it comes to in its first page is not before the end of
the file. -/
def WrapInPages (prf : PaddedRbtraceFheader) (length : Nat) : Prop :=
  prf.hdr.wrapPos ≤ RBTRACE_FHEADER_SIZE ∨
    prf.hdr.nrRecords ≠ 0 ∧
      let ps := sizeofEntry * prf.hdr.nrRecords
      let start := prf.hdr.wrapPos - RBTRACE_FHEADER_SIZE
      start % sizeofEntry = 0 ∨
        length - RBTRACE_FHEADER_SIZE - start / ps * ps + sizeofEntry ≤ ps + start % sizeofEntry

theorem wrapInPages_iff (hhdr : hdr.length = RBTRACE_FHEADER_SIZE) (hN : prf.hdr.nrRecords ≠ 0)
    (hps : ps = sizeofEntry * prf.hdr.nrRecords) :
    WrapInPages prf (hdr ++ body).length ↔
      StaysInPage ps (body.length - (prf.hdr.wrapPos - RBTRACE_FHEADER_SIZE) / ps * ps)
        ((prf.hdr.wrapPos - RBTRACE_FHEADER_SIZE) % ps) := by
  subst hps
  rw [staysInPage_iff hN, WrapInPages, List.length_append, hhdr, Nat.add_sub_cancel_left,
    and_iff_right hN]
  refine or_iff_right_of_imp fun h ↦ .inl ?_
  rw [Nat.sub_eq_zero_of_le h]
  rfl

/-- Pages are left alone exactly if there are none, or the wrap position is in them. -/
theorem inPages_iff (hio : ∀ k, io.preadFails k = false) (hhdr : hdr.length = RBTRACE_FHEADER_SIZE)
    (hsize : sizeofEntry * prf.hdr.nrRecords < 2 ^ 64) :
    (∀ parseFn, (parseTraceFile io parseFn (hdr ++ body) prf).2 ≠ .fault) ↔
      io.malloc = none ∨ WrapInPages prf (hdr ++ body).length := by
  cases hjunk : io.malloc with
  | none =>
      refine iff_of_true (fun parseFn ↦ ?_) (.inl rfl)
      rw [parseTraceFile, hjunk]
      intro h
      cases h
  | some junk =>
      rw [or_iff_right (Option.some_ne_none junk)]
      by_cases hN : prf.hdr.nrRecords = 0
      · have hps : sizeofEntry * prf.hdr.nrRecords % 2 ^ 64 = 0 := by rw [hN]; rfl
        by_cases hw : prf.hdr.wrapPos ≤ RBTRACE_FHEADER_SIZE
        · refine iff_of_true (fun parseFn ↦ ?_) (.inl hw)
          refine parseTraceFile_ne_fault hjunk hps (.inl hw) ?_ fun st _ ↦ ?_
          · rw [firstPass, pageLoop_zero hio]
            intro h
            cases h
          · rw [secondPass, pageLoop_zero hio]
            intro h
            cases h
        · -- `page_idx = (wrap_pos - sizeof(*prf)) / page_size` divides by zero
          refine iff_of_false (fun h ↦ h (fun _ _ ↦ false) ?_) ?_
          · rw [parseTraceFile, hjunk]
            exact congrArg Prod.snd (if_pos ⟨not_le.1 hw, hps⟩)
          · rintro (h | h)
            · exact hw h
            · exact h.1 hN
      · rw [parseTraceFile_ne_fault_iff hjunk hio hhdr hN rfl hsize, wrapInPages_iff hhdr hN rfl]

end

/-! ## Accepted headers -/

/-- **Which accepted headers are harmless.**  With all reads succeeding, the strings that
are printed lie inside the header, the page size does not wrap and no callback is led out
of the page or into a division by zero, exactly if each of the three offsets has a NUL
behind it, the number of records is small enough, and the wrap position is in the pages. -/
theorem inBounds_iff (io : PrbtIo) (hio : ∀ k, io.preadFails k = false)
    (gmtime : BitVec 64 → Option Tm) (errno : Int) (file : List UInt8)
    (hsize : RBTRACE_FHEADER_SIZE ≤ file.length)
    (haccepted : (parseTraceHeader ⟨errno, none, gmtime⟩ file).1 = 0) :
    ((∀ line ∈ (parseTraceHeader ⟨errno, none, gmtime⟩ file).2, line.InHeader) ∧
      sizeofEntry * (readHeader file).hdr.nrRecords < 2 ^ 64 ∧
      ∀ parseFn, (parseTraceFile io parseFn file (readHeader file)).2 ≠ .fault) ↔
    StringsInHeader file ∧ (readHeader file).hdr.nrRecords ≤ (2 ^ 64 - 1) / sizeofEntry ∧
      (io.malloc = none ∨ WrapInPages (readHeader file) file.length) := by
  have hmul : sizeofEntry * (readHeader file).hdr.nrRecords < 2 ^ 64 ↔
      (readHeader file).hdr.nrRecords ≤ (2 ^ 64 - 1) / sizeofEntry := by
    unfold sizeofEntry
    omega
  refine and_congr (inHeader_iff ((accepts_of_size hsize).1 haccepted)) ?_
  rw [hmul]
  refine and_congr_right fun hnr ↦ ?_
  have hpages := @inPages_iff io (file.take RBTRACE_FHEADER_SIZE) (file.drop RBTRACE_FHEADER_SIZE)
    (readHeader file) hio (List.length_take_of_le hsize) (hmul.2 hnr)
  rwa [List.take_append_drop] at hpages

/-- The headers the daemon writes have their strings in them. -/
theorem stringsInHeader_withWrapPos {cfg : RingConfig} {gm : Tm} (ts : Timespec) (w : Nat)
    (hzone : 0 ∉ gm.tmZone) (hname : 0 ∉ cfg.rcName) (hdesc : 0 ∉ cfg.rcDesc)
    (hfit : StringsFit cfg gm) (hsize : cfg.rcSize < 2 ^ 32) (body : List UInt8) :
    StringsInHeader (((rbtraceFormatHeader cfg ts gm).withWrapPos w).toBytes ++ body) := by
  obtain ⟨hz, hn, hd⟩ := read_strings ts w hzone hname hdesc hfit
  rw [StringsInHeader, readHeader_withWrapPos ts w hfit hsize body,
    List.take_left' (PaddedRbtraceFheader.length_toBytes _)]
  simp only [List.forall_mem_cons, List.not_mem_nil, false_imp_iff, implies_true, and_true,
    ← CString.read_isSome_iff, hz, hn, hd, Option.isSome_some]

/-- Local time in UTC, for small examples. -/
def Tm.utc : Tm := ⟨0, 1, 0, 0, 0, 0, [85, 84, 67]⟩

/-- The header of a ring, with its wrap position set. -/
def sampleHeader (cfg : RingConfig) (wrapPos : Nat) : PaddedRbtraceFheader :=
  (rbtraceFormatHeader cfg ⟨0, 0⟩ .utc).withWrapPos wrapPos

theorem ioRing_stringsFit {n : Nat} (h : n * sizeofEntry < 2 ^ 32) : StringsFit (ioRing n h) .utc := by
  show 3 + 2 + 11 + 3 ≤ 512 - 80
  decide

/-- A file of two records that is wrapped at the second. -/
theorem inBounds_wrapped :
    (∀ line ∈ (parseTraceHeader ⟨0, none, fun _ ↦ some .utc⟩
      ((sampleHeader oneRing 568).toBytes ++ List.replicate 112 7)).2, line.InHeader) ∧
    sizeofEntry * (readHeader
      ((sampleHeader oneRing 568).toBytes ++ List.replicate 112 7)).hdr.nrRecords < 2 ^ 64 ∧
    ∀ parseFn, (parseTraceFile .smooth parseFn
      ((sampleHeader oneRing 568).toBytes ++ List.replicate 112 7)
      (readHeader ((sampleHeader oneRing 568).toBytes ++ List.replicate 112 7))).2 ≠ .fault := by
  have hfit : StringsFit oneRing .utc := ioRing_stringsFit _
  have hvalid : ValidHeader (fun _ ↦ some .utc)
      ((sampleHeader oneRing 568).toBytes ++ List.replicate 112 7) :=
    validHeader_withWrapPos _ _ hfit (by decide) rfl _
  refine (inBounds_iff .smooth PrbtIo.smooth_ok.pread _ 0 _ hvalid.size
    ((accepts_of_size hvalid.size).2 hvalid)).2 ⟨?_, ?_, .inr (.inr ?_)⟩
  · exact stringsInHeader_withWrapPos _ _ (by decide) (by decide) (by decide) hfit (by decide) _
  · rw [sampleHeader, readHeader_withWrapPos _ _ hfit (by decide)]
    decide
  · rw [sampleHeader, readHeader_withWrapPos _ _ hfit (by decide)]
    exact ⟨by decide, .inl rfl⟩

/-- A header without records to a page and with a wrap position: it is accepted, and the
reader divides by zero. -/
theorem inBounds_emptyPage : ∃ file gmtime, RBTRACE_FHEADER_SIZE ≤ file.length ∧
    (parseTraceHeader ⟨0, none, gmtime⟩ file).1 = 0 ∧
    (parseTraceFile .smooth (fun _ _ ↦ false) file (readHeader file)).2 = .fault := by
  have hfit : StringsFit (ioRing 0 (by decide)) .utc := ioRing_stringsFit _
  have hvalid : ValidHeader (fun _ ↦ some .utc)
      ((sampleHeader (ioRing 0 (by decide)) 513).toBytes ++ []) :=
    validHeader_withWrapPos _ _ hfit (by decide) rfl _
  refine ⟨_, _, hvalid.size, (accepts_of_size hvalid.size).2 hvalid, ?_⟩
  rw [sampleHeader, parseTraceFile, readHeader_withWrapPos _ _ hfit (by decide)]
  rfl

end Rbtrace
