import Rbtrace.Truncated

/-!
# A page that cannot be read

A failed `pread` comes back as `(size_t)-1`, which is not `<= 0`: the loops take it for a
very long page, and list whatever the page held before.  `cleanParseTraceFile` is a reader
that ends its listing there; the two agree only where the wrap position happens to be the
first thing the second pass looks at in the page (`readError_clean_iff`).
-/

namespace Rbtrace

/-! ## A reader that ends at an error

The loops of `parse_trace_file`, with a test for a failed load in front. -/

/-- The outer loop. -/
def cleanPageLoop (io : PrbtIo) (parseFn : ParseFn) (file : List UInt8) (ps : Nat)
    (atEnd : Nat → Nat → Bool) :
    Nat → Nat → Nat → PageState → PageState × Option ParseExit
  | 0, _, _, st => (st, some .fault)
  | fuel + 1, p, off, st =>
      if io.preadFails st.loads then (⟨st.log, st.page, st.loads + 1⟩, some .done)
      else
        let r := loadTracePage false file p ps st.page
        let st₁ : PageState := ⟨st.log, r.2, st.loads + 1⟩
        if r.1 = 0 then (st₁, none)
        else if r.1 ≤ off then (st₁, some .invalid)
        else
          let q := recordLoop parseFn r.2 r.1 (atEnd p) (r.2.length / sizeofEntry + 1) off st.log
          let st₂ : PageState := ⟨q.1, r.2, st.loads + 1⟩
          match q.2 with
          | some e => (st₂, some e)
          | none =>
              if r.1 < ps then (st₂, none)
              else cleanPageLoop io parseFn file ps atEnd fuel (p + 1) 0 st₂

section

variable (io : PrbtIo) (parseFn : ParseFn) (file : List UInt8) (prf : PaddedRbtraceFheader)
  (ps : Nat)

/-- The first pass. -/
def cleanFirstPass (junk : Nat → UInt8) : PageState × Option ParseExit :=
  cleanPageLoop io parseFn file ps (fun _ _ ↦ false) (file.length + 1)
    ((prf.hdr.wrapPos - RBTRACE_FHEADER_SIZE) / ps) ((prf.hdr.wrapPos - RBTRACE_FHEADER_SIZE) % ps)
    ⟨.empty, (List.range ps).map junk, 0⟩

/-- The second pass. -/
def cleanSecondPass (st : PageState) : PageState × Option ParseExit :=
  cleanPageLoop io parseFn file ps
    (fun p off ↦ prf.hdr.wrapPos ≤ RBTRACE_FHEADER_SIZE + p * ps + off) (file.length + 1) 0 0 st

/-- The whole listing, for pages of `sizeofEntry * nrRecords` bytes. -/
def cleanParseTraceFile : ParseLog :=
  let ps := sizeofEntry * prf.hdr.nrRecords
  match io.malloc with
  | none => .empty
  | some junk =>
      let first := cleanFirstPass io parseFn file prf ps junk
      match first.2 with
      | some _ => first.1.log
      | none =>
          if prf.hdr.wrapPos = 0 ∨ prf.hdr.wrapPos = RBTRACE_FHEADER_SIZE then first.1.log
          else (cleanSecondPass io parseFn file prf ps first.1).1.log

end

/-! ## Up to the error -/

section

variable {io : PrbtIo} {parseFn : ParseFn} {file hdr body : List UInt8} {ps N j R : Nat}
  {atEnd : Nat → Nat → Bool}

theorem cleanPageLoop_of_fails {st : PageState} (hfail : io.preadFails st.loads = true)
    (fuel p off : Nat) :
    cleanPageLoop io parseFn file ps atEnd (fuel + 1) p off st =
      (⟨st.log, st.page, st.loads + 1⟩, some .done) := by
  rw [cleanPageLoop, if_pos hfail]

/-- A page after which neither reader goes on is treated alike. -/
theorem cleanPageLoop_of_short {st : PageState} (hok : io.preadFails st.loads = false) {p : Nat}
    (hshort : (loadTracePage false file p ps st.page).1 < ps) (fuel off : Nat) :
    cleanPageLoop io parseFn file ps atEnd (fuel + 1) p off st =
      pageLoop io parseFn file ps atEnd (fuel + 1) p off st := by
  rw [cleanPageLoop, pageLoop, hok, if_neg Bool.false_ne_true]
  dsimp only
  set r := loadTracePage false file p ps st.page
  by_cases hzero : r.1 = 0
  · rw [if_pos hzero, if_pos hzero]
  by_cases hinvalid : r.1 ≤ off
  · rw [if_neg hzero, if_neg hzero, if_pos hinvalid, if_pos hinvalid]
  rw [if_neg hzero, if_neg hzero, if_neg hinvalid, if_neg hinvalid]
  cases (recordLoop parseFn r.2 r.1 (atEnd p) (r.2.length / sizeofEntry + 1) off st.log).2 with
  | some e => rfl
  | none => exact (if_pos hshort).trans (if_pos hshort).symm

theorem cleanPageLoop_goesOn (hhdr : hdr.length = RBTRACE_FHEADER_SIZE) :
    GoesOn io parseFn body ps atEnd (cleanPageLoop io parseFn (hdr ++ body) ps atEnd) := by
  intro p off st log' hok hwhole hoff hpage hrec fuel
  have hlen := length_pageBytes_of_whole hwhole
  rw [cleanPageLoop, hok, if_neg Bool.false_ne_true, loadTracePage_pageBytes hhdr]
  dsimp only
  rw [hlen, List.drop_eq_nil_of_le hpage.le, List.append_nil, hlen, if_neg (by omega),
    if_neg (by omega), hrec]
  dsimp only
  rw [if_neg (lt_irrefl ps)]

/-- **At the error.**  The reader takes the failed load for a page of `2 ^ 64 - 1` bytes: if
the wrap position is not the first thing it finds, it hands over what the page held. -/
theorem calls_lt_pageLoop_of_fails {st : PageState} (hfail : io.preadFails st.loads = true)
    {p off : Nat} (hsize : ps < 2 ^ 64) (hpage : st.page.length = ps)
    (hin : off + sizeofEntry ≤ ps) (hend : atEnd p off = false) (fuel : Nat) :
    st.log.calls.length <
      (pageLoop io parseFn file ps atEnd (fuel + 1) p off st).1.log.calls.length := by
  have hlt : off < preadError := by
    unfold preadError sizeofEntry at *
    omega
  have hcall := @calls_lt_recordLoop parseFn st.page preadError off (atEnd p) hlt hend
    (hpage ▸ hin) (st.page.length / sizeofEntry) st.log
  rw [pageLoop, hfail, loadTracePage, if_pos rfl]
  dsimp only
  rw [if_neg (Nat.ne_of_gt (Nat.zero_lt_of_lt hlt)), if_neg (Nat.not_le.2 hlt)]
  split
  · exact hcall
  split
  · exact hcall
  · exact hcall.trans_le
      (calls_prefix_pageLoop file fuel (p + 1) 0 ⟨_, st.page, st.loads + 1⟩).1.length_le

/-- If it is, nothing of the page is handed over. -/
theorem pageLoop_of_fails_atEnd {st : PageState} (hfail : io.preadFails st.loads = true) {p : Nat}
    (hend : atEnd p 0 = true) (fuel : Nat) :
    pageLoop io parseFn file ps atEnd (fuel + 1) p 0 st =
      (⟨st.log, st.page, st.loads + 1⟩, some .done) := by
  have hpos : ¬ preadError ≤ 0 := by decide
  rw [pageLoop, hfail, loadTracePage, if_pos rfl]
  dsimp only
  rw [if_neg (by decide), if_neg hpos, recordLoop, if_neg hpos, if_pos hend]

end

/-! ## The two readers compared -/

section

variable {io : PrbtIo} {hdr body : List UInt8} {N j R : Nat}

/-- The number of loads of a listing during which none fails: the first pass loads the
pages from the wrap position to the end of the file, where it finds a page that is not
whole, and the second those up to the wrap position. -/
def loadsMade (N j R : Nat) : Nat := R / (sizeofEntry * N) + if j = 0 then 1 else 2

theorem HeaderFits.cleanFirstPass_eq (h : HeaderFits hdr N j R) (file : List UInt8)
    (junk : Nat → UInt8) :
    cleanFirstPass io (fun _ _ ↦ false) file (readHeader hdr) (sizeofEntry * N) junk =
      cleanPageLoop io (fun _ _ ↦ false) file (sizeofEntry * N) (fun _ _ ↦ false) (file.length + 1)
        (j / N) (sizeofEntry * (j % N)) ⟨.empty, (List.range (sizeofEntry * N)).map junk, 0⟩ := by
  rw [cleanFirstPass, h.start_eq, Nat.mul_div_mul_left _ _ (by decide), Nat.mul_mod_mul_left]

/-- An error in the first pass: more is listed than should be. -/
theorem HeaderFits.calls_lt_of_fails_first (h : HeaderFits hdr N j R) (hbody : body.length = R)
    {junk : Nat → UInt8} (hjunk : io.malloc = some junk) {k : Nat}
    (hok : ∀ i < k, io.preadFails i = false) (hfail : io.preadFails k = true)
    (hk : j / N + k ≤ R / (sizeofEntry * N)) :
    (cleanParseTraceFile io (fun _ _ ↦ false) (hdr ++ body) (readHeader hdr)).calls.length <
      (parseTraceFile io (fun _ _ ↦ false) (hdr ++ body) (readHeader hdr)).1.calls.length := by
  have hreal := h.firstPass_after hbody junk (pageLoop_goesOn h.size) hk hok
  have hclean := h.firstPass_after hbody junk (cleanPageLoop_goesOn h.size) hk hok
  have hpage := firstPassState_page hbody junk hk
  have hloads := @firstPassState_loads body N j junk k
  set st := firstPassState body N j junk k
  rw [← hloads] at hfail
  have hin : sizeofEntry * startSlot N j k + sizeofEntry ≤ sizeofEntry * N := by
    have := Nat.mul_le_mul_left sizeofEntry (h.startSlot_lt k)
    rwa [Nat.mul_succ] at this
  rw [← h.firstPass_eq] at hreal
  rw [← h.cleanFirstPass_eq, cleanPageLoop_of_fails hfail] at hclean
  have hcleanCalls : (cleanParseTraceFile io (fun _ _ ↦ false) (hdr ++ body)
      (readHeader hdr)).calls = st.log.calls := by
    simp only [cleanParseTraceFile, hjunk, h.nrRecords, hclean]
  rw [hcleanCalls]
  refine lt_of_lt_of_le ?_
    (calls_prefix_parseTraceFile hjunk h.pageSize_eq h.pageSize_pos.ne' _ _).length_le
  rw [hreal]
  exact calls_lt_pageLoop_of_fails hfail h.fits hpage hin rfl _

/-- Without an error both first passes end in the same state. -/
theorem HeaderFits.firstPass_done (h : HeaderFits hdr N j R) (hbody : body.length = R)
    (junk : Nat → UInt8) {n : Nat} (hn : R / (sizeofEntry * N) = j / N + n)
    (hok : ∀ i ≤ n, io.preadFails i = false) :
    ∃ st : PageState, st.loads = n + 1 ∧ st.page.length = sizeofEntry * N ∧
      firstPass io (fun _ _ ↦ false) (hdr ++ body) (readHeader hdr) (sizeofEntry * N) junk =
        (st, none) ∧
      cleanFirstPass io (fun _ _ ↦ false) (hdr ++ body) (readHeader hdr) (sizeofEntry * N) junk =
        (st, none) := by
  have hok' : ∀ i < n, io.preadFails i = false := fun i hi ↦ hok i hi.le
  have hreal := h.firstPass_after hbody junk (pageLoop_goesOn h.size) hn.ge hok'
  have hclean := h.firstPass_after hbody junk (cleanPageLoop_goesOn h.size) hn.ge hok'
  have hpage := firstPassState_page hbody junk hn.ge
  have hloads := @firstPassState_loads body N j junk n
  have hslot := h.startSlot_eq_or_lt n
  rw [← hn] at hreal hclean hslot
  set st := firstPassState body N j junk n
  have hload : io.preadFails st.loads = false := hloads ▸ hok n le_rfl
  have hlast := last_short h.pos hbody
  have hshort : (loadTracePage false (hdr ++ body) (R / (sizeofEntry * N)) (sizeofEntry * N)
      st.page).1 < sizeofEntry * N := by
    rw [loadTracePage_pageBytes h.size, length_pageBytes_last h.pos hbody]
    exact Nat.mod_lt R h.pageSize_pos
  obtain ⟨log', hlog', -⟩ := @pageLoop_last io hdr body _ N h.size rfl _ (startSlot N j n) st hload
    hpage hlast (hbody ▸ hslot) ((hdr ++ body).length - n)
  rw [h.firstPass_eq, h.cleanFirstPass_eq, hreal, hclean, cleanPageLoop_of_short hload hshort, hlog']
  refine ⟨_, congrArg (· + 1) hloads, ?_, rfl, rfl⟩
  rw [List.length_append, List.length_drop, hpage, length_pageBytes_last h.pos hbody]
  exact Nat.add_sub_cancel' (Nat.mod_lt R h.pageSize_pos).le

/-- The test of the second pass against the wrap position. -/
def beyondWrap (prf : PaddedRbtraceFheader) (ps p off : Nat) : Bool :=
  prf.hdr.wrapPos ≤ RBTRACE_FHEADER_SIZE + p * ps + off

/-- In records, it is a comparison with `j`. -/
theorem beyondWrap_eq {prf : PaddedRbtraceFheader}
    (hwrap : prf.hdr.wrapPos = RBTRACE_FHEADER_SIZE + sizeofEntry * j) (p t : Nat) :
    beyondWrap prf (sizeofEntry * N) p (sizeofEntry * t) = decide (j ≤ p * N + t) := by
  have hmul : p * (sizeofEntry * N) + sizeofEntry * t = sizeofEntry * (p * N + t) := by ring
  rw [beyondWrap, hwrap, Nat.add_assoc, hmul]
  exact decide_eq_decide.2 (Nat.add_le_add_iff_left.trans
    (Nat.mul_le_mul_left_iff (show 0 < sizeofEntry by decide)))

/-- The second pass gets to every page up to the one the wrap position is in. -/
theorem HeaderFits.secondPass_after (h : HeaderFits hdr N j R) (hbody : body.length = R)
    (hwrap : (readHeader hdr).hdr.wrapPos = RBTRACE_FHEADER_SIZE + sizeofEntry * j)
    {α : Type*} {loop : Nat → Nat → Nat → PageState → α}
    (hloop : GoesOn io (fun _ _ ↦ false) body (sizeofEntry * N)
      (beyondWrap (readHeader hdr) (sizeofEntry * N)) loop)
    {m : Nat} (hm : m ≤ j / N) {st : PageState} (hpage : st.page.length = sizeofEntry * N)
    (hok : ∀ i < m, io.preadFails (st.loads + i) = false) :
    loop ((hdr ++ body).length + 1) 0 0 st =
      loop ((hdr ++ body).length - m + 1) m 0
        (afterPages body (sizeofEntry * N) (beyondWrap (readHeader hdr) (sizeofEntry * N)) m 0 0 st) := by
  have hle : 0 + m ≤ R / (sizeofEntry * N) := (Nat.zero_add m).trans_le (hm.trans h.start_le)
  have hend : ∀ q < 0 + m, ∀ t < N,
      beyondWrap (readHeader hdr) (sizeofEntry * N) q (sizeofEntry * t) = false := by
    intro q hq t ht
    rw [beyondWrap_eq hwrap, decide_eq_false_iff_not, not_le]
    have hpages := (Nat.le_div_iff_mul_le h.pos).1 (show q + 1 ≤ j / N by omega)
    rw [Nat.add_mul, Nat.one_mul] at hpages
    omega
  have hfuel : m ≤ (hdr ++ body).length := by
    rw [List.length_append, hbody]
    calc m ≤ R / (sizeofEntry * N) := (Nat.zero_add m).ge.trans hle
      _ ≤ R := Nat.div_le_self _ _
      _ ≤ hdr.length + R := Nat.le_add_left _ _
  have hrun := hloop.afterPages rfl m 0 0 st hpage ⟨0, h.pos, rfl⟩ (whole_of_le hbody hle) hok hend
    ((hdr ++ body).length - m + 1)
  rwa [ite_self, Nat.add_right_comm, Nat.sub_add_cancel hfuel, Nat.zero_add] at hrun

theorem HeaderFits.wrapPos_eq (h : HeaderFits hdr N j R) (hj : 0 < j) :
    (readHeader hdr).hdr.wrapPos = RBTRACE_FHEADER_SIZE + sizeofEntry * j := by
  rcases h.wrap with ⟨-, rfl⟩ | ⟨hwrap, -⟩
  · exact absurd hj (lt_irrefl 0)
  · exact hwrap

/-- Both readers come to the load that fails in the same state. -/
theorem HeaderFits.passes_of_fails_second (h : HeaderFits hdr N j R) (hbody : body.length = R)
    {junk : Nat → UInt8} (hjunk : io.malloc = some junk) (hj : 0 < j) {n m : Nat}
    (hn : R / (sizeofEntry * N) = j / N + n) (hm : m ≤ j / N)
    (hok : ∀ i < n + 1 + m, io.preadFails i = false) (hfail : io.preadFails (n + 1 + m) = true) :
    ∃ st : PageState, io.preadFails st.loads = true ∧ st.page.length = sizeofEntry * N ∧
      cleanParseTraceFile io (fun _ _ ↦ false) (hdr ++ body) (readHeader hdr) = st.log ∧
      parseTraceFile io (fun _ _ ↦ false) (hdr ++ body) (readHeader hdr) =
        let q := pageLoop io (fun _ _ ↦ false) (hdr ++ body) (sizeofEntry * N)
          (beyondWrap (readHeader hdr) (sizeofEntry * N)) ((hdr ++ body).length - m + 1) m 0 st
        (q.1.log, q.2.getD .done) := by
  have hwrap := h.wrapPos_eq hj
  obtain ⟨st, hloads, hpage, hfirst, hclean⟩ :=
    h.firstPass_done hbody junk hn fun i hi ↦ hok i (by omega)
  have hok' : ∀ i < m, io.preadFails (st.loads + i) = false := fun i hi ↦ hok _ (by omega)
  have hreal := h.secondPass_after hbody hwrap
    (@pageLoop_goesOn _ io hdr body _ (beyondWrap (readHeader hdr) _) h.size) hm hpage hok'
  have hcl := h.secondPass_after hbody hwrap
    (@cleanPageLoop_goesOn io _ hdr body _ (beyondWrap (readHeader hdr) _) h.size) hm hpage hok'
  have hloads' := @loads_afterPages body (sizeofEntry * N)
    (beyondWrap (readHeader hdr) (sizeofEntry * N)) m 0 0 st
  have hwhole : (0 + m) * (sizeofEntry * N) ≤ body.length :=
    whole_of_le hbody ((Nat.zero_add m).trans_le (hm.trans h.start_le))
  have hpage' := @length_page_afterPages body (sizeofEntry * N)
    (beyondWrap (readHeader hdr) (sizeofEntry * N)) m 0 0 st hpage hwhole
  set st' := afterPages body (sizeofEntry * N) (beyondWrap (readHeader hdr) (sizeofEntry * N)) m 0 0 st
  have hfail' : io.preadFails st'.loads = true := by rwa [hloads', hloads]
  have hpos : ¬ ((readHeader hdr).hdr.wrapPos = 0 ∨
      (readHeader hdr).hdr.wrapPos = RBTRACE_FHEADER_SIZE) := by
    rw [hwrap]
    unfold RBTRACE_FHEADER_SIZE sizeofEntry
    omega
  rw [cleanPageLoop_of_fails hfail'] at hcl
  refine ⟨st', hfail', hpage', ?_, ?_⟩
  · simp only [cleanParseTraceFile, hjunk, h.nrRecords, hclean, if_neg hpos]
    exact congrArg (fun q ↦ q.1.log) hcl
  · rw [parseTraceFile_eq_passes io _ _ _ _ hjunk h.pageSize_eq (.inr h.pageSize_pos.ne'), hfirst]
    dsimp only
    rw [if_neg hpos]
    exact congrArg (fun q ↦ (q.1.log, q.2.getD ParseExit.done)) hreal

/-- **Where a read error is harmless.**  Let the first load that fails be number `k`, one
of those that are made.  The reader lists just the records of the pages loaded before, and
does not leave its page, exactly if this load is the one with which the second pass comes
to the wrap position, and the wrap position is at the beginning of the page. -/
theorem readError_clean_iff (hm : io.malloc.isSome) (h : HeaderFits hdr N j body.length) {k : Nat}
    (hok : ∀ i < k, io.preadFails i = false) (hfail : io.preadFails k = true)
    (hk : k < loadsMade N j body.length) :
    ((parseTraceFile io (fun _ _ ↦ false) (hdr ++ body) (readHeader (hdr ++ body))).1 =
        cleanParseTraceFile io (fun _ _ ↦ false) (hdr ++ body) (readHeader (hdr ++ body)) ∧
      (parseTraceFile io (fun _ _ ↦ false) (hdr ++ body) (readHeader (hdr ++ body))).2 ≠ .fault) ↔
      0 < j ∧ j % N = 0 ∧ k = body.length / (sizeofEntry * N) + 1 := by
  obtain ⟨junk, hjunk⟩ := Option.isSome_iff_exists.1 hm
  obtain ⟨n, hn⟩ := Nat.exists_eq_add_of_le h.start_le
  rw [readHeader_left h.size]
  have hne : (cleanParseTraceFile io (fun _ _ ↦ false) (hdr ++ body) (readHeader hdr)).calls.length <
      (parseTraceFile io (fun _ _ ↦ false) (hdr ++ body) (readHeader hdr)).1.calls.length →
      ¬ ((parseTraceFile io (fun _ _ ↦ false) (hdr ++ body) (readHeader hdr)).1 =
          cleanParseTraceFile io (fun _ _ ↦ false) (hdr ++ body) (readHeader hdr) ∧
        (parseTraceFile io (fun _ _ ↦ false) (hdr ++ body) (readHeader hdr)).2 ≠ .fault) := by
    rintro hlt ⟨heq, -⟩
    rw [heq] at hlt
    exact lt_irrefl _ hlt
  by_cases hfirst : k ≤ n
  · -- the first pass goes on with what is in the page
    refine iff_of_false (hne (h.calls_lt_of_fails_first rfl hjunk hok hfail ?_)) ?_
    · rw [hn]
      exact Nat.add_le_add_left hfirst _
    · rintro ⟨-, -, rfl⟩
      rw [hn] at hfirst
      have := Nat.le_add_left n (j / N)
      omega
  · obtain ⟨m, rfl⟩ := Nat.exists_eq_add_of_le (Nat.succ_le_of_lt (not_le.1 hfirst))
    have hj : 0 < j ∧ m ≤ j / N := by
      unfold loadsMade at hk
      rw [hn] at hk
      rcases Nat.eq_zero_or_pos j with rfl | hj
      · rw [Nat.zero_div, if_pos rfl] at hk
        omega
      · rw [if_neg hj.ne'] at hk
        exact ⟨hj, by omega⟩
    obtain ⟨st, hload, hpage, hclean, hreal⟩ :=
      h.passes_of_fails_second rfl hjunk hj.1 hn hj.2 hok hfail
    have hfound : beyondWrap (readHeader hdr) (sizeofEntry * N) m 0 = decide (j ≤ m * N) :=
      beyondWrap_eq (h.wrapPos_eq hj.1) m 0
    have hpages : m * N ≤ j := (Nat.le_div_iff_mul_le h.pos).1 hj.2
    by_cases hw : j ≤ m * N
    · -- the wrap position is what the second pass finds first
      obtain rfl : j = m * N := le_antisymm hw hpages
      rw [decide_eq_true hw] at hfound
      rw [pageLoop_of_fails_atEnd hload hfound] at hreal
      refine iff_of_true ⟨?_, ?_⟩ ⟨hj.1, Nat.mul_mod_left m N, ?_⟩
      · rw [hreal, hclean]
      · rw [hreal]
        exact nofun
      · rw [hn, Nat.mul_div_cancel m h.pos]
        omega
    · -- there are records before it, and the page is taken for theirs
      rw [decide_eq_false hw] at hfound
      refine iff_of_false (hne ?_) ?_
      · rw [hreal, hclean]
        refine calls_lt_pageLoop_of_fails hload h.fits hpage ?_ hfound _
        rw [Nat.zero_add]
        exact Nat.le_mul_of_pos_right _ h.pos
      · rintro ⟨-, hmod, hlast⟩
        rw [hn] at hlast
        have hdiv := Nat.div_add_mod j N
        have hm : j / N = m := by omega
        rw [hmod, hm, Nat.mul_comm, Nat.add_zero] at hdiv
        exact hw hdiv.ge

end

/-- A disk on which the load number `k` fails. -/
def PrbtIo.failingAt (k : Nat) : PrbtIo := ⟨some fun _ ↦ 0, fun i ↦ i == k⟩

theorem PrbtIo.failingAt_ok {k : Nat} : ∀ i < k, (PrbtIo.failingAt k).preadFails i = false :=
  fun _ hi ↦ beq_false_of_ne hi.ne

/-- Two records, one to a page, wrapped at the second: the fourth load, with which the second
pass comes to that page again, may fail. -/
theorem readError_clean_wrapped :
    (parseTraceFile (.failingAt 3) (fun _ _ ↦ false)
        ((sampleHeader oneRing 568).toBytes ++ List.replicate 112 7)
        (readHeader ((sampleHeader oneRing 568).toBytes ++ List.replicate 112 7))).1 =
      cleanParseTraceFile (.failingAt 3) (fun _ _ ↦ false)
        ((sampleHeader oneRing 568).toBytes ++ List.replicate 112 7)
        (readHeader ((sampleHeader oneRing 568).toBytes ++ List.replicate 112 7)) ∧
    (parseTraceFile (.failingAt 3) (fun _ _ ↦ false)
        ((sampleHeader oneRing 568).toBytes ++ List.replicate 112 7)
        (readHeader ((sampleHeader oneRing 568).toBytes ++ List.replicate 112 7))).2 ≠ .fault := by
  have hfits : HeaderFits (sampleHeader oneRing 568).toBytes 1 1
      (List.replicate 112 (7 : UInt8)).length :=
    oneRing_headerFits (by decide) (.inr ⟨rfl, by rw [List.length_replicate]; decide⟩)
  have hmade : 3 < loadsMade 1 1 (List.replicate 112 (7 : UInt8)).length := by
    rw [List.length_replicate]
    decide
  refine (readError_clean_iff rfl hfits PrbtIo.failingAt_ok rfl hmade).2 ⟨by decide, rfl, ?_⟩
  rw [List.length_replicate]
  rfl

/-- One record, and its page cannot be read: a record is listed all the same. -/
theorem readError_listed :
    (cleanParseTraceFile (.failingAt 0) (fun _ _ ↦ false)
        ((sampleHeader oneRing 0).toBytes ++ List.replicate 56 7)
        (readHeader ((sampleHeader oneRing 0).toBytes ++ List.replicate 56 7))).calls.length <
      (parseTraceFile (.failingAt 0) (fun _ _ ↦ false)
        ((sampleHeader oneRing 0).toBytes ++ List.replicate 56 7)
        (readHeader ((sampleHeader oneRing 0).toBytes ++ List.replicate 56 7))).1.calls.length := by
  rw [readHeader_left (PaddedRbtraceFheader.length_toBytes _)]
  exact (oneRing_headerFits (by decide) (.inl ⟨rfl, rfl⟩)).calls_lt_of_fails_first
    List.length_replicate rfl PrbtIo.failingAt_ok rfl (Nat.zero_le _)

end Rbtrace
