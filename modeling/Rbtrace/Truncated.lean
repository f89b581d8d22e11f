import Rbtrace.Damaged

/-!
# Files that end in the middle of a record

The inner loop of the reader runs while a record begins before the end of the bytes read,
and the page keeps what was in it before.  So a file that ends in the middle of a record
has one record more listed than it holds: the bytes that are there, filled up with bytes
of an earlier page, or with what `malloc` left (`torn_record_called`).  Files of whole
records are the only ones of which every listed record is one of the file
(`fromFile_iff`).
-/

namespace Rbtrace

/-- A header that fits a record area of `R` bytes: pages of `N` records, and the wrap
position, if there is one, at record `j` inside the file. -/
structure HeaderFits (hdr : List UInt8) (N j R : Nat) : Prop where
  size : hdr.length = RBTRACE_FHEADER_SIZE
  pos : 1 ≤ N
  fits : sizeofEntry * N < 2 ^ 64
  nrRecords : (readHeader hdr).hdr.nrRecords = N
  wrap : ((readHeader hdr).hdr.wrapPos = 0 ∧ j = 0) ∨
    ((readHeader hdr).hdr.wrapPos = RBTRACE_FHEADER_SIZE + sizeofEntry * j ∧ sizeofEntry * j < R)

section

variable {io : PrbtIo} {hdr body : List UInt8} {N j R : Nat}

theorem readHeader_left (hsize : hdr.length = RBTRACE_FHEADER_SIZE) (body : List UInt8) :
    readHeader (hdr ++ body) = readHeader hdr := by
  rw [readHeader, readHeader, List.take_left' hsize, ← hsize, List.take_length]

namespace HeaderFits

theorem start_eq (h : HeaderFits hdr N j R) :
    (readHeader hdr).hdr.wrapPos - RBTRACE_FHEADER_SIZE = sizeofEntry * j := by
  rcases h.wrap with ⟨hw, rfl⟩ | ⟨hw, -⟩
  · rw [hw]
    rfl
  · rw [hw, Nat.add_sub_cancel_left]

theorem pageSize_eq (h : HeaderFits hdr N j R) :
    sizeofEntry * (readHeader hdr).hdr.nrRecords % 2 ^ 64 = sizeofEntry * N := by
  rw [h.nrRecords, Nat.mod_eq_of_lt h.fits]

theorem pageSize_pos (h : HeaderFits hdr N j R) : 0 < sizeofEntry * N :=
  Nat.mul_pos (by decide) h.pos

/-- The page and the offset the first pass starts from. -/
theorem firstPass_eq (h : HeaderFits hdr N j R) (parseFn : ParseFn) (file : List UInt8)
    (junk : Nat → UInt8) :
    firstPass io parseFn file (readHeader hdr) (sizeofEntry * N) junk =
      pageLoop io parseFn file (sizeofEntry * N) (fun _ _ ↦ false) (file.length + 1) (j / N)
        (sizeofEntry * (j % N)) ⟨.empty, (List.range (sizeofEntry * N)).map junk, 0⟩ := by
  rw [firstPass, h.start_eq, Nat.mul_div_mul_left _ _ (by decide), Nat.mul_mod_mul_left]

/-- The first pass starts in the pages of the file. -/
theorem start_le (h : HeaderFits hdr N j R) : j / N ≤ R / (sizeofEntry * N) := by
  rcases h.wrap with ⟨-, rfl⟩ | ⟨-, hlt⟩
  · rw [Nat.zero_div]
    exact Nat.zero_le _
  · rw [← Nat.mul_div_mul_left j N (show 0 < sizeofEntry by decide)]
    exact Nat.div_le_div_right hlt.le

/-- Where the first pass starts in its page number `n`. -/
def startSlot (N j n : Nat) : Nat := if n = 0 then j % N else 0

theorem startSlot_lt (h : HeaderFits hdr N j R) (n : Nat) : startSlot N j n < N := by
  unfold startSlot
  split
  · exact Nat.mod_lt j h.pos
  · exact h.pos

/-- It starts at the beginning of the page, or before the end of the file. -/
theorem startSlot_eq_or_lt (h : HeaderFits hdr N j R) (n : Nat) :
    startSlot N j n = 0 ∨
      (j / N + n) * (sizeofEntry * N) + sizeofEntry * startSlot N j n < R := by
  unfold startSlot
  split
  · rename_i hn
    subst hn
    rcases h.wrap with ⟨-, rfl⟩ | ⟨-, hlt⟩
    · exact .inl (Nat.zero_mod N)
    · right
      have hj := Nat.div_add_mod j N
      calc (j / N + 0) * (sizeofEntry * N) + sizeofEntry * (j % N)
          = sizeofEntry * (N * (j / N) + j % N) := by ring
        _ < R := by rwa [hj]
  · exact .inl rfl

/-- The state before the load number `n` of the first pass. -/
def firstPassState (body : List UInt8) (N j : Nat) (junk : Nat → UInt8) (n : Nat) : PageState :=
  afterPages body (sizeofEntry * N) (fun _ _ ↦ false) n (j / N) (sizeofEntry * (j % N))
    ⟨.empty, (List.range (sizeofEntry * N)).map junk, 0⟩

theorem firstPassState_loads (junk : Nat → UInt8) (n : Nat) :
    (firstPassState body N j junk n).loads = n :=
  (loads_afterPages ..).trans (Nat.zero_add n)

/-- A page the first pass gets to is behind whole pages. -/
theorem whole_of_le (hbody : body.length = R) {p : Nat} (hp : p ≤ R / (sizeofEntry * N)) :
    p * (sizeofEntry * N) ≤ body.length := by
  rw [hbody]
  exact (Nat.mul_le_mul_right _ hp).trans (Nat.div_mul_le_self _ _)

theorem firstPassState_page (hbody : body.length = R) (junk : Nat → UInt8) {n : Nat}
    (hn : j / N + n ≤ R / (sizeofEntry * N)) :
    (firstPassState body N j junk n).page.length = sizeofEntry * N :=
  length_page_afterPages (by simp) (whole_of_le hbody hn)

/-- As long as the loads succeed, the first pass gets to every page up to the last. -/
theorem firstPass_after (h : HeaderFits hdr N j R) (hbody : body.length = R) (junk : Nat → UInt8)
    {α : Type*} {loop : Nat → Nat → Nat → PageState → α}
    (hloop : GoesOn io (fun _ _ ↦ false) body (sizeofEntry * N) (fun _ _ ↦ false) loop)
    {n : Nat} (hn : j / N + n ≤ R / (sizeofEntry * N)) (hok : ∀ k < n, io.preadFails k = false) :
    loop ((hdr ++ body).length + 1) (j / N) (sizeofEntry * (j % N))
        ⟨.empty, (List.range (sizeofEntry * N)).map junk, 0⟩ =
      loop ((hdr ++ body).length - n + 1) (j / N + n) (sizeofEntry * startSlot N j n)
        (firstPassState body N j junk n) := by
  have hfuel : n ≤ (hdr ++ body).length := by
    rw [List.length_append, hbody]
    calc n ≤ j / N + n := Nat.le_add_left _ _
      _ ≤ R / (sizeofEntry * N) := hn
      _ ≤ R := Nat.div_le_self _ _
      _ ≤ hdr.length + R := Nat.le_add_left _ _
  have hslot : (if n = 0 then sizeofEntry * (j % N) else 0) = sizeofEntry * startSlot N j n := by
    unfold startSlot
    split <;> rfl
  have hrun := hloop.afterPages rfl n (j / N) (sizeofEntry * (j % N))
    ⟨.empty, (List.range (sizeofEntry * N)).map junk, 0⟩ (by simp) ⟨_, Nat.mod_lt j h.pos, rfl⟩
    (whole_of_le hbody hn) (fun k hk ↦ (congrArg io.preadFails (Nat.zero_add k)).trans (hok k hk))
    (fun _ _ _ _ ↦ rfl) ((hdr ++ body).length - n + 1)
  rw [hslot, Nat.add_right_comm, Nat.sub_add_cancel hfuel] at hrun
  exact hrun

end HeaderFits

/-- What the first pass has handed over stays handed over. -/
theorem calls_prefix_parseTraceFile {junk : Nat → UInt8} (hjunk : io.malloc = some junk)
    {prf : PaddedRbtraceFheader} {ps : Nat} (hps : sizeofEntry * prf.hdr.nrRecords % 2 ^ 64 = ps)
    (hzero : ps ≠ 0) (parseFn : ParseFn) (file : List UInt8) :
    (firstPass io parseFn file prf ps junk).1.log.calls <+:
      (parseTraceFile io parseFn file prf).1.calls := by
  rw [parseTraceFile_eq_passes io parseFn file prf ps hjunk hps (.inr hzero)]
  split
  · exact List.prefix_rfl
  split
  · exact List.prefix_rfl
  · exact (calls_prefix_pageLoop ..).1

/-- The slot of a page that the bytes read end in. -/
theorem slot_torn {b rest : List UInt8}
    (hrest : sizeofEntry ≤ b.length % sizeofEntry + rest.length) :
    ∃ stale, slot (b ++ rest) (b.length / sizeofEntry) =
        b.drop (sizeofEntry * (b.length / sizeofEntry)) ++ stale ∧
      b.length % sizeofEntry + stale.length = sizeofEntry := by
  have hdiv := Nat.div_add_mod b.length sizeofEntry
  have hlt := Nat.mod_lt b.length (show 0 < sizeofEntry by decide)
  have hlen : (b.drop (sizeofEntry * (b.length / sizeofEntry))).length = b.length % sizeofEntry := by
    rw [List.length_drop]
    omega
  refine ⟨rest.take (sizeofEntry - b.length % sizeofEntry), ?_, ?_⟩
  · rw [slot, List.drop_append_of_le_length (by omega), List.take_append, hlen,
      List.take_of_length_le (by omega)]
  · rw [List.length_take]
    omega

/-- The last page of the file has what is left over by the whole ones. -/
theorem length_pageBytes_last (hN : 1 ≤ N) (hbody : body.length = R) :
    (pageBytes body (sizeofEntry * N) (R / (sizeofEntry * N))).length = R % (sizeofEntry * N) := by
  rw [length_pageBytes, hbody, ← Nat.mod_eq_sub_div_mul]
  exact min_eq_right (Nat.mod_lt R (Nat.mul_pos (by decide) hN)).le

theorem last_short (hN : 1 ≤ N) (hbody : body.length = R) :
    body.length < (R / (sizeofEntry * N) + 1) * (sizeofEntry * N) := by
  rw [hbody]
  exact Nat.lt_mul_of_div_lt (Nat.lt_succ_self _) (Nat.mul_pos (by decide) hN)

/-- Behind the last whole record of that page is what is behind the last whole record of
the file. -/
theorem drop_pageBytes_last (hN : 1 ≤ N) (hbody : body.length = R) :
    (pageBytes body (sizeofEntry * N) (R / (sizeofEntry * N))).drop
        (sizeofEntry * (R % (sizeofEntry * N) / sizeofEntry)) =
      body.drop (sizeofEntry * (R / sizeofEntry)) := by
  have hall : pageBytes body (sizeofEntry * N) (R / (sizeofEntry * N)) =
      body.drop (R / (sizeofEntry * N) * (sizeofEntry * N)) := by
    rw [pageBytes, List.take_of_length_le]
    rw [List.length_drop, hbody, ← Nat.mod_eq_sub_div_mul]
    exact (Nat.mod_lt R (Nat.mul_pos (by decide) hN)).le
  have hoff : R / (sizeofEntry * N) * (sizeofEntry * N) +
      sizeofEntry * (R % (sizeofEntry * N) / sizeofEntry) = sizeofEntry * (R / sizeofEntry) := by
    have hdiv := Nat.div_add_mod R (sizeofEntry * N)
    have hassoc : sizeofEntry * N * (R / (sizeofEntry * N)) =
        sizeofEntry * (N * (R / (sizeofEntry * N))) := Nat.mul_assoc ..
    rw [Nat.mul_comm (R / (sizeofEntry * N)), hassoc]
    rw [hassoc] at hdiv
    generalize R % (sizeofEntry * N) = m at *
    generalize N * (R / (sizeofEntry * N)) = l at *
    unfold sizeofEntry at *
    omega
  rw [hall, List.drop_drop, hoff]

/-- **A record too many.**  If the file ends in the middle of a record, what there is of it
is handed over as a record, with other bytes behind it. -/
theorem torn_record_called (hm : io.malloc.isSome) (hio : ∀ k, io.preadFails k = false)
    (h : HeaderFits hdr N j R) (hbody : body.length = R) (htorn : R % sizeofEntry ≠ 0) :
    ∃ c ∈ (parseTraceFile io (fun _ _ ↦ false) (hdr ++ body) (readHeader hdr)).1.calls,
      ∃ stale, c.2 = body.drop (sizeofEntry * (R / sizeofEntry)) ++ stale ∧
        R % sizeofEntry + stale.length = sizeofEntry := by
  obtain ⟨junk, hjunk⟩ := Option.isSome_iff_exists.1 hm
  have hps := h.pageSize_pos
  obtain ⟨n, hn⟩ := Nat.exists_eq_add_of_le h.start_le
  have hfirst := h.firstPass_after hbody junk (pageLoop_goesOn h.size) hn.ge
    fun k _ ↦ hio k
  have hslot := h.startSlot_eq_or_lt n
  have hpage := HeaderFits.firstPassState_page hbody junk hn.ge
  rw [← hn] at hfirst hslot
  set st := HeaderFits.firstPassState body N j junk n
  set i := HeaderFits.startSlot N j n
  have hdiv := Nat.div_add_mod R (sizeofEntry * N)
  have hlt := Nat.mod_lt R hps
  have hmod : R % (sizeofEntry * N) % sizeofEntry = R % sizeofEntry :=
    Nat.mod_mod_of_dvd _ (Nat.dvd_mul_right _ _)
  obtain ⟨log', hloop, hcalls⟩ := @pageLoop_last io hdr body _ N h.size rfl _ i st (hio _) hpage
    (last_short h.pos hbody) (hbody ▸ hslot) ((hdr ++ body).length - n)
  have hrem := length_pageBytes_last h.pos hbody
  have hdrop := drop_pageBytes_last h.pos hbody
  set b := pageBytes body (sizeofEntry * N) (R / (sizeofEntry * N))
  -- the slot the file ends in
  have hmem : slot (b ++ st.page.drop b.length) (b.length / sizeofEntry) ∈
      log'.calls.map Prod.snd := by
    rw [hcalls]
    refine List.mem_append_right _ (List.mem_map_of_mem (List.mem_range'_1.2 ?_))
    have hstart : i = 0 ∨ sizeofEntry * i < R % (sizeofEntry * N) := by
      rw [Nat.mul_comm] at hslot
      omega
    have hend := hmod.trans_ne htorn
    rw [hrem]
    generalize R % (sizeofEntry * N) = m at *
    unfold recordsBegun sizeofEntry at *
    omega
  obtain ⟨c, hc, hslotc⟩ := List.mem_map.1 hmem
  refine ⟨c, ?_, ?_⟩
  · have hprefix := calls_prefix_parseTraceFile hjunk h.pageSize_eq hps.ne' (fun _ _ ↦ false)
      (hdr ++ body)
    rw [h.firstPass_eq, hfirst, hloop] at hprefix
    exact hprefix.subset hc
  · have hrest : sizeofEntry ≤ b.length % sizeofEntry + (st.page.drop b.length).length := by
      rw [List.length_drop, hpage, hrem]
      generalize R % (sizeofEntry * N) = m at *
      unfold sizeofEntry at *
      omega
    obtain ⟨stale, hstale, hlen⟩ := slot_torn hrest
    refine ⟨stale, hslotc.trans (hstale.trans ?_), ?_⟩
    · rw [hrem, hdrop]
    · rwa [hrem, hmod] at hlen

/-! ## Which files list only what they hold -/

/-- The bytes are those of a record of the file, wholly inside it. -/
def FromFile (file re : List UInt8) : Prop :=
  ∃ i, RBTRACE_FHEADER_SIZE + sizeofEntry * i + sizeofEntry ≤ file.length ∧
    re = (file.drop (RBTRACE_FHEADER_SIZE + sizeofEntry * i)).take sizeofEntry

/-- Bytes that come to whole records are records. -/
theorem exists_records {n : Nat} (hbody : body.length = sizeofEntry * n) :
    ∃ recs : List RecordBytes, recs.length = n ∧ recs.flatMap Subtype.val = body := by
  induction n generalizing body with
  | zero => exact ⟨[], rfl, (List.eq_nil_of_length_eq_zero hbody).symm⟩
  | succ n ih =>
      have hle : sizeofEntry ≤ body.length := hbody ▸ Nat.le_mul_of_pos_right _ n.succ_pos
      obtain ⟨recs, hlen, hrecs⟩ := @ih (body.drop sizeofEntry) (by
        rw [List.length_drop, hbody, Nat.mul_succ, Nat.add_sub_cancel])
      refine ⟨⟨body.take sizeofEntry, List.length_take_of_le hle⟩ :: recs, ?_, ?_⟩
      · rw [List.length_cons, hlen]
      · rw [List.flatMap_cons, hrecs, List.take_append_drop]

/-- Every record of a file of whole records is one of the file. -/
theorem fromFile_of_mem {recs : List RecordBytes} (hsize : hdr.length = RBTRACE_FHEADER_SIZE)
    {r : RecordBytes} (hr : r ∈ recs) : FromFile (hdr ++ recs.flatMap Subtype.val) r.1 := by
  obtain ⟨i, hi, rfl⟩ := List.mem_iff_getElem.1 hr
  refine ⟨i, ?_, ?_⟩
  · have hmul := Nat.mul_le_mul_left sizeofEntry (Nat.succ_le_of_lt hi)
    rw [Nat.mul_succ] at hmul
    rw [List.length_append, hsize, Blocks.length_flatMap fun r ↦ r.2]
    omega
  · have hrec := @record_at recs [] i hi
    rw [List.append_nil] at hrec
    rw [← hsize, ← List.drop_drop, List.drop_left, hrec]

/-- Whole records are listed as they are, to any callback. -/
theorem fromFile_of_whole (hm : io.malloc.isSome) (hio : ∀ k, io.preadFails k = false)
    (h : HeaderFits hdr N j R) (hbody : body.length = R) (hwhole : R % sizeofEntry = 0)
    {parseFn : ParseFn} {c : Nat × List UInt8}
    (hc : c ∈ (parseTraceFile io parseFn (hdr ++ body) (readHeader hdr)).1.calls) :
    FromFile (hdr ++ body) c.2 := by
  have hR := Nat.mul_div_cancel' (Nat.dvd_of_mod_eq_zero hwhole)
  obtain ⟨recs, hlen, rfl⟩ := exists_records (hbody.trans hR.symm)
  have hj : j < recs.length ∨ j = 0 := by
    rcases h.wrap with ⟨-, rfl⟩ | ⟨-, hlt⟩
    · exact .inr rfl
    · rw [← hR] at hlt
      exact .inl (hlen ▸ (Nat.mul_lt_mul_left (by decide)).1 hlt)
  have hpage : j < recs.length ∨ j % N = 0 := hj.imp_right fun h ↦ by rw [h, Nat.zero_mod]
  rw [parseTraceFile_eq_feed hio hm h.size h.pos h.fits h.nrRecords (h.wrap.imp_right And.left)
    (by omega) hpage, calls_feed] at hc
  have hmem := List.mem_of_mem_take hc
  obtain ⟨⟨r, k⟩, hr, rfl⟩ := List.mem_map.1 hmem
  exact fromFile_of_mem h.size (List.mem_rotate.1 (List.fst_mem_of_mem_zipIdx hr))

/-- Whole records of zeros, and ones behind them. -/
def tornBody (R : Nat) : List UInt8 :=
  List.replicate (sizeofEntry * (R / sizeofEntry)) 0 ++ List.replicate (R % sizeofEntry) 1

theorem length_tornBody (R : Nat) : (tornBody R).length = R := by
  rw [tornBody, List.length_append, List.length_replicate, List.length_replicate, Nat.div_add_mod]

/-- Of this area, what is listed last is no record of the file: it begins with a one. -/
theorem exists_not_fromFile (hm : io.malloc.isSome) (hio : ∀ k, io.preadFails k = false)
    (h : HeaderFits hdr N j R) (htorn : R % sizeofEntry ≠ 0) :
    ∃ c ∈ (parseTraceFile io (fun _ _ ↦ false) (hdr ++ tornBody R)
      (readHeader (hdr ++ tornBody R))).1.calls, ¬ FromFile (hdr ++ tornBody R) c.2 := by
  obtain ⟨c, hc, stale, hstale, -⟩ := torn_record_called hm hio h (length_tornBody R) htorn
  rw [readHeader_left h.size]
  refine ⟨c, hc, ?_⟩
  rintro ⟨i, hi, hre⟩
  rw [List.length_append, h.size, length_tornBody] at hi
  have hlt : sizeofEntry * i < sizeofEntry * (R / sizeofEntry) := by
    unfold sizeofEntry at *
    omega
  have hone : c.2.head? = some 1 := by
    obtain ⟨k, hk⟩ := Nat.exists_eq_succ_of_ne_zero htorn
    rw [hstale, tornBody, List.drop_left' List.length_replicate, hk]
    rfl
  have hzero : c.2.head? = some 0 := by
    rw [hre, ← h.size, ← List.drop_drop, List.drop_left, List.head?_take, if_neg (by decide),
      List.head?_drop, tornBody, List.getElem?_append_left (by rwa [List.length_replicate]),
      List.getElem?_replicate, if_pos hlt]
  rw [hone] at hzero
  exact absurd hzero (by decide)

/-- What the file has of a record at its end, with leftover bytes of the page behind it. -/
def Torn (file re : List UInt8) : Prop :=
  ∃ rest leftover, rest ≠ [] ∧ leftover ≠ [] ∧ re = rest ++ leftover ∧
    rest = file.drop (RBTRACE_FHEADER_SIZE +
      sizeofEntry * ((file.length - RBTRACE_FHEADER_SIZE) / sizeofEntry))

theorem drop_whole_records (hsize : hdr.length = RBTRACE_FHEADER_SIZE) (body : List UInt8) :
    (hdr ++ body).drop (RBTRACE_FHEADER_SIZE +
      sizeofEntry * (((hdr ++ body).length - RBTRACE_FHEADER_SIZE) / sizeofEntry)) =
      body.drop (sizeofEntry * (body.length / sizeofEntry)) := by
  rw [List.length_append, ← hsize, Nat.add_sub_cancel_left, ← List.drop_drop, List.drop_left]

/-- **Whose records are listed.**  Every record that any callback is handed is one of the
file, and none is made up with leftover bytes, exactly if the file has whole records only. -/
theorem fromFile_iff (hm : io.malloc.isSome) (hio : ∀ k, io.preadFails k = false)
    (h : HeaderFits hdr N j body.length) :
    (∀ parseFn, ∀ c ∈ (parseTraceFile io parseFn (hdr ++ body) (readHeader (hdr ++ body))).1.calls,
      FromFile (hdr ++ body) c.2 ∧ ¬ Torn (hdr ++ body) c.2) ↔
      body.length % sizeofEntry = 0 := by
  rw [readHeader_left h.size]
  constructor
  · intro hall
    by_contra htorn
    obtain ⟨c, hc, stale, hstale, hlen⟩ := torn_record_called hm hio h rfl htorn
    refine (hall _ c hc).2 ⟨_, stale, ?_, ?_, hstale, (drop_whole_records h.size body).symm⟩
    · rw [ne_eq, List.drop_eq_nil_iff, not_le]
      have := Nat.div_add_mod body.length sizeofEntry
      omega
    · rintro rfl
      have := Nat.mod_lt body.length (show 0 < sizeofEntry by decide)
      rw [List.length_nil, Nat.add_zero] at hlen
      omega
  · intro hwhole parseFn c hc
    refine ⟨fromFile_of_whole hm hio h rfl hwhole hc, ?_⟩
    rintro ⟨rest, leftover, hne, -, -, rfl⟩
    rw [drop_whole_records h.size, Nat.mul_div_cancel' (Nat.dvd_of_mod_eq_zero hwhole),
      List.drop_length] at hne
    exact hne rfl

end

/-- The header of a ring of one record to a page. -/
theorem oneRing_headerFits {w j R : Nat} (hlt : w < 2 ^ 64)
    (hw : (w = 0 ∧ j = 0) ∨ (w = RBTRACE_FHEADER_SIZE + sizeofEntry * j ∧ sizeofEntry * j < R)) :
    HeaderFits (sampleHeader oneRing w).toBytes 1 j R := by
  have hread := readHeader_withWrapPos ⟨0, 0⟩ w
    (show StringsFit oneRing .utc from ioRing_stringsFit _) (by decide) []
  rw [List.append_nil] at hread
  constructor
  · exact PaddedRbtraceFheader.length_toBytes _
  · exact le_rfl
  · decide
  · rw [sampleHeader, hread]
    rfl
  · rw [sampleHeader, hread]
    dsimp only
    rwa [Nat.mod_eq_of_lt hlt]

/-- Two whole records. -/
theorem fromFile_twoRecords :
    (List.replicate 112 (7 : UInt8)).length = 2 * sizeofEntry ∧
      ∀ parseFn, ∀ c ∈ (parseTraceFile .smooth parseFn
          ((sampleHeader oneRing 0).toBytes ++ List.replicate 112 7)
          (readHeader ((sampleHeader oneRing 0).toBytes ++ List.replicate 112 7))).1.calls,
        FromFile ((sampleHeader oneRing 0).toBytes ++ List.replicate 112 7) c.2 ∧
          ¬ Torn ((sampleHeader oneRing 0).toBytes ++ List.replicate 112 7) c.2 := by
  have hlen : (List.replicate 112 (7 : UInt8)).length = 2 * sizeofEntry := List.length_replicate
  refine ⟨hlen, ?_⟩
  exact (fromFile_iff PrbtIo.smooth_ok.malloc PrbtIo.smooth_ok.pread
    (oneRing_headerFits (by decide) (.inl ⟨rfl, rfl⟩))).2 (by rw [hlen, Nat.mul_mod_left])

/-- A record of zeros and one byte more: the byte is listed as a record, and the file has
no such record. -/
theorem fromFile_torn :
    ∃ c ∈ (parseTraceFile .smooth (fun _ _ ↦ false)
        ((sampleHeader oneRing 0).toBytes ++ tornBody 57)
        (readHeader ((sampleHeader oneRing 0).toBytes ++ tornBody 57))).1.calls,
      ¬ FromFile ((sampleHeader oneRing 0).toBytes ++ tornBody 57) c.2 :=
  exists_not_fromFile PrbtIo.smooth_ok.malloc PrbtIo.smooth_ok.pread
    (oneRing_headerFits (by decide) (.inl ⟨rfl, rfl⟩)) (by decide)

end Rbtrace
