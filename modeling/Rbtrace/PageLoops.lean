import Rbtrace.ReadBack

/-!
# The page loops on any bytes

What the two nested loops of `parse_trace_file` do when nothing is known about the file:
it may end in the middle of a record, and the first pass may start in the middle of one.

A record leaves the page only if the loop comes to an offset from which the page has
fewer than 56 bytes left, and it gets there only if as many bytes were read
(`recordLoop_ne_fault`, `recordLoop_eq_fault`).  Along a whole page the loops go on to the
next one (`pageLoop_goesOn`); a call once made stays in the log (`calls_prefix_pageLoop`).
-/

namespace Rbtrace

variable {parseFn : ParseFn} {page : List UInt8} {nbytes off : Nat} {atEnd : Nat → Bool}

/-! ## The inner loop -/

/-- As long as there is room for a record at every offset below the bytes read, the loop
stays inside the page. -/
theorem recordLoop_ne_fault
    (hin : ∀ i, off + sizeofEntry * i < nbytes → off + sizeofEntry * i + sizeofEntry ≤ page.length)
    (log : ParseLog) :
    (recordLoop parseFn page nbytes atEnd (page.length / sizeofEntry + 1) off log).2 ≠
      some .fault := by
  have hloop : ∀ (fuel i : Nat) (log : ParseLog), i ≤ page.length / sizeofEntry →
      page.length / sizeofEntry < fuel + i →
      (recordLoop parseFn page nbytes atEnd fuel (off + sizeofEntry * i) log).2 ≠ some .fault := by
    intro fuel
    induction fuel with
    | zero => intro i log hi hf; omega
    | succ fuel ih =>
        intro i log hi hf
        rw [recordLoop]
        split
        · intro h
          cases h
        split
        · intro h
          cases h
        have hroom := hin i (by omega)
        rw [if_neg (by omega)]
        dsimp only
        split
        · intro h
          cases h
        · refine ih (i + 1) _ ?_ (by omega)
          rw [Nat.le_div_iff_mul_le (by decide)]
          unfold sizeofEntry at *
          omega
  have h := hloop (page.length / sizeofEntry + 1) 0 log (Nat.zero_le _) (Nat.lt_succ_self _)
  rwa [Nat.mul_zero, Nat.add_zero] at h

/-- Conversely, a callback that never stops is led out of the page. -/
theorem recordLoop_eq_fault {i : Nat} (hlt : off + sizeofEntry * i < nbytes)
    (hout : page.length < off + sizeofEntry * i + sizeofEntry) (fuel : Nat) (log : ParseLog) :
    (recordLoop (fun _ _ ↦ false) page nbytes (fun _ ↦ false) fuel off log).2 = some .fault := by
  induction fuel generalizing off i log with
  | zero => rfl
  | succ fuel ih =>
      have hoff : off ≤ off + sizeofEntry * i := Nat.le_add_right _ _
      rw [recordLoop, if_neg (by omega), if_neg Bool.false_ne_true]
      split
      · rfl
      · rename_i hin
        cases i with
        | zero => exact absurd hout hin
        | succ i =>
            have hnext : off + sizeofEntry + sizeofEntry * i = off + sizeofEntry * (i + 1) := by ring
            dsimp only
            rw [if_neg Bool.false_ne_true]
            exact ih (i := i) (by rwa [hnext]) (by rwa [hnext]) _

/-- Calls are only ever added. -/
theorem calls_prefix_recordLoop (fuel off : Nat) (log : ParseLog) :
    log.calls <+: (recordLoop parseFn page nbytes atEnd fuel off log).1.calls := by
  induction fuel generalizing off log with
  | zero => exact List.prefix_rfl
  | succ fuel ih =>
      have hcall : ∀ re, log.calls <+: (log.call re).calls := fun re ↦ List.prefix_append _ _
      rw [recordLoop]
      split_ifs
      · exact List.prefix_rfl
      · exact List.prefix_rfl
      · exact List.prefix_rfl
      · dsimp only
        split
        · exact hcall _
        · exact (hcall _).trans (ih _ _)

/-- If the first record is inside the page and before the wrap position, it is handed
over. -/
theorem calls_lt_recordLoop (hlt : off < nbytes) (hend : atEnd off = false)
    (hin : off + sizeofEntry ≤ page.length) (fuel : Nat) (log : ParseLog) :
    log.calls.length <
      (recordLoop parseFn page nbytes atEnd (fuel + 1) off log).1.calls.length := by
  have hcall : ∀ re, log.calls.length < (log.call re).calls.length := fun re ↦ by
    rw [ParseLog.call, List.length_append]
    exact Nat.lt_succ_self _
  rw [recordLoop, if_neg (by omega), if_neg (by simp [hend]), if_neg (by omega)]
  dsimp only
  split
  · exact hcall _
  · exact (hcall _).trans_le (calls_prefix_recordLoop _ _ _).length_le

/-! ## The outer loop -/

section

variable {io : PrbtIo} {hdr body : List UInt8} {ps : Nat} {atEnd : Nat → Nat → Bool}

/-- The bytes of the record area that belong to page `p`. -/
def pageBytes (body : List UInt8) (ps p : Nat) : List UInt8 := (body.drop (p * ps)).take ps

theorem length_pageBytes (body : List UInt8) (ps p : Nat) :
    (pageBytes body ps p).length = min ps (body.length - p * ps) := by
  rw [pageBytes, List.length_take, List.length_drop]

theorem length_pageBytes_of_whole {p : Nat} (hwhole : (p + 1) * ps ≤ body.length) :
    (pageBytes body ps p).length = ps := by
  rw [Nat.add_mul, Nat.one_mul] at hwhole
  rw [length_pageBytes]
  omega

/-- A load overwrites the page from its start; the page keeps its length. -/
theorem length_pageBytes_append_drop {page : List UInt8} (p : Nat) (hpage : page.length = ps) :
    (pageBytes body ps p ++ page.drop (pageBytes body ps p).length).length = ps := by
  have hle : (pageBytes body ps p).length ≤ ps := by
    rw [length_pageBytes]
    exact min_le_left _ _
  rw [List.length_append, List.length_drop, hpage, Nat.add_sub_cancel' hle]

/-- A load that succeeds. -/
theorem loadTracePage_pageBytes (hhdr : hdr.length = RBTRACE_FHEADER_SIZE) (p : Nat)
    (page : List UInt8) :
    loadTracePage false (hdr ++ body) p ps page =
      ((pageBytes body ps p).length,
        pageBytes body ps p ++ page.drop (pageBytes body ps p).length) := by
  have hdrop : (hdr ++ body).drop (RBTRACE_FHEADER_SIZE + p * ps) = body.drop (p * ps) := by
    rw [← hhdr, ← List.drop_drop, List.drop_left]
  rw [loadTracePage, if_neg Bool.false_ne_true, hdrop]
  rfl

/-- A load never changes the length of the page. -/
theorem length_loadTracePage (fails : Bool) (file : List UInt8) (p : Nat) {page : List UInt8}
    (hpage : page.length = ps) : (loadTracePage fails file p ps page).2.length = ps := by
  cases fails with
  | true => exact hpage
  | false =>
      have hle : ((file.drop (RBTRACE_FHEADER_SIZE + p * ps)).take ps).length ≤ ps := by
        rw [List.length_take]
        exact min_le_left _ _
      rw [loadTracePage, if_neg Bool.false_ne_true, List.length_append, List.length_drop, hpage]
      omega

/-- Calls are only ever added, and the page keeps its length. -/
theorem calls_prefix_pageLoop (file : List UInt8) (fuel p off : Nat) (st : PageState) :
    st.log.calls <+: (pageLoop io parseFn file ps atEnd fuel p off st).1.log.calls ∧
      (st.page.length = ps → (pageLoop io parseFn file ps atEnd fuel p off st).1.page.length = ps) := by
  induction fuel generalizing p off st with
  | zero => exact ⟨List.prefix_rfl, id⟩
  | succ fuel ih =>
      have hlen := @length_loadTracePage ps (io.preadFails st.loads) file p st.page
      rw [pageLoop]
      dsimp only
      set r := loadTracePage (io.preadFails st.loads) file p ps st.page
      split
      · exact ⟨List.prefix_rfl, hlen⟩
      split
      · exact ⟨List.prefix_rfl, hlen⟩
      have hrec := @calls_prefix_recordLoop parseFn r.2 r.1 (atEnd p) (r.2.length / sizeofEntry + 1)
        off st.log
      split
      · exact ⟨hrec, hlen⟩
      split
      · exact ⟨hrec, hlen⟩
      · obtain ⟨hcalls, hpage⟩ := ih (p + 1) 0 ⟨_, r.2, st.loads + 1⟩
        exact ⟨hrec.trans hcalls, hpage ∘ hlen⟩

/-- **Past a whole page.**  If page `p` is wholly in the file and the inner loop ends
normally on it, such a loop goes on to the next page, with nothing of what was in the page
before. -/
def GoesOn {α : Type*} (io : PrbtIo) (parseFn : ParseFn) (body : List UInt8) (ps : Nat)
    (atEnd : Nat → Nat → Bool) (loop : Nat → Nat → Nat → PageState → α) : Prop :=
  ∀ (p off : Nat) (st : PageState) (log' : ParseLog), io.preadFails st.loads = false →
    (p + 1) * ps ≤ body.length → off < ps → st.page.length = ps →
    recordLoop parseFn (pageBytes body ps p) ps (atEnd p) (ps / sizeofEntry + 1) off st.log =
      (log', none) →
    ∀ fuel, loop (fuel + 1) p off st =
      loop fuel (p + 1) 0 ⟨log', pageBytes body ps p, st.loads + 1⟩

theorem pageLoop_goesOn (hhdr : hdr.length = RBTRACE_FHEADER_SIZE) :
    GoesOn io parseFn body ps atEnd (pageLoop io parseFn (hdr ++ body) ps atEnd) := by
  intro p off st log' hok hwhole hoff hpage hrec fuel
  have hlen := length_pageBytes_of_whole hwhole
  rw [pageLoop, hok, loadTracePage_pageBytes hhdr]
  dsimp only
  rw [hlen, List.drop_eq_nil_of_le hpage.le, List.append_nil, hlen, if_neg (by omega),
    if_neg (by omega), hrec]
  dsimp only
  rw [if_neg (lt_irrefl ps)]

/-- No record leaves the page, if none does on the first one. -/
theorem pageLoop_ne_fault {N : Nat} (hio : ∀ k, io.preadFails k = false)
    (hhdr : hdr.length = RBTRACE_FHEADER_SIZE) (hps : ps = sizeofEntry * N) (hN : 0 < N) :
    ∀ (fuel p off : Nat) (st : PageState), body.length - p * ps < fuel → st.page.length = ps →
      (∀ i, off + sizeofEntry * i < min ps (body.length - p * ps) →
        off + sizeofEntry * i + sizeofEntry ≤ ps) →
      (pageLoop io parseFn (hdr ++ body) ps atEnd fuel p off st).2 ≠ some .fault := by
  intro fuel
  induction fuel with
  | zero => intro p off st hf; omega
  | succ fuel ih =>
      intro p off st hf hpage hin
      have hlen := length_pageBytes body ps p
      have hpage' := @length_pageBytes_append_drop body ps st.page p hpage
      rw [pageLoop, hio, loadTracePage_pageBytes hhdr]
      dsimp only
      rw [← hlen] at hin
      have hrec := @recordLoop_ne_fault parseFn
        (pageBytes body ps p ++ st.page.drop (pageBytes body ps p).length)
        (pageBytes body ps p).length off (atEnd p) (by rwa [hpage']) st.log
      split
      · intro h
        cases h
      split
      · intro h
        cases h
      split
      · rename_i e he
        rwa [← he]
      split
      · intro h
        cases h
      · have hpos : 0 < ps := by
          rw [hps]
          exact Nat.mul_pos (by decide) hN
        have hsub : body.length - (p + 1) * ps < fuel := by
          rw [Nat.add_mul, Nat.one_mul]
          omega
        refine ih (p + 1) 0 _ hsub hpage' fun i hi ↦ ?_
        subst hps
        unfold sizeofEntry at *
        omega

/-- A callback that never stops is led out of the first page. -/
theorem pageLoop_eq_fault (hio : ∀ k, io.preadFails k = false)
    (hhdr : hdr.length = RBTRACE_FHEADER_SIZE) {p off i : Nat} {st : PageState}
    (hpage : st.page.length = ps) (hlt : off + sizeofEntry * i < min ps (body.length - p * ps))
    (hout : ps < off + sizeofEntry * i + sizeofEntry) (fuel : Nat) :
    (pageLoop io (fun _ _ ↦ false) (hdr ++ body) ps (fun _ _ ↦ false) fuel p off st).2 =
      some .fault := by
  cases fuel with
  | zero => rfl
  | succ fuel =>
      have hlen := length_pageBytes body ps p
      have hpage' := @length_pageBytes_append_drop body ps st.page p hpage
      have hfault := recordLoop_eq_fault (hlen ▸ hlt) (hpage'.trans_lt hout)
        (ps / sizeofEntry + 1) st.log
      rw [pageLoop, hio, loadTracePage_pageBytes hhdr]
      dsimp only
      rw [if_neg (by omega), if_neg (by omega), hpage', hfault]

end

/-! ## Along the whole pages -/

section

variable {io : PrbtIo} {hdr body : List UInt8} {ps N : Nat} {atEnd : Nat → Nat → Bool}

/-- The state after `n` whole pages from page `p` and offset `off` on, for a callback that
never stops. -/
def afterPages (body : List UInt8) (ps : Nat) (atEnd : Nat → Nat → Bool) :
    Nat → Nat → Nat → PageState → PageState
  | 0, _, _, st => st
  | n + 1, p, off, st =>
      afterPages body ps atEnd n (p + 1) 0
        ⟨(recordLoop (fun _ _ ↦ false) (pageBytes body ps p) ps (atEnd p) (ps / sizeofEntry + 1) off
          st.log).1, pageBytes body ps p, st.loads + 1⟩

theorem loads_afterPages (n p off : Nat) (st : PageState) :
    (afterPages body ps atEnd n p off st).loads = st.loads + n := by
  induction n generalizing p off st with
  | zero => rfl
  | succ n ih =>
      rw [afterPages, ih]
      exact Nat.add_right_comm _ _ _

/-- On a whole page that the wrap position is not in, the inner loop ends normally. -/
theorem recordLoop_whole (hps : ps = sizeofEntry * N) {p i : Nat} (hwhole : (p + 1) * ps ≤ body.length)
    (hi : i < N) (hend : ∀ t < N, atEnd p (sizeofEntry * t) = false) (log : ParseLog) :
    (recordLoop (fun _ _ ↦ false) (pageBytes body ps p) ps (atEnd p) (ps / sizeofEntry + 1)
      (sizeofEntry * i) log).2 = none := by
  have hlen := length_pageBytes_of_whole hwhole
  have hend' : ∀ t, sizeofEntry * t < ps → atEnd p (sizeofEntry * t) = false := fun t ht ↦
    hend t ((Nat.mul_lt_mul_left (by decide)).1 (hps ▸ ht))
  obtain ⟨log', hlog', -⟩ := recordLoop_slots (hlen.trans hps) hlen.ge hend' hi.le log
  rw [hlen] at hlog'
  rw [hlog']

/-- **The run along whole pages.**  A loop that goes on past a whole page goes through the
states of `afterPages`, as long as the loads succeed, the pages are wholly in the file and
the wrap position is not in them. -/
theorem GoesOn.afterPages {α : Type*} {loop : Nat → Nat → Nat → PageState → α}
    (hloop : GoesOn io (fun _ _ ↦ false) body ps atEnd loop) (hps : ps = sizeofEntry * N)
    (n p off : Nat) (st : PageState) (hpage : st.page.length = ps)
    (hoff : ∃ i < N, off = sizeofEntry * i) (hwhole : (p + n) * ps ≤ body.length)
    (hok : ∀ k < n, io.preadFails (st.loads + k) = false)
    (hend : ∀ q < p + n, ∀ t < N, atEnd q (sizeofEntry * t) = false) (fuel : Nat) :
    loop (fuel + n) p off st =
      loop fuel (p + n) (if n = 0 then off else 0) (Rbtrace.afterPages body ps atEnd n p off st) := by
  induction n generalizing p off st with
  | zero => rfl
  | succ n ih =>
      obtain ⟨i, hi, rfl⟩ := hoff
      have hnext : p + 1 + n = p + (n + 1) := by omega
      have hfirst : (p + 1) * ps ≤ body.length :=
        (Nat.mul_le_mul_right ps (by omega)).trans hwhole
      have hlt : sizeofEntry * i < ps := by
        rw [hps]
        exact (Nat.mul_lt_mul_left (by decide)).2 hi
      have hrec := recordLoop_whole hps hfirst hi (hend p (by omega)) st.log
      rw [← Nat.add_assoc, hloop p _ st _ (hok 0 (by omega)) hfirst hlt hpage (Prod.ext rfl hrec),
        ih (p + 1) 0 _ (length_pageBytes_of_whole hfirst) ⟨0, Nat.zero_lt_of_lt hi, rfl⟩
          (hnext ▸ hwhole), hnext, ite_self]
      · rfl
      · intro k hk
        have := hok (k + 1) (by omega)
        rwa [← Nat.add_assoc, Nat.add_right_comm] at this
      · rwa [hnext]

theorem length_page_afterPages {n p off : Nat} {st : PageState} (hpage : st.page.length = ps)
    (hwhole : (p + n) * ps ≤ body.length) :
    (afterPages body ps atEnd n p off st).page.length = ps := by
  induction n generalizing p off st with
  | zero => exact hpage
  | succ n ih =>
      have hnext : p + 1 + n = p + (n + 1) := by omega
      have hfirst : (p + 1) * ps ≤ body.length :=
        (Nat.mul_le_mul_right ps (by omega)).trans hwhole
      exact ih (length_pageBytes_of_whole hfirst) (hnext ▸ hwhole)

/-- **The last page** of the file, which is not a whole one.  Every slot that begins in it
is handed over, and what was in the page before is behind it. -/
theorem pageLoop_last (hhdr : hdr.length = RBTRACE_FHEADER_SIZE) (hps : ps = sizeofEntry * N)
    {p i : Nat} {st : PageState} (hok : io.preadFails st.loads = false) (hpage : st.page.length = ps)
    (hlast : body.length < (p + 1) * ps)
    (hi : i = 0 ∨ p * ps + sizeofEntry * i < body.length) (fuel : Nat) :
    ∃ log', pageLoop io (fun _ _ ↦ false) (hdr ++ body) ps (fun _ _ ↦ false) (fuel + 1) p
        (sizeofEntry * i) st =
          (⟨log', pageBytes body ps p ++ st.page.drop (pageBytes body ps p).length, st.loads + 1⟩,
            none) ∧
      log'.calls.map Prod.snd = st.log.calls.map Prod.snd ++
        (List.range' i (recordsBegun (pageBytes body ps p).length - i)).map
          (slot (pageBytes body ps p ++ st.page.drop (pageBytes body ps p).length)) := by
  rw [Nat.add_mul, Nat.one_mul] at hlast
  have hlen := length_pageBytes body ps p
  have hpage' := @length_pageBytes_append_drop body ps st.page p hpage
  rw [pageLoop, hok, loadTracePage_pageBytes hhdr]
  dsimp only
  by_cases hempty : (pageBytes body ps p).length = 0
  · obtain rfl : i = 0 := by omega
    refine ⟨st.log, if_pos hempty, ?_⟩
    rw [hempty]
    exact (List.append_nil _).symm
  · have hle : i ≤ N := by
      rw [hlen, hps] at hempty
      rw [hps] at hlast hi
      unfold sizeofEntry at *
      omega
    obtain ⟨log', hlog', hcalls⟩ := @recordLoop_slots _ (pageBytes body ps p).length (fun _ ↦ false)
      N (hpage'.trans hps) (by omega) (fun _ _ ↦ rfl) i hle st.log
    refine ⟨log', ?_, hcalls⟩
    have hoff : ¬ (pageBytes body ps p).length ≤ sizeofEntry * i := by
      rcases hi with rfl | hi
      · rw [Nat.mul_zero]
        omega
      · omega
    rw [if_neg hempty, if_neg hoff, hlog']
    dsimp only
    rw [if_pos (by omega)]

end

/-! ## The two passes -/

section

variable (io : PrbtIo) (parseFn : ParseFn) (file : List UInt8) (prf : PaddedRbtraceFheader)
  (ps : Nat)

/-- The first pass, from the wrap position to the end of the file. -/
def firstPass (junk : Nat → UInt8) : PageState × Option ParseExit :=
  pageLoop io parseFn file ps (fun _ _ ↦ false) (file.length + 1)
    ((prf.hdr.wrapPos - RBTRACE_FHEADER_SIZE) / ps) ((prf.hdr.wrapPos - RBTRACE_FHEADER_SIZE) % ps)
    ⟨.empty, (List.range ps).map junk, 0⟩

/-- The second pass, from the head of the file to the wrap position. -/
def secondPass (st : PageState) : PageState × Option ParseExit :=
  pageLoop io parseFn file ps
    (fun p off ↦ prf.hdr.wrapPos ≤ RBTRACE_FHEADER_SIZE + p * ps + off) (file.length + 1) 0 0 st

/-- `parse_trace_file`, once the page is there. -/
theorem parseTraceFile_eq_passes {junk : Nat → UInt8} (hjunk : io.malloc = some junk)
    (hps : sizeofEntry * prf.hdr.nrRecords % 2 ^ 64 = ps)
    (hzero : prf.hdr.wrapPos ≤ RBTRACE_FHEADER_SIZE ∨ ps ≠ 0) :
    parseTraceFile io parseFn file prf =
      match (firstPass io parseFn file prf ps junk).2 with
      | some e => ((firstPass io parseFn file prf ps junk).1.log, e)
      | none =>
          if prf.hdr.wrapPos = 0 ∨ prf.hdr.wrapPos = RBTRACE_FHEADER_SIZE then
            ((firstPass io parseFn file prf ps junk).1.log, .done)
          else
            ((secondPass io parseFn file prf ps (firstPass io parseFn file prf ps junk).1).1.log,
              (secondPass io parseFn file prf ps
                (firstPass io parseFn file prf ps junk).1).2.getD .done) := by
  have hdiv : ¬ (RBTRACE_FHEADER_SIZE < prf.hdr.wrapPos ∧ ps = 0) := by
    rintro ⟨hw, h0⟩
    rcases hzero with h | h
    · exact absurd hw (Nat.not_lt.2 h)
    · exact h h0
  subst hps
  simp only [parseTraceFile, hjunk, if_neg hdiv]
  rfl

end

end Rbtrace
