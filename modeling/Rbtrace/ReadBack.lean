import Rbtrace.Lib.Window
import Rbtrace.Prbt

/-!
# What the reader makes of a file of whole records

For a file that is a 512-byte header followed by whole records, the two page loops of
`parse_trace_file` come down to handing over one list of records (`feed`): those from
the wrap position to the end, then those before it — a rotation of the file.  The page
size does not matter.

The exception is a wrap position at the very end of the file that is not a page
boundary.  Then the first page has no bytes beyond the start offset, the reader takes
the position for invalid, and lists nothing (`parseTraceFile_invalid`).
-/

namespace Rbtrace

/-- The bytes of one record. -/
abbrev RecordBytes := { l : List UInt8 // l.length = sizeofEntry }

/-- Hand records to the callback one by one, until it asks to stop. -/
def feed (parseFn : ParseFn) : ParseLog → List RecordBytes → ParseLog × Bool
  | log, [] => (log, false)
  | log, r :: rs =>
      if parseFn log.cnt r.1 then (log.call r.1, true) else feed parseFn (log.call r.1) rs

/-- Feeding two lists: the second one only if nobody asked to stop. -/
theorem feed_append (parseFn : ParseFn) (log : ParseLog) (rs ts : List RecordBytes) :
    feed parseFn log (rs ++ ts) =
      if (feed parseFn log rs).2 then feed parseFn log rs
      else feed parseFn (feed parseFn log rs).1 ts := by
  induction rs generalizing log with
  | nil => simp [feed]
  | cons r rs ih =>
      rw [List.cons_append, feed, feed]
      split
      · simp
      · exact ih _

/-- A callback that never stops is handed everything. -/
theorem feed_of_never (log : ParseLog) (rs : List RecordBytes) :
    (feed (fun _ _ ↦ false) log rs).1.calls.map Prod.snd =
      log.calls.map Prod.snd ++ rs.map Subtype.val ∧ (feed (fun _ _ ↦ false) log rs).2 = false := by
  induction rs generalizing log with
  | nil => simp [feed]
  | cons r rs ih =>
      obtain ⟨h₁, h₂⟩ := ih (log.call r.1)
      rw [feed, if_neg Bool.false_ne_true]
      refine ⟨?_, h₂⟩
      rw [h₁]
      simp [ParseLog.call]

/-- How a loop that was to hand over `n` records, but not those from `lim` on, ends. -/
def fedExit (stopped : Bool) (lim n : Nat) : Option ParseExit :=
  if stopped then some .stopped else if lim < n then some .done else none

/-! ## One page -/

/-- The bytes of the record at an index of a page of whole records. -/
theorem record_at {rs : List RecordBytes} {tail : List UInt8} {i : Nat}
    (h : i < rs.length) :
    ((rs.flatMap Subtype.val ++ tail).drop (sizeofEntry * i)).take sizeofEntry = rs[i].1 := by
  have hlen : (rs.flatMap Subtype.val).length = sizeofEntry * rs.length :=
    Blocks.length_flatMap (fun r ↦ r.2) rs
  have hle : sizeofEntry * i ≤ (rs.flatMap Subtype.val).length := by
    rw [hlen]
    exact Nat.mul_le_mul_left _ h.le
  rw [List.drop_append_of_le_length hle, Blocks.drop_flatMap fun r ↦ r.2,
    List.drop_eq_getElem_cons h, List.flatMap_cons, List.append_assoc,
    List.take_left' rs[i].2]

variable {parseFn : ParseFn}

/-- **The inner loop.**  On a page that starts with the records `rs`, it hands over the
records from index `i` up to the first one the wrap test holds of. -/
theorem recordLoop_eq_feed {rs : List RecordBytes} {tail : List UInt8} {atEnd : Nat → Bool}
    {lim : Nat} (hend : ∀ i < rs.length, atEnd (sizeofEntry * i) = decide (lim ≤ i)) :
    ∀ (fuel i : Nat) (log : ParseLog), i ≤ rs.length → i ≤ lim → rs.length - i < fuel →
      recordLoop parseFn (rs.flatMap Subtype.val ++ tail) (sizeofEntry * rs.length) atEnd fuel
        (sizeofEntry * i) log =
        ((feed parseFn log ((rs.take lim).drop i)).1,
          fedExit (feed parseFn log ((rs.take lim).drop i)).2 lim rs.length) := by
  have hpos : 0 < sizeofEntry := by decide
  have hlen : (rs.flatMap Subtype.val ++ tail).length = sizeofEntry * rs.length + tail.length := by
    rw [List.length_append, Blocks.length_flatMap fun r ↦ r.2]
  intro fuel
  induction fuel with
  | zero => intro i log _ _ hf; omega
  | succ fuel ih =>
      intro i log hi hlim hf
      rw [recordLoop]
      by_cases hie : i = rs.length
      · -- past the last record of the page
        have hnil : (rs.take lim).drop i = [] := by
          rw [List.drop_eq_nil_iff, List.length_take]
          omega
        rw [if_pos (by rw [hie]), hnil]
        simp [feed, fedExit, show ¬ lim < rs.length by omega]
      · have hi' : i < rs.length := by omega
        have hlt : ¬ sizeofEntry * rs.length ≤ sizeofEntry * i :=
          Nat.not_le.2 ((Nat.mul_lt_mul_left hpos).2 hi')
        rw [if_neg hlt, hend i hi']
        by_cases hl : lim ≤ i
        · -- the wrap position is reached
          have hnil : (rs.take lim).drop i = [] := by
            rw [List.drop_eq_nil_iff, List.length_take]
            omega
          rw [if_pos (by simpa using hl), hnil]
          simp [feed, fedExit, show lim < rs.length by omega]
        · have hmul : sizeofEntry * i + sizeofEntry = sizeofEntry * (i + 1) := by ring
          have hin : ¬ (rs.flatMap Subtype.val ++ tail).length < sizeofEntry * i + sizeofEntry := by
            rw [hlen, hmul]
            have := Nat.mul_le_mul_left sizeofEntry (show i + 1 ≤ rs.length by omega)
            omega
          have hcons : (rs.take lim).drop i = rs[i] :: (rs.take lim).drop (i + 1) := by
            rw [List.drop_eq_getElem_cons (by rw [List.length_take]; omega), List.getElem_take]
          rw [if_neg (by simpa using hl), if_neg hin, record_at hi', hcons, feed]
          dsimp only
          by_cases hstop : parseFn log.cnt rs[i].1 = true
          · rw [if_pos hstop, if_pos hstop]
            rfl
          · rw [if_neg hstop, if_neg hstop, hmul, ih (i + 1) _ (by omega) (by omega) (by omega)]

/-! ## All pages -/

section

variable {io : PrbtIo} {hdr : List UInt8} {recs : List RecordBytes} {N : Nat}

/-- The records of page `p`. -/
def pageRecords (recs : List RecordBytes) (N p : Nat) : List RecordBytes :=
  (recs.drop (p * N)).take N

theorem length_pageRecords (recs : List RecordBytes) (N p : Nat) :
    (pageRecords recs N p).length = min N (recs.length - p * N) := by
  rw [pageRecords, List.length_take, List.length_drop]

/-- What is handed over from a place in page `p` on: the rest of the page, then the
pages behind it. -/
theorem drop_eq_pageRecords_append {lim p i : Nat} (hlim : p * N + i ≤ lim) (hi : i ≤ N)
    (hle : p * N + i ≤ recs.length) :
    (recs.take lim).drop (p * N + i) =
      ((pageRecords recs N p).take (lim - p * N)).drop i ++ (recs.take lim).drop ((p + 1) * N) := by
  have hpage : ((recs.take lim).drop (p * N)).take N =
      (pageRecords recs N p).take (lim - p * N) := by
    rw [pageRecords, List.drop_take, List.take_take, List.take_take, Nat.min_comm]
  have hsplit : (recs.take lim).drop (p * N) = (pageRecords recs N p).take (lim - p * N) ++
      (recs.take lim).drop ((p + 1) * N) := by
    rw [← hpage, show (p + 1) * N = p * N + N by ring, ← List.drop_drop, List.take_append_drop]
  rw [← List.drop_drop, hsplit, List.drop_append_of_le_length]
  rw [List.length_take, length_pageRecords]
  omega

/-- A page load that succeeds reads the records of that page, and keeps the length of
the page buffer. -/
theorem loadTracePage_eq (hhdr : hdr.length = RBTRACE_FHEADER_SIZE) (p : Nat) (page : List UInt8) :
    loadTracePage false (hdr ++ recs.flatMap Subtype.val) p (sizeofEntry * N) page =
      (sizeofEntry * (pageRecords recs N p).length,
        (pageRecords recs N p).flatMap Subtype.val ++
          page.drop (sizeofEntry * (pageRecords recs N p).length)) := by
  have hpn : p * (sizeofEntry * N) = sizeofEntry * (p * N) := by ring
  have hbytes : ((hdr ++ recs.flatMap Subtype.val).drop
      (RBTRACE_FHEADER_SIZE + p * (sizeofEntry * N))).take (sizeofEntry * N) =
      (pageRecords recs N p).flatMap Subtype.val := by
    rw [← hhdr, ← List.drop_drop, List.drop_left, hpn, Blocks.drop_flatMap fun r ↦ r.2,
      Blocks.take_flatMap fun r ↦ r.2, pageRecords]
  have hlen : ((pageRecords recs N p).flatMap Subtype.val).length =
      sizeofEntry * (pageRecords recs N p).length := Blocks.length_flatMap (fun r ↦ r.2) _
  rw [loadTracePage, if_neg Bool.false_ne_true, hbytes]
  dsimp only
  rw [hlen]

variable (parseFn) in
/-- **The outer loop.**  From page `p` and record `i` of it, it hands over the records
of the file from there up to record `lim`. -/
theorem pageLoop_eq_feed (hio : ∀ k, io.preadFails k = false)
    (hhdr : hdr.length = RBTRACE_FHEADER_SIZE) (hN : 0 < N) (atEnd : Nat → Nat → Bool) (lim : Nat)
    (hend : ∀ p i, i < N → p * N + i < recs.length →
      atEnd p (sizeofEntry * i) = decide (lim ≤ p * N + i)) :
    ∀ (fuel p i : Nat) (st : PageState), recs.length - p * N < fuel → i < N →
      (i = 0 ∨ p * N + i < recs.length) → p * N + i ≤ lim →
      st.page.length = sizeofEntry * N →
      ∃ st', pageLoop io parseFn (hdr ++ recs.flatMap Subtype.val) (sizeofEntry * N) atEnd fuel p
          (sizeofEntry * i) st =
        (st', fedExit (feed parseFn st.log ((recs.take lim).drop (p * N + i))).2
          lim recs.length) ∧
        st'.log = (feed parseFn st.log ((recs.take lim).drop (p * N + i))).1 ∧
        st'.page.length = sizeofEntry * N := by
  have hpos : 0 < sizeofEntry := by decide
  intro fuel
  induction fuel with
  | zero => intro p i st hf; omega
  | succ fuel ih =>
      intro p i st hf hi hstart hlim hpage
      have hlen := length_pageRecords recs N p
      have hpage' : ((pageRecords recs N p).flatMap Subtype.val ++
          st.page.drop (sizeofEntry * (pageRecords recs N p).length)).length =
          sizeofEntry * N := by
        have hle := Nat.mul_le_mul_left sizeofEntry (show (pageRecords recs N p).length ≤ N by omega)
        rw [List.length_append, List.length_drop, hpage, Blocks.length_flatMap fun r ↦ r.2]
        omega
      rw [pageLoop, hio, loadTracePage_eq hhdr]
      dsimp only
      by_cases hempty : recs.length ≤ p * N
      · -- the page starts at the end of the file
        have hnil : (recs.take lim).drop (p * N + i) = [] := by
          rw [List.drop_eq_nil_iff, List.length_take]
          omega
        have h0 : sizeofEntry * (pageRecords recs N p).length = 0 := by
          rw [hlen, show min N (recs.length - p * N) = 0 by omega, Nat.mul_zero]
        rw [if_pos h0, hnil]
        refine ⟨_, Prod.ext rfl ?_, rfl, hpage'⟩
        simp only [feed, fedExit, Bool.false_eq_true, if_false, show ¬ lim < recs.length by omega]
      · have hfull : ¬ sizeofEntry * (pageRecords recs N p).length = 0 := by
          rw [hlen]
          exact Nat.mul_ne_zero hpos.ne' (by omega)
        have hoff : ¬ sizeofEntry * (pageRecords recs N p).length ≤ sizeofEntry * i := by
          rw [Nat.not_le, hlen]
          exact (Nat.mul_lt_mul_left hpos).2 (by omega)
        have hendp : ∀ k < (pageRecords recs N p).length,
            atEnd p (sizeofEntry * k) = decide (lim - p * N ≤ k) := fun k hk ↦ by
          rw [hend p k (by omega) (by omega)]
          exact decide_eq_decide.2 (by omega)
        have hfuel : (pageRecords recs N p).length - i < sizeofEntry * N / sizeofEntry + 1 := by
          rw [Nat.mul_div_cancel_left N hpos]
          omega
        rw [if_neg hfull, if_neg hoff, hpage',
          recordLoop_eq_feed hendp _ i st.log (by omega) (by omega) hfuel,
          drop_eq_pageRecords_append hlim hi.le (by omega), feed_append]
        dsimp only
        -- the rest of this page has been handed over
        set q := feed parseFn st.log (((pageRecords recs N p).take (lim - p * N)).drop i)
        cases hq : q.2 with
        | true => exact ⟨_, Prod.ext rfl (by simp only [fedExit, hq, if_true]), rfl, hpage'⟩
        | false =>
            by_cases hcut : lim - p * N < (pageRecords recs N p).length
            · -- the wrap position lies in this page
              have hnil : (recs.take lim).drop ((p + 1) * N) = [] := by
                rw [List.drop_eq_nil_iff, List.length_take, Nat.add_mul, Nat.one_mul]
                omega
              have hexit : ∀ {l n : Nat}, l < n → fedExit false l n = some .done := fun h ↦ by
                simp only [fedExit, Bool.false_eq_true, if_false, if_pos h]
              rw [hnil, hexit hcut]
              simp only [feed, Bool.false_eq_true, if_false]
              rw [hexit (show lim < recs.length by omega)]
              exact ⟨_, rfl, rfl, hpage'⟩
            · simp only [fedExit, Bool.false_eq_true, if_false, if_neg hcut]
              by_cases hshort : (pageRecords recs N p).length < N
              · -- the last page of the file
                have hnil : (recs.take lim).drop ((p + 1) * N) = [] := by
                  rw [List.drop_eq_nil_iff, List.length_take, Nat.add_mul, Nat.one_mul]
                  omega
                rw [if_pos ((Nat.mul_lt_mul_left hpos).2 hshort), hnil]
                refine ⟨_, Prod.ext rfl ?_, rfl, hpage'⟩
                simp only [feed, Bool.false_eq_true, if_false, show ¬ lim < recs.length by omega]
              · have hnext : recs.length - (p + 1) * N < fuel := by
                  rw [Nat.add_mul, Nat.one_mul]
                  omega
                have hlim' : (p + 1) * N + 0 ≤ lim := by
                  rw [Nat.add_mul, Nat.one_mul]
                  omega
                rw [if_neg (fun h ↦ hshort ((Nat.mul_lt_mul_left hpos).1 h))]
                exact ih (p + 1) 0 ⟨q.1, _, _⟩ hnext hN (.inl rfl) hlim' hpage'

/-- The first pass goes to the end of the file. -/
theorem pageLoop_toEnd (hio : ∀ k, io.preadFails k = false)
    (hhdr : hdr.length = RBTRACE_FHEADER_SIZE) (hN : 0 < N) {fuel p i : Nat} {st : PageState}
    (hfuel : recs.length < fuel) (hi : i < N) (hstart : i = 0 ∨ p * N + i < recs.length)
    (hle : p * N + i ≤ recs.length) (hpage : st.page.length = sizeofEntry * N) :
    ∃ st', pageLoop io parseFn (hdr ++ recs.flatMap Subtype.val) (sizeofEntry * N)
        (fun _ _ ↦ false) fuel p (sizeofEntry * i) st =
      (st', if (feed parseFn st.log (recs.drop (p * N + i))).2 then some .stopped else none) ∧
      st'.log = (feed parseFn st.log (recs.drop (p * N + i))).1 ∧
      st'.page.length = sizeofEntry * N := by
  have hend : ∀ p i, i < N → p * N + i < recs.length →
      false = decide (recs.length ≤ p * N + i) := fun p i _ h ↦
    (decide_eq_false (Nat.not_le.2 h)).symm
  obtain ⟨st', h, hlog, hlen⟩ := pageLoop_eq_feed parseFn hio hhdr hN
    (fun _ _ ↦ false) recs.length hend fuel p i st (by omega) hi hstart hle hpage
  rw [List.take_length] at h hlog
  refine ⟨st', h.trans ?_, hlog, hlen⟩
  simp only [fedExit, lt_irrefl, if_false]

/-- The second pass goes from the start of the file to the wrap position. -/
theorem pageLoop_toWrap (hio : ∀ k, io.preadFails k = false)
    (hhdr : hdr.length = RBTRACE_FHEADER_SIZE) (hN : 0 < N) {fuel j : Nat} {st : PageState}
    (hfuel : recs.length < fuel) (hpage : st.page.length = sizeofEntry * N) :
    ∃ st', pageLoop io parseFn (hdr ++ recs.flatMap Subtype.val) (sizeofEntry * N)
        (fun p off ↦ RBTRACE_FHEADER_SIZE + sizeofEntry * j ≤
          RBTRACE_FHEADER_SIZE + p * (sizeofEntry * N) + off) fuel 0 0 st =
      (st', fedExit (feed parseFn st.log (recs.take j)).2 j recs.length) ∧
      st'.log = (feed parseFn st.log (recs.take j)).1 := by
  have hend : ∀ p i, i < N → p * N + i < recs.length →
      decide (RBTRACE_FHEADER_SIZE + sizeofEntry * j ≤
        RBTRACE_FHEADER_SIZE + p * (sizeofEntry * N) + sizeofEntry * i) =
      decide (j ≤ p * N + i) := fun p i _ _ ↦ by
    have hmul : p * (sizeofEntry * N) + sizeofEntry * i = sizeofEntry * (p * N + i) := by ring
    rw [Nat.add_assoc, hmul]
    exact decide_eq_decide.2 (Nat.add_le_add_iff_left.trans
      (Nat.mul_le_mul_left_iff (show 0 < sizeofEntry by decide)))
  obtain ⟨st', h, hlog, -⟩ := pageLoop_eq_feed parseFn hio hhdr hN
    (fun p off ↦ RBTRACE_FHEADER_SIZE + sizeofEntry * j ≤
      RBTRACE_FHEADER_SIZE + p * (sizeofEntry * N) + off) j hend fuel 0 0 st (by omega) hN
    (.inl rfl) (by omega) hpage
  simp only [Nat.zero_mul, Nat.zero_add, List.drop_zero] at h hlog
  exact ⟨st', h, hlog⟩

/-! ## The whole file -/

variable {prf : PaddedRbtraceFheader} {j : Nat}

/-- The stored wrap position stands for record `j`; no wrap position for record 0. -/
def WrapAt (prf : PaddedRbtraceFheader) (j : Nat) : Prop :=
  (prf.hdr.wrapPos = 0 ∧ j = 0) ∨ prf.hdr.wrapPos = RBTRACE_FHEADER_SIZE + sizeofEntry * j

/-- The place the first pass starts from. -/
private theorem WrapAt.start_eq (h : WrapAt prf j) :
    prf.hdr.wrapPos - RBTRACE_FHEADER_SIZE = sizeofEntry * j := by
  obtain ⟨h₀, rfl⟩ | h := h
  · rw [h₀, Nat.zero_sub, Nat.mul_zero]
  · rw [h, Nat.add_sub_cancel_left]

/-- The page and the record a position lies in. -/
private theorem start_page (j N : Nat) :
    sizeofEntry * j / (sizeofEntry * N) = j / N ∧
      sizeofEntry * j % (sizeofEntry * N) = sizeofEntry * (j % N) :=
  ⟨Nat.mul_div_mul_left _ _ (by decide), Nat.mul_mod_mul_left _ _ _⟩

private theorem lt_length_file (hhdr : hdr.length = RBTRACE_FHEADER_SIZE) :
    recs.length < (hdr ++ recs.flatMap Subtype.val).length + 1 := by
  have hone : 1 ≤ sizeofEntry := by decide
  have hle := Nat.mul_le_mul_right recs.length hone
  rw [List.length_append, Blocks.length_flatMap fun r ↦ r.2]
  omega

/-- **The reader lists a rotation of the file.**  All that is asked of the wrap
position is that it is not past the end, and at the end only if that is a page
boundary. -/
theorem parseTraceFile_eq_feed (hio : ∀ k, io.preadFails k = false) (hm : io.malloc.isSome)
    (hhdr : hdr.length = RBTRACE_FHEADER_SIZE) (hN : 0 < N) (hsize : sizeofEntry * N < 2 ^ 64)
    (hnr : prf.hdr.nrRecords = N) (hwrap : WrapAt prf j) (hj : j ≤ recs.length)
    (hpage : j < recs.length ∨ j % N = 0) :
    parseTraceFile io parseFn (hdr ++ recs.flatMap Subtype.val) prf =
      ((feed parseFn .empty (recs.rotate j)).1,
        if (feed parseFn .empty (recs.rotate j)).2 then .stopped else .done) := by
  obtain ⟨junk, hjunk⟩ := Option.isSome_iff_exists.1 hm
  have hdm : j / N * N + j % N = j := by
    rw [Nat.mul_comm]
    exact Nat.div_add_mod j N
  have hzero : sizeofEntry * N ≠ 0 := Nat.mul_ne_zero (by decide) hN.ne'
  have hnew : ((List.range (sizeofEntry * N)).map junk).length = sizeofEntry * N := by simp
  obtain ⟨st₁, h₁, hlog₁, hpage₁⟩ :=
    @pageLoop_toEnd parseFn io hdr recs N hio hhdr hN _ (j / N) (j % N) ⟨.empty, _, 0⟩
      (lt_length_file hhdr) (Nat.mod_lt j hN) (by omega) (by omega) hnew
  rw [hdm] at h₁ hlog₁
  rw [List.rotate_eq_drop_append_take hj, feed_append]
  simp only [parseTraceFile, hnr, Nat.mod_eq_of_lt hsize, hjunk, hzero, and_false, if_false,
    hwrap.start_eq, start_page, h₁]
  set q := feed parseFn .empty (recs.drop j)
  cases hq : q.2 with
  | true => simp only [hlog₁, hq, if_true]
  | false =>
      simp only [Bool.false_eq_true, if_false]
      by_cases hw : prf.hdr.wrapPos = 0 ∨ prf.hdr.wrapPos = RBTRACE_FHEADER_SIZE
      · -- not wrapped: that was all
        have hj0 : j = 0 := by
          unfold WrapAt RBTRACE_FHEADER_SIZE sizeofEntry at *
          omega
        rw [if_pos hw, hlog₁, hj0, List.take_zero]
        rfl
      · -- the records before the wrap position are left
        have hwj : prf.hdr.wrapPos = RBTRACE_FHEADER_SIZE + sizeofEntry * j := by
          unfold WrapAt at hwrap
          omega
        obtain ⟨st₂, h₂, hlog₂⟩ := @pageLoop_toWrap parseFn io hdr recs N hio hhdr hN _ j st₁
          (lt_length_file hhdr) hpage₁
        rw [if_neg hw, hwj, h₂, hlog₂, hlog₁]
        simp only [fedExit]
        cases (feed parseFn q.1 (recs.take j)).2 with
        | true => rfl
        | false => by_cases hcut : j < recs.length <;> simp [hcut]

/-- **The exception.**  A wrap position at the end of the file that is not a page
boundary is taken for an invalid one, and nothing is listed. -/
theorem parseTraceFile_invalid (hio : ∀ k, io.preadFails k = false) (hm : io.malloc.isSome)
    (hhdr : hdr.length = RBTRACE_FHEADER_SIZE) (hN : 0 < N) (hsize : sizeofEntry * N < 2 ^ 64)
    (hnr : prf.hdr.nrRecords = N) (hwrap : WrapAt prf recs.length) (hpage : recs.length % N ≠ 0) :
    parseTraceFile io parseFn (hdr ++ recs.flatMap Subtype.val) prf = (.empty, .invalid) := by
  obtain ⟨junk, hjunk⟩ := Option.isSome_iff_exists.1 hm
  have hdm : recs.length / N * N + recs.length % N = recs.length := by
    rw [Nat.mul_comm]
    exact Nat.div_add_mod _ N
  have hlt := Nat.mod_lt recs.length hN
  have hlen : (pageRecords recs N (recs.length / N)).length = recs.length % N := by
    rw [length_pageRecords]
    omega
  have hpos : sizeofEntry * (recs.length % N) ≠ 0 := Nat.mul_ne_zero (by decide) hpage
  have hzero : sizeofEntry * N ≠ 0 := Nat.mul_ne_zero (by decide) hN.ne'
  simp only [parseTraceFile, hnr, Nat.mod_eq_of_lt hsize, hjunk, hzero, and_false, if_false,
    hwrap.start_eq, start_page, pageLoop, hio, loadTracePage_eq hhdr, hlen, if_neg hpos,
    le_refl, if_true]

end

/-! ## Files that end in the middle of a record

The inner loop runs as long as there are bytes left, so it also hands over a record of
which only the beginning is in the file. -/

section

variable {io : PrbtIo} {hdr body : List UInt8} {N : Nat}

/-- The number of records that begin in `n` bytes. -/
def recordsBegun (n : Nat) : Nat := (n + (sizeofEntry - 1)) / sizeofEntry

theorem recordsBegun_mul (n : Nat) : recordsBegun (sizeofEntry * n) = n := by
  unfold recordsBegun sizeofEntry
  omega

/-- Every byte behind whole records begins another one. -/
theorem lt_recordsBegun {m n : Nat} (h : sizeofEntry * m < n) : m < recordsBegun n := by
  unfold recordsBegun sizeofEntry at *
  omega

/-- The bytes at slot `i` of a page. -/
def slot (page : List UInt8) (i : Nat) : List UInt8 :=
  (page.drop (sizeofEntry * i)).take sizeofEntry

/-- A callback that never stops is handed every slot that begins in the bytes read. -/
theorem recordLoop_slots {page : List UInt8} {nbytes : Nat} {atEnd : Nat → Bool} {M : Nat}
    (hpage : page.length = sizeofEntry * M)
    (hn : nbytes ≤ page.length)
    (hend : ∀ i, sizeofEntry * i < nbytes → atEnd (sizeofEntry * i) = false) {i : Nat}
    (hi : i ≤ M) (log : ParseLog) :
    ∃ log', recordLoop (fun _ _ ↦ false) page nbytes atEnd (page.length / sizeofEntry + 1)
        (sizeofEntry * i) log = (log', none) ∧
      log'.calls.map Prod.snd = log.calls.map Prod.snd ++
        (List.range' i (recordsBegun nbytes - i)).map (slot page) := by
  have hloop : ∀ (fuel i : Nat) (log : ParseLog), i ≤ M → M < fuel + i →
      ∃ log', recordLoop (fun _ _ ↦ false) page nbytes atEnd fuel (sizeofEntry * i) log =
          (log', none) ∧
        log'.calls.map Prod.snd = log.calls.map Prod.snd ++
          (List.range' i (recordsBegun nbytes - i)).map (slot page) := by
    intro fuel
    induction fuel with
    | zero => intro i log hi hf; omega
    | succ fuel ih =>
        intro i log hi hf
        rw [recordLoop]
        by_cases hle : nbytes ≤ sizeofEntry * i
        · have hnil : recordsBegun nbytes - i = 0 := by
            unfold recordsBegun sizeofEntry at *
            omega
          refine ⟨log, if_pos hle, ?_⟩
          rw [hnil, List.range'_zero, List.map_nil, List.append_nil]
        · have hlt : i < M := by
            unfold sizeofEntry at *
            omega
          have hin : ¬ page.length < sizeofEntry * i + sizeofEntry := by
            unfold sizeofEntry at *
            omega
          have hcount : recordsBegun nbytes - i = recordsBegun nbytes - (i + 1) + 1 := by
            have := lt_recordsBegun (not_le.1 hle)
            omega
          have hnext : sizeofEntry * i + sizeofEntry = sizeofEntry * (i + 1) := by ring
          rw [if_neg hle, if_neg (by simp [hend i (not_le.1 hle)]), if_neg hin]
          dsimp only
          rw [if_neg Bool.false_ne_true, hnext]
          obtain ⟨log', hlog', hcalls⟩ := ih (i + 1) (log.call (slot page i)) hlt (by omega)
          refine ⟨log', hlog', ?_⟩
          rw [hcalls, hcount, List.range'_succ]
          simp [ParseLog.call]
  refine hloop _ i log hi ?_
  rw [hpage, Nat.mul_div_cancel_left M (by decide)]
  omega

private theorem length_calls_pageLoop (hio : ∀ k, io.preadFails k = false)
    (hhdr : hdr.length = RBTRACE_FHEADER_SIZE) (hN : 0 < N) :
    ∀ (fuel p : Nat) (st : PageState), body.length - p * (sizeofEntry * N) < fuel →
      st.page.length = sizeofEntry * N →
      ∃ st', pageLoop io (fun _ _ ↦ false) (hdr ++ body) (sizeofEntry * N) (fun _ _ ↦ false) fuel p 0
          st = (st', none) ∧
        st'.log.calls.length =
          st.log.calls.length + recordsBegun (body.length - p * (sizeofEntry * N)) := by
  intro fuel
  induction fuel with
  | zero => intro p st hf; omega
  | succ fuel ih =>
      intro p st hf hpage
      have hdrop : (hdr ++ body).drop (RBTRACE_FHEADER_SIZE + p * (sizeofEntry * N)) =
          body.drop (p * (sizeofEntry * N)) := by
        rw [← hhdr, ← List.drop_drop, List.drop_left]
      rw [pageLoop, hio, loadTracePage, if_neg Bool.false_ne_true, hdrop]
      set b := (body.drop (p * (sizeofEntry * N))).take (sizeofEntry * N) with hb
      have hlen : b.length = min (sizeofEntry * N) (body.length - p * (sizeofEntry * N)) := by
        rw [hb, List.length_take, List.length_drop]
      have hpage' : (b ++ st.page.drop b.length).length = sizeofEntry * N := by
        rw [List.length_append, List.length_drop, hpage]
        omega
      dsimp only
      by_cases h0 : b.length = 0
      · have hpos : 0 < sizeofEntry * N := Nat.mul_pos (by decide) hN
        refine ⟨_, if_pos h0, ?_⟩
        rw [show body.length - p * (sizeofEntry * N) = 0 by omega]
        rfl
      · obtain ⟨log', hlog', hslots⟩ := @recordLoop_slots _ b.length (fun _ ↦ false) _ hpage'
          (show b.length ≤ (b ++ st.page.drop b.length).length by omega) (fun _ _ ↦ rfl) 0
          (Nat.zero_le N) st.log
        have hcalls : log'.calls.length = st.log.calls.length + recordsBegun b.length := by
          have hlen := congrArg List.length hslots
          simpa only [List.length_map, List.length_append, List.length_range', Nat.sub_zero] using hlen
        rw [Nat.mul_zero] at hlog'
        rw [if_neg h0, if_neg (by omega), hlog']
        dsimp only
        by_cases hshort : b.length < sizeofEntry * N
        · refine ⟨_, if_pos hshort, ?_⟩
          rw [show body.length - p * (sizeofEntry * N) = b.length by omega]
          exact hcalls
        · have hle : sizeofEntry * N ≤ body.length - p * (sizeofEntry * N) := by omega
          have hsub : body.length - (p + 1) * (sizeofEntry * N) =
              body.length - p * (sizeofEntry * N) - sizeofEntry * N := by
            rw [Nat.add_mul, Nat.one_mul, Nat.sub_add_eq]
          rw [if_neg hshort]
          obtain ⟨st', hst', hcalls'⟩ := ih (p + 1) ⟨log', b ++ st.page.drop b.length, st.loads + 1⟩
            (by rw [hsub]; have : 0 < sizeofEntry * N := Nat.mul_pos (by decide) hN; omega) hpage'
          refine ⟨st', hst', hcalls'.trans ?_⟩
          rw [hcalls, hsub, show b.length = sizeofEntry * N by omega]
          unfold recordsBegun sizeofEntry at *
          omega

/-- **How many records are listed**, whatever the file holds: all that begin in it. -/
theorem length_calls_parseTraceFile {prf : PaddedRbtraceFheader} (hio : ∀ k, io.preadFails k = false)
    (hm : io.malloc.isSome) (hhdr : hdr.length = RBTRACE_FHEADER_SIZE) (hN : 0 < N)
    (hsize : sizeofEntry * N < 2 ^ 64) (hnr : prf.hdr.nrRecords = N) (hwrap : prf.hdr.wrapPos = 0) :
    (parseTraceFile io (fun _ _ ↦ false) (hdr ++ body) prf).1.calls.length =
      recordsBegun body.length := by
  obtain ⟨junk, hjunk⟩ := Option.isSome_iff_exists.1 hm
  have hzero : sizeofEntry * N ≠ 0 := Nat.mul_ne_zero (by decide) hN.ne'
  obtain ⟨st, hst, hcalls⟩ := @length_calls_pageLoop io hdr body N hio hhdr hN
    ((hdr ++ body).length + 1) 0 ⟨.empty, (List.range (sizeofEntry * N)).map junk, 0⟩
    (by rw [List.length_append]; omega) (by simp)
  rw [Nat.zero_mul, Nat.sub_zero] at hcalls
  simp only [parseTraceFile, hnr, hwrap, Nat.mod_eq_of_lt hsize, hjunk, hzero, and_false, if_false,
    Nat.zero_sub, Nat.zero_div, Nat.zero_mod, hst, true_or, if_true]
  rw [hcalls]
  simp [ParseLog.empty]

end

/-! ## Listings of entries -/

section

variable {io : PrbtIo} {prf : PaddedRbtraceFheader} {es : List RbtraceEntry} {j : Nat}

/-- A trace file: the header, then the records. -/
def traceFile (prf : PaddedRbtraceFheader) (es : List RbtraceEntry) : List UInt8 :=
  prf.toBytes ++ es.flatMap RbtraceEntry.toBytes

/-- The bytes of an entry, as a record. -/
def RbtraceEntry.record (e : RbtraceEntry) : RecordBytes := ⟨e.toBytes, e.length_toBytes⟩

theorem traceFile_eq_records (prf : PaddedRbtraceFheader) (es : List RbtraceEntry) :
    traceFile prf es = prf.toBytes ++ (es.map RbtraceEntry.record).flatMap Subtype.val := by
  rw [traceFile, List.flatMap_map]
  rfl

/-- The number of bytes of a trace file. -/
theorem length_traceFile (prf : PaddedRbtraceFheader) (es : List RbtraceEntry) :
    (traceFile prf es).length = RBTRACE_FHEADER_SIZE + sizeofEntry * es.length := by
  rw [traceFile, List.length_append, PaddedRbtraceFheader.length_toBytes,
    Blocks.length_flatMap RbtraceEntry.length_toBytes]

/-- What the reader needs of the machine it runs on: memory, and reads that work. -/
structure PrbtIo.Ok (io : PrbtIo) : Prop where
  malloc : io.malloc.isSome
  pread : ∀ k, io.preadFails k = false

/-- Memory and disk that work. -/
def PrbtIo.smooth : PrbtIo := ⟨some fun _ ↦ 0, fun _ ↦ false⟩

theorem PrbtIo.smooth_ok : PrbtIo.smooth.Ok := ⟨rfl, fun _ ↦ rfl⟩

/-- The header a reader takes from a file is the one the file starts with. -/
theorem readHeader_append (prf : PaddedRbtraceFheader) (l : List UInt8) :
    (readHeader (prf.toBytes ++ l)).hdr.wrapPos = prf.hdr.wrapPos % 2 ^ 64 ∧
      (readHeader (prf.toBytes ++ l)).hdr.nrRecords = prf.hdr.nrRecords % 2 ^ 64 := by
  have htake : (prf.toBytes ++ l).take RBTRACE_FHEADER_SIZE = prf.toBytes ++ [] := by
    rw [List.take_left' prf.length_toBytes, List.append_nil]
  rw [readHeader, htake]
  exact ⟨prf.ofBytes_wrapPos [], prf.ofBytes_nrRecords []⟩

/-- The header a reader takes from a trace file is the one that was written. -/
theorem readHeader_traceFile (prf : PaddedRbtraceFheader) (es : List RbtraceEntry) :
    (readHeader (traceFile prf es)).hdr.wrapPos = prf.hdr.wrapPos % 2 ^ 64 ∧
      (readHeader (traceFile prf es)).hdr.nrRecords = prf.hdr.nrRecords % 2 ^ 64 :=
  readHeader_append prf _

private theorem wrapAt_readHeader (hwrap : WrapAt prf j) (hlt : prf.hdr.wrapPos < 2 ^ 64)
    (es : List RbtraceEntry) : WrapAt (readHeader (traceFile prf es)) j := by
  have h := (readHeader_traceFile prf es).1
  rw [Nat.mod_eq_of_lt hlt] at h
  rwa [WrapAt, h]

private theorem nrRecords_readHeader (hsize : sizeofEntry * prf.hdr.nrRecords < 2 ^ 64)
    (es : List RbtraceEntry) :
    (readHeader (traceFile prf es)).hdr.nrRecords = prf.hdr.nrRecords := by
  rw [(readHeader_traceFile prf es).2, Nat.mod_eq_of_lt]
  unfold sizeofEntry at hsize
  omega

/-- **What `prbt` lists** for a trace file whose wrap position is record `j`. -/
theorem listing_traceFile (hio : io.Ok) (hpos : 0 < prf.hdr.nrRecords)
    (hsize : sizeofEntry * prf.hdr.nrRecords < 2 ^ 64) (hwrap : WrapAt prf j)
    (hlt : prf.hdr.wrapPos < 2 ^ 64) (hj : j ≤ es.length)
    (hpage : j < es.length ∨ j % prf.hdr.nrRecords = 0) :
    listing io (traceFile prf es) = es.rotate j := by
  have hnr := nrRecords_readHeader hsize es
  have hw := wrapAt_readHeader hwrap hlt es
  have hfed := (feed_of_never .empty ((es.map RbtraceEntry.record).rotate j)).1
  rw [traceFile_eq_records] at hnr hw
  rw [listing, traceFile_eq_records,
    parseTraceFile_eq_feed hio.pread hio.malloc prf.length_toBytes hpos hsize hnr hw
      (by simpa using hj) (by simpa using hpage)]
  have hread : (RbtraceEntry.ofBytes ∘ Subtype.val) ∘ RbtraceEntry.record = id :=
    funext RbtraceEntry.ofBytes_toBytes
  calc (feed (fun _ _ ↦ false) .empty ((es.map RbtraceEntry.record).rotate j)).1.calls.map
        (RbtraceEntry.ofBytes ∘ Prod.snd)
      = (((es.map RbtraceEntry.record).rotate j).map Subtype.val).map RbtraceEntry.ofBytes := by
        rw [← List.map_map, hfed]
        rfl
    _ = es.rotate j := by
        rw [← List.map_rotate, List.map_map, List.map_map, hread, List.map_id]

/-- The listing of a file whose wrap position is its end, off a page boundary, is
empty. -/
theorem listing_traceFile_invalid (hio : io.Ok) (hpos : 0 < prf.hdr.nrRecords)
    (hsize : sizeofEntry * prf.hdr.nrRecords < 2 ^ 64) (hwrap : WrapAt prf es.length)
    (hlt : prf.hdr.wrapPos < 2 ^ 64) (hpage : es.length % prf.hdr.nrRecords ≠ 0) :
    listing io (traceFile prf es) = [] := by
  have hnr := nrRecords_readHeader hsize es
  have hw := wrapAt_readHeader hwrap hlt es
  rw [traceFile_eq_records] at hnr hw
  rw [listing, traceFile_eq_records,
    parseTraceFile_invalid hio.pread hio.malloc prf.length_toBytes hpos hsize hnr
      (by simpa using hw) (by simpa using hpage)]
  rfl

/-- The listing of a file without a wrap position has all records that begin in it. -/
theorem length_listing (hio : io.Ok) (hpos : 0 < prf.hdr.nrRecords)
    (hsize : sizeofEntry * prf.hdr.nrRecords < 2 ^ 64) (hwrap : prf.hdr.wrapPos = 0)
    (body : List UInt8) :
    (listing io (prf.toBytes ++ body)).length = recordsBegun body.length := by
  obtain ⟨hw, hn⟩ := readHeader_append prf body
  have hlt : prf.hdr.nrRecords < 2 ^ 64 := by
    unfold sizeofEntry at hsize
    omega
  rw [hwrap] at hw
  rw [Nat.mod_eq_of_lt hlt] at hn
  rw [listing, List.length_map]
  exact length_calls_parseTraceFile hio.pread hio.malloc prf.length_toBytes hpos hsize hn hw

end

/-! ## What the callback is told -/

/-- The calls that hand over these records, numbered from `k`. -/
def numbered (k : Nat) (rs : List RecordBytes) : List (Nat × List UInt8) :=
  (rs.zipIdx k).map fun c ↦ (c.2, c.1.1)

/-- A list cut off right after the first element of which `p` holds. -/
def cutAfter {α : Type*} (p : α → Bool) (l : List α) : List α := l.take (l.findIdx p + 1)

theorem cutAfter_cons {α : Type*} (p : α → Bool) (a : α) (l : List α) :
    cutAfter p (a :: l) = if p a then [a] else a :: cutAfter p l := by
  rw [cutAfter, List.findIdx_cons]
  cases p a with
  | true => simp
  | false => simp [cutAfter]

/-- Feeding calls the callback on the records in turn, up to the call that returns
true. -/
theorem calls_feed (parseFn : ParseFn) (log : ParseLog) (rs : List RecordBytes) :
    (feed parseFn log rs).1.calls =
      log.calls ++ cutAfter (fun c ↦ parseFn c.1 c.2) (numbered log.cnt rs) := by
  induction rs generalizing log with
  | nil => simp [feed, numbered, cutAfter]
  | cons r rs ih =>
      have hcons : numbered log.cnt (r :: rs) = (log.cnt, r.1) :: numbered (log.cnt + 1) rs := rfl
      rw [feed, hcons, cutAfter_cons]
      by_cases hstop : parseFn log.cnt r.1 = true
      · rw [if_pos hstop, if_pos hstop]
        rfl
      · rw [if_neg hstop, if_neg hstop, ih]
        simp [ParseLog.call]

/-- **The paged reader is a rotation of the file.**  The callback is handed the records
from the wrap position to the end and then those before it, numbered from 0, up to the
call that returns true.  The page size does not occur on the right.  (`malloc` of the page
succeeds, and no `pread` fails.) -/
theorem calls_parseTraceFile {io : PrbtIo} {hdr : List UInt8} {recs : List RecordBytes} {N : Nat}
    {prf : PaddedRbtraceFheader} {j : Nat} (parseFn : ParseFn)
    (hio : ∀ k, io.preadFails k = false) (hm : io.malloc.isSome)
    (hhdr : hdr.length = RBTRACE_FHEADER_SIZE) (hN : 1 ≤ N) (hsize : sizeofEntry * N < 2 ^ 64)
    (hnr : prf.hdr.nrRecords = N)
    (hwrap : (prf.hdr.wrapPos = 0 ∧ j = 0) ∨
      (prf.hdr.wrapPos = RBTRACE_FHEADER_SIZE + sizeofEntry * j ∧ j < recs.length)) :
    (parseTraceFile io parseFn (hdr ++ recs.flatMap Subtype.val) prf).1.calls =
      cutAfter (fun c ↦ parseFn c.1 c.2) (numbered 0 (recs.rotate j)) := by
  have hat : WrapAt prf j := hwrap.imp_right And.left
  have hj : j ≤ recs.length := by
    rcases hwrap with ⟨-, rfl⟩ | ⟨-, hlt⟩
    · exact Nat.zero_le _
    · exact hlt.le
  have hpage : j < recs.length ∨ j % N = 0 := by
    rcases hwrap with ⟨-, rfl⟩ | ⟨-, hlt⟩
    · exact .inr (Nat.zero_mod N)
    · exact .inl hlt
  rw [parseTraceFile_eq_feed hio hm hhdr hN hsize hnr hat hj hpage, calls_feed]
  rfl

/-- The record a small trace is made of: only `a0` is not zero. -/
def RbtraceEntry.sample (k : BitVec 64) : RbtraceEntry := { RbtraceEntry.zero with a0 := k }

/-- Three records, two to a page, the wrap position at the second of them, and a
callback that stops at its second call. -/
theorem calls_parseTraceFile_stopped :
    (parseTraceFile .smooth (fun idx _ ↦ idx == 1)
      (List.replicate 512 0 ++ ([0, 1, 2].map fun k ↦
        (RbtraceEntry.sample k).record).flatMap Subtype.val)
      { PaddedRbtraceFheader.zero with
        hdr := { PaddedRbtraceFheader.zero.hdr with nrRecords := 2, wrapPos := 568 } }).1.calls =
      [(0, (RbtraceEntry.sample 1).toBytes), (1, (RbtraceEntry.sample 2).toBytes)] :=
  calls_parseTraceFile (j := 1) _ PrbtIo.smooth_ok.pread PrbtIo.smooth_ok.malloc
    List.length_replicate (by decide) (by decide) rfl (.inr ⟨rfl, by decide⟩)

end Rbtrace
