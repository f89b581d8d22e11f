import Rbtrace.ReadBack

/-!
# The summary and the listing

`print_trace_summary` finds the oldest and the newest record of a file by arithmetic on
the wrap position; `parse_trace_file` finds them by paging through the file.  The two
agree as long as the wrap position is one of a record.  At the end of the file the
reader goes on with the first record (if that is a page boundary), while the summary
tries to read a record there and gives up.
-/

namespace Rbtrace

variable {gmtime : BitVec 64 → Option Tm} {io : PrbtIo} {hdr : List UInt8}
  {recs : List RecordBytes} {prf : PaddedRbtraceFheader} {N j : Nat}

/-- The lines about a first and a last record.  After a first record whose time `gmtime`
rejects, nothing is reported about the last one. -/
def summaryOf (gmtime : BitVec 64 → Option Tm) (prf : PaddedRbtraceFheader)
    (first last : List UInt8) : List SummaryLine :=
  match recordTime gmtime prf first with
  | none => [.invalidFirst first]
  | some gm => .startTime first gm ::
      match recordTime gmtime prf last with
      | none => [.invalidLast last]
      | some gm' => [.endTime last gm']

/-- The records that `parse_trace_file` emits for a callback that never stops. -/
def emitted (io : PrbtIo) (file : List UInt8) (prf : PaddedRbtraceFheader) : List (List UInt8) :=
  (parseTraceFile io (fun _ _ ↦ false) file prf).1.calls.map Prod.snd

/-- The summary is about the first and the last record that the reader emits; about the first
one only, where `gmtime` rejects its time. -/
def SummaryAgrees (gmtime : BitVec 64 → Option Tm) (io : PrbtIo) (file : List UInt8)
    (prf : PaddedRbtraceFheader) : Prop :=
  ∃ first last, (emitted io file prf).head? = some first ∧
    (emitted io file prf).getLast? = some last ∧
    printTraceSummary gmtime io file prf = summaryOf gmtime prf first last

/-! ## Reading one record -/

/-- A record of the file is read where it lies. -/
theorem preadRecord_eq_some (hhdr : hdr.length = RBTRACE_FHEADER_SIZE) {i : Nat}
    (hi : i < recs.length) :
    preadRecord false (hdr ++ recs.flatMap Subtype.val) (RBTRACE_FHEADER_SIZE + sizeofEntry * i) =
      some recs[i].1 := by
  have hrec := @record_at recs [] i hi
  rw [List.append_nil] at hrec
  have hdrop : (hdr ++ recs.flatMap Subtype.val).drop (RBTRACE_FHEADER_SIZE + sizeofEntry * i) =
      (recs.flatMap Subtype.val).drop (sizeofEntry * i) := by
    rw [← hhdr, ← List.drop_drop, List.drop_left]
  simp only [preadRecord, hdrop, hrec, recs[i].2]
  simp

/-- No record is read from the end of the file on. -/
theorem preadRecord_eq_none {fails : Bool} {file : List UInt8} {off : Nat}
    (hoff : file.length ≤ off) : preadRecord fails file off = none := by
  have hdrop : file.drop off = [] := List.drop_eq_nil_of_le hoff
  simp [preadRecord, hdrop, sizeofEntry]

theorem length_file (hhdr : hdr.length = RBTRACE_FHEADER_SIZE) :
    (hdr ++ recs.flatMap Subtype.val).length = RBTRACE_FHEADER_SIZE + sizeofEntry * recs.length := by
  rw [List.length_append, hhdr, Blocks.length_flatMap fun r ↦ r.2]

/-! ## The two ends of a rotation -/

/-- The record before the first one of a rotation is its last one. -/
theorem getLast?_rotate {α : Type*} {l : List α} {j : Nat} (hj : j < l.length) :
    (l.rotate j).getLast? = l[if j = 0 then l.length - 1 else j - 1]? := by
  rw [List.getLast?_eq_getElem?, List.length_rotate, List.getElem?_rotate (by omega)]
  congr 1
  split
  · rename_i h
    rw [h, Nat.add_zero, Nat.mod_eq_of_lt (by omega)]
  · rw [show l.length - 1 + j = j - 1 + l.length by omega, Nat.add_mod_right,
      Nat.mod_eq_of_lt (by omega)]

/-! ## Both computations -/

/-- What the reader emits for a wrap position that is one of a record. -/
theorem emitted_eq_rotate (hio : io.Ok) (hhdr : hdr.length = RBTRACE_FHEADER_SIZE) (hN : 1 ≤ N)
    (hsize : sizeofEntry * N < 2 ^ 64) (hnr : prf.hdr.nrRecords = N) (hwrap : WrapAt prf j)
    (hj : j < recs.length) :
    emitted io (hdr ++ recs.flatMap Subtype.val) prf = (recs.rotate j).map Subtype.val := by
  rw [emitted, parseTraceFile_eq_feed hio.pread hio.malloc hhdr hN hsize hnr hwrap hj.le (.inl hj),
    (feed_of_never .empty (recs.rotate j)).1]
  rfl

/-- What the summary says for a wrap position that is one of a record. -/
theorem printTraceSummary_eq_summaryOf (hio : io.Ok) (hhdr : hdr.length = RBTRACE_FHEADER_SIZE)
    (hwrap : WrapAt prf j) (hj : j < recs.length) {first last : RecordBytes}
    (hfirst : recs[j]? = some first)
    (hlast : recs[if j = 0 then recs.length - 1 else j - 1]? = some last) :
    printTraceSummary gmtime io (hdr ++ recs.flatMap Subtype.val) prf =
      summaryOf gmtime prf first.1 last.1 := by
  have hlen := @length_file hdr recs hhdr
  have hfull : ¬ (hdr ++ recs.flatMap Subtype.val).length < RBTRACE_FHEADER_SIZE + sizeofEntry := by
    have := Nat.mul_le_mul_left sizeofEntry (show 1 ≤ recs.length by omega)
    omega
  have hoff : (if prf.hdr.wrapPos ≠ 0 then prf.hdr.wrapPos else RBTRACE_FHEADER_SIZE) =
      RBTRACE_FHEADER_SIZE + sizeofEntry * j := by
    rcases hwrap with ⟨h, rfl⟩ | h
    · rw [h, if_neg (not_not.2 rfl), Nat.mul_zero, Nat.add_zero]
    · rw [h, if_pos (Nat.ne_of_gt (Nat.add_pos_left (by decide) _))]
  -- the offset of the last record, in either branch
  have hoff' : (if RBTRACE_FHEADER_SIZE + sizeofEntry ≤ RBTRACE_FHEADER_SIZE + sizeofEntry * j then
      RBTRACE_FHEADER_SIZE + sizeofEntry * j - sizeofEntry
      else (hdr ++ recs.flatMap Subtype.val).length - sizeofEntry) =
      RBTRACE_FHEADER_SIZE + sizeofEntry * (if j = 0 then recs.length - 1 else j - 1) := by
    rw [hlen]
    unfold sizeofEntry
    split <;> split <;> omega
  have hread : ∀ {i : Nat} {r : RecordBytes}, recs[i]? = some r →
      preadRecord false (hdr ++ recs.flatMap Subtype.val)
        (RBTRACE_FHEADER_SIZE + sizeofEntry * i) = some r.1 := by
    intro i r hr
    obtain ⟨hi, rfl⟩ := List.getElem?_eq_some_iff.1 hr
    exact preadRecord_eq_some hhdr hi
  cases hgm : recordTime gmtime prf first.1 with
  | none =>
      simp only [printTraceSummary, if_neg hfull, hoff, hio.pread, hread hfirst, summaryOf, hgm]
  | some gm =>
      cases hgm' : recordTime gmtime prf last.1 <;>
        simp only [printTraceSummary, if_neg hfull, hoff, hoff', hio.pread, hread hfirst,
          hread hlast, summaryOf, hgm, hgm']

/-- At the end of the file there is no record for the summary to read. -/
theorem printTraceSummary_atEnd (hhdr : hdr.length = RBTRACE_FHEADER_SIZE) (hne : 1 ≤ recs.length)
    (hwrap : prf.hdr.wrapPos = RBTRACE_FHEADER_SIZE + sizeofEntry * recs.length) :
    printTraceSummary gmtime io (hdr ++ recs.flatMap Subtype.val) prf =
      [.preadFailed prf.hdr.wrapPos] := by
  have hlen := @length_file hdr recs hhdr
  have hfull : ¬ (hdr ++ recs.flatMap Subtype.val).length < RBTRACE_FHEADER_SIZE + sizeofEntry := by
    have := Nat.mul_le_mul_left sizeofEntry hne
    omega
  have hpos : prf.hdr.wrapPos ≠ 0 := by
    rw [hwrap]
    exact Nat.ne_of_gt (Nat.add_pos_left (by decide) _)
  have hread : preadRecord (io.preadFails 0) (hdr ++ recs.flatMap Subtype.val) prf.hdr.wrapPos =
      none := preadRecord_eq_none (hlen.trans hwrap.symm).le
  simp only [printTraceSummary, if_neg hfull, if_pos hpos, hread]

/-- A failed read is no report about two records. -/
theorem summaryOf_ne_preadFailed (first last : List UInt8) (off : Nat) :
    summaryOf gmtime prf first last ≠ [.preadFailed off] := by
  unfold summaryOf
  split <;> simp

/-- **The summary agrees with the listing** exactly when the wrap position is not the
end of the file.  (`malloc` of the page succeeds, and no `pread` fails.) -/
theorem summaryAgrees_iff (hio : io.Ok) (hhdr : hdr.length = RBTRACE_FHEADER_SIZE)
    (hne : 1 ≤ recs.length) (hN : 1 ≤ N) (hsize : sizeofEntry * N < 2 ^ 64)
    (hnr : prf.hdr.nrRecords = N)
    (hwrap : prf.hdr.wrapPos = 0 ∨
      ∃ j ≤ recs.length, prf.hdr.wrapPos = RBTRACE_FHEADER_SIZE + sizeofEntry * j) :
    SummaryAgrees gmtime io (hdr ++ recs.flatMap Subtype.val) prf ↔
      prf.hdr.wrapPos ≠ RBTRACE_FHEADER_SIZE + sizeofEntry * recs.length := by
  constructor
  · rintro ⟨first, last, -, -, h⟩ hend
    rw [printTraceSummary_atEnd hhdr hne hend] at h
    exact summaryOf_ne_preadFailed first last _ h.symm
  · intro hend
    obtain ⟨j, hj, hat⟩ : ∃ j < recs.length, WrapAt prf j := by
      rcases hwrap with h | ⟨j, hle, h⟩
      · exact ⟨0, hne, .inl ⟨h, rfl⟩⟩
      · have hne' : j ≠ recs.length := fun hj ↦ hend (hj ▸ h)
        exact ⟨j, lt_of_le_of_ne hle hne', .inr h⟩
    have hlast : (if j = 0 then recs.length - 1 else j - 1) < recs.length := by
      split <;> omega
    have hfirst? := List.getElem?_eq_getElem hj
    have hlast? := List.getElem?_eq_getElem hlast
    refine ⟨_, _, ?_, ?_, printTraceSummary_eq_summaryOf hio hhdr hat hj hfirst? hlast?⟩
    · rw [emitted_eq_rotate hio hhdr hN hsize hnr hat hj, List.head?_map, List.head?_rotate hj,
        hfirst?]
      rfl
    · rw [emitted_eq_rotate hio hhdr hN hsize hnr hat hj, List.getLast?_map, getLast?_rotate hj,
        hlast?]
      rfl

/-- The header of a file of one record to a page. -/
def onePage (wrapPos : Nat) : PaddedRbtraceFheader :=
  { PaddedRbtraceFheader.zero with
    hdr := { PaddedRbtraceFheader.zero.hdr with nrRecords := 1, wrapPos := wrapPos } }

/-- What `gmtime` makes of second 0, which is the time of every record below. -/
def epoch : Tm := ⟨0, 1, 0, 0, 0, 0, [71, 77, 84]⟩

/-- Two records, the wrap position at the second: the summary goes from that one to the
first. -/
theorem summaryAgrees_two :
    SummaryAgrees (fun _ ↦ some epoch) .smooth ((onePage 568).toBytes ++
      ([0, 1].map fun k ↦ (RbtraceEntry.sample k).record).flatMap Subtype.val) (onePage 568) :=
  (summaryAgrees_iff PrbtIo.smooth_ok (onePage 568).length_toBytes (by decide) le_rfl (by decide)
    rfl (.inr ⟨1, by decide, rfl⟩)).2 (by decide)

/-- One record, the wrap position behind it, where the last pass of a wrapped file may
leave it: the reader emits the record, the summary reports none. -/
theorem not_summaryAgrees_atEnd :
    listing .smooth (traceFile (onePage 568) [RbtraceEntry.sample 1]) = [RbtraceEntry.sample 1] ∧
      ¬ SummaryAgrees (fun _ ↦ some epoch) .smooth
        ((onePage 568).toBytes ++ [(RbtraceEntry.sample 1).record].flatMap Subtype.val)
        (onePage 568) := by
  constructor
  · exact listing_traceFile (j := 1) PrbtIo.smooth_ok (by decide) (by decide) (.inr rfl) (by decide)
      (by decide) (.inr rfl)
  · rintro ⟨first, last, -, -, h⟩
    rw [printTraceSummary_atEnd (onePage 568).length_toBytes (by decide) rfl] at h
    exact summaryOf_ne_preadFailed first last _ h.symm

end Rbtrace
