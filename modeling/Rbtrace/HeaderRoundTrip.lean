import Mathlib.Logic.Relation
import Rbtrace.HeaderParse
import Rbtrace.Writer

/-!
# From `rbtrace_format_header` to `parse_trace_header`

The daemon formats a header when it opens a file, and afterwards `rbtrace_write_data`
changes one field of it, `wrap_pos`, and writes all of it again.  Whatever it has been
changed to, `prbt` accepts the header and gets back what was put in (`header_roundTrip`):
the three strings lie one behind the other, each behind the NUL of the one before.
-/

namespace Rbtrace

/-! ## Updates in place -/

/-- A call of `rbtrace_write_data` that stays with its file turns one header in memory into
another. -/
def Rewrites (cfg : RingConfig) (prf prf' : PaddedRbtraceFheader) : Prop :=
  ∃ io doFlush s t, rbtraceWriteData cfg io doFlush s = some t ∧
    s.ri.riFlags.doZap = false ∧ s.hdr = prf ∧ t.hdr = prf'

section

variable {cfg : RingConfig}

theorem withWrapPos_self (prf : PaddedRbtraceFheader) : prf.withWrapPos prf.hdr.wrapPos = prf := rfl

theorem writeBuffer_frame (outs : List PwriteOutcome) (off n : Nat) (s : Sys) :
    (writeBuffer outs off n s).1.hdr = s.hdr ∧ (writeBuffer outs off n s).1.ri = s.ri := by
  unfold writeBuffer
  dsimp only
  split <;> exact ⟨rfl, rfl⟩

/-- Without zapping the limit changes nothing of the header but the wrap position. -/
theorem limitReached_hdr {io : DataIo} {s : Sys} (hz : s.ri.riFlags.doZap = false) (upd : Bool) :
    ∃ w, (limitReached cfg io s upd).1.hdr = s.hdr.withWrapPos w := by
  unfold limitReached
  split_ifs with _ _ _ h
  · exact ⟨_, withWrapPos_self _⟩
  · exact ⟨RBTRACE_FHEADER_SIZE, rfl⟩
  · exact absurd h (Bool.eq_false_iff.1 hz)
  · exact ⟨_, withWrapPos_self _⟩
  · exact ⟨_, withWrapPos_self _⟩

/-- **One field is updated.** -/
theorem hdr_of_rbtraceWriteData {io : DataIo} {doFlush : Bool} {s t : Sys}
    (hz : s.ri.riFlags.doZap = false) (h : rbtraceWriteData cfg io doFlush s = some t) :
    ∃ w, t.hdr = s.hdr.withWrapPos w := by
  obtain ⟨off, n, hbuf⟩ : ∃ off n, selectBuffer cfg doFlush s = (off, n) := ⟨_, _, rfl⟩
  have hseek : ∃ w, (wrapSeek s.ri.riFlags.doWrap (n * sizeofEntry) s).1.hdr =
      s.hdr.withWrapPos w := by
    unfold wrapSeek
    split
    · exact ⟨_, rfl⟩
    · exact ⟨_, withWrapPos_self _⟩
  obtain ⟨w, hseek⟩ := hseek
  have hshm := wrapSeek_toShm s.ri.riFlags.doWrap (n * sizeofEntry) s
  set s₁ := wrapSeek s.ri.riFlags.doWrap (n * sizeofEntry) s
  obtain ⟨hhdr, hri⟩ := writeBuffer_frame io.data off n s₁.1
  have hupd : ∀ (u : Sys) (b : Bool), (updateHeader io.update b u).hdr = u.hdr := by
    intro u b
    unfold updateHeader
    split <;> rfl
  simp only [rbtraceWriteData, hbuf] at h
  split_ifs at h
  · cases h
    have hz' : (writeBuffer io.data off n s₁.1).1.ri.riFlags.doZap = false := by
      rw [hri, hshm]
      exact hz
    obtain ⟨w', hlim⟩ := limitReached_hdr hz' s₁.2
    rw [(takeCounters_frame ..).2.1, hupd, hlim, hhdr, hseek]
    exact ⟨w', rfl⟩
  · cases h
    rw [(takeCounters_frame ..).2.1, hhdr, hseek]
    exact ⟨w, rfl⟩

/-- However often the header is updated, it differs from the first one in the wrap
position only. -/
theorem eq_withWrapPos_of_rewrites {prf prf' : PaddedRbtraceFheader}
    (h : Relation.ReflTransGen (Rewrites cfg) prf prf') : ∃ w, prf' = prf.withWrapPos w := by
  induction h with
  | refl => exact ⟨_, (withWrapPos_self prf).symm⟩
  | tail _ hstep ih =>
      obtain ⟨w, rfl⟩ := ih
      obtain ⟨io, doFlush, s, t, hw, hz, hs, rfl⟩ := hstep
      obtain ⟨w', ht⟩ := hdr_of_rbtraceWriteData hz hw
      rw [ht, hs]
      exact ⟨w', rfl⟩

end

/-! ## Reading back -/

section

variable {cfg : RingConfig} {gm : Tm} (ts : Timespec) (w : Nat)

/-- The strings fit into the header, NULs included. -/
def StringsFit (cfg : RingConfig) (gm : Tm) : Prop :=
  gm.tmZone.length + cfg.rcName.length + cfg.rcDesc.length + 3 ≤
    RBTRACE_FHEADER_SIZE - sizeofFheader

/-- The header, with its wrap position updated, is the struct, the three strings, and
zeros. -/
theorem toBytes_withWrapPos (hfit : StringsFit cfg gm) :
    ∃ rest, ((rbtraceFormatHeader cfg ts gm).withWrapPos w).toBytes =
      ((rbtraceFormatHeader cfg ts gm).withWrapPos w).hdr.toBytes ++
        (gm.tmZone ++ 0 :: (cfg.rcName ++ 0 :: (cfg.rcDesc ++ 0 :: rest))) := by
  have hlen : (rbtraceFormatHeader cfg ts gm).strings.length ≤
      RBTRACE_FHEADER_SIZE - sizeofFheader := by
    unfold StringsFit at hfit
    simp only [rbtraceFormatHeader, List.length_append, List.length_singleton]
    omega
  obtain ⟨k, hk⟩ := Nat.exists_eq_add_of_le hlen
  have hpad : (rbtraceFormatHeader cfg ts gm).strings.takeD
      (RBTRACE_FHEADER_SIZE - sizeofFheader) 0 =
      (rbtraceFormatHeader cfg ts gm).strings ++ List.replicate k 0 := by
    have h := List.takeD_append 0 (rbtraceFormatHeader cfg ts gm).strings [] k
    rwa [List.append_nil, List.takeD_nil, ← hk] at h
  refine ⟨List.replicate k 0, ?_⟩
  calc ((rbtraceFormatHeader cfg ts gm).withWrapPos w).toBytes
      = ((rbtraceFormatHeader cfg ts gm).withWrapPos w).hdr.toBytes ++
          (rbtraceFormatHeader cfg ts gm).strings.takeD (RBTRACE_FHEADER_SIZE - sizeofFheader) 0 :=
        rfl
    _ = _ := by
        rw [hpad]
        simp [rbtraceFormatHeader]

/-- The strings are found where the header says they are. -/
theorem read_strings (hzone : 0 ∉ gm.tmZone) (hname : 0 ∉ cfg.rcName) (hdesc : 0 ∉ cfg.rcDesc)
    (hfit : StringsFit cfg gm) :
    CString.read ((rbtraceFormatHeader cfg ts gm).withWrapPos w).toBytes
        (rbtraceFormatHeader cfg ts gm).hdr.tzOff = some gm.tmZone ∧
      CString.read ((rbtraceFormatHeader cfg ts gm).withWrapPos w).toBytes
        (rbtraceFormatHeader cfg ts gm).hdr.nameOff = some cfg.rcName ∧
      CString.read ((rbtraceFormatHeader cfg ts gm).withWrapPos w).toBytes
        (rbtraceFormatHeader cfg ts gm).hdr.descOff = some cfg.rcDesc := by
  obtain ⟨rest, hbytes⟩ := toBytes_withWrapPos ts w hfit
  rw [hbytes]
  set h := ((rbtraceFormatHeader cfg ts gm).withWrapPos w).hdr.toBytes with hh
  have hlen : h.length = sizeofFheader := RbtraceFheader.length_toBytes _
  refine ⟨?_, ?_, ?_⟩
  · have hread := CString.read_append hzone h (cfg.rcName ++ 0 :: (cfg.rcDesc ++ 0 :: rest))
    rwa [hlen] at hread
  · have hoff : (h ++ gm.tmZone ++ [0]).length = (rbtraceFormatHeader cfg ts gm).hdr.nameOff := by
      rw [List.length_append, List.length_append, hlen]
      rfl
    have hread := CString.read_append hname (h ++ gm.tmZone ++ [0]) (cfg.rcDesc ++ 0 :: rest)
    rw [hoff] at hread
    simpa using hread
  · have hoff : (h ++ gm.tmZone ++ [0] ++ cfg.rcName ++ [0]).length =
        (rbtraceFormatHeader cfg ts gm).hdr.descOff := by
      rw [List.length_append, List.length_append, List.length_append, List.length_append, hlen]
      rfl
    have hread := CString.read_append hdesc (h ++ gm.tmZone ++ [0] ++ cfg.rcName ++ [0]) rest
    rw [hoff] at hread
    simpa using hread

/-- The struct is read back as it was written, the magic with its NUL. -/
theorem readHeader_withWrapPos (hfit : StringsFit cfg gm) (hsize : cfg.rcSize < 2 ^ 32)
    (body : List UInt8) :
    (readHeader (((rbtraceFormatHeader cfg ts gm).withWrapPos w).toBytes ++ body)).hdr =
      { (rbtraceFormatHeader cfg ts gm).hdr with
        magic := RBTRACE_FHEADER_MAGIC ++ [0]
        wrapPos := w % 2 ^ 64 } := by
  have htake : (((rbtraceFormatHeader cfg ts gm).withWrapPos w).toBytes ++ body).take
      RBTRACE_FHEADER_SIZE = ((rbtraceFormatHeader cfg ts gm).withWrapPos w).toBytes ++ [] := by
    rw [List.take_left' (PaddedRbtraceFheader.length_toBytes _), List.append_nil]
  unfold StringsFit RBTRACE_FHEADER_SIZE sizeofFheader at hfit
  have hnr : cfg.rcSize % 2 ^ 64 = cfg.rcSize := Nat.mod_eq_of_lt (by omega)
  have hn : (sizeofFheader + gm.tmZone.length + 1) % 2 ^ 32 = sizeofFheader + gm.tmZone.length + 1 :=
    Nat.mod_eq_of_lt (by unfold sizeofFheader; omega)
  have hd : (sizeofFheader + gm.tmZone.length + 1 + cfg.rcName.length + 1) % 2 ^ 32 =
      sizeofFheader + gm.tmZone.length + 1 + cfg.rcName.length + 1 :=
    Nat.mod_eq_of_lt (by unfold sizeofFheader; omega)
  rw [readHeader, htake, PaddedRbtraceFheader.ofBytes_hdr, RbtraceFheader.ofBytes_append]
  simp only [PaddedRbtraceFheader.withWrapPos, rbtraceFormatHeader, hnr, hn, hd]
  rfl

/-- The header is a valid one, at any wrap position and with any strings that fit. -/
theorem validHeader_withWrapPos (hfit : StringsFit cfg gm) (hsize : cfg.rcSize < 2 ^ 32)
    {gmtime : BitVec 64 → Option Tm} {gm' : Tm} (htime : gmtime (ts.tvSec + gm.tmGmtoff) = some gm')
    (body : List UInt8) :
    ValidHeader gmtime (((rbtraceFormatHeader cfg ts gm).withWrapPos w).toBytes ++ body) := by
  have hhdr := readHeader_withWrapPos ts w hfit hsize body
  constructor
  · rw [List.length_append, PaddedRbtraceFheader.length_toBytes]
    exact Nat.le_add_right _ _
  · rw [← readHeader_magic, hhdr]
  · rw [hhdr]
    exact le_rfl
  · rw [hhdr]
    exact Option.isSome_iff_exists.2 ⟨gm', htime⟩

/-- **The header comes back.**  Let the strings be C strings that fit, and let `gmtime` be
able to represent the local time of the header.  Then `prbt` accepts the header, however
often its wrap position has been updated and whatever follows it in the file; it prints the
zone, the name and the description that were put in, and finds the time, the offset, the
number of records and the current wrap position in it. -/
theorem header_roundTrip (cfg : RingConfig) (ts : Timespec) (gm : Tm)
    (hzone : 0 ∉ gm.tmZone) (hname : 0 ∉ cfg.rcName) (hdesc : 0 ∉ cfg.rcDesc)
    (hfit : StringsFit cfg gm) (hsize : cfg.rcSize < 2 ^ 32) {prf : PaddedRbtraceFheader}
    (hprf : Relation.ReflTransGen (Rewrites cfg) (rbtraceFormatHeader cfg ts gm) prf)
    (gmtime : BitVec 64 → Option Tm) {gm' : Tm}
    (htime : gmtime (ts.tvSec + gm.tmGmtoff) = some gm') (errno : Int) (body : List UInt8) :
    parseTraceHeader ⟨errno, none, gmtime⟩ (prf.toBytes ++ body) =
      (0, .revision RBTRACE_MAJOR RBTRACE_MINOR ::
        .openAt gm' (ts.tvNsec.toInt.tdiv 1000) (some gm.tmZone) ::
        (if prf.hdr.wrapPos % 2 ^ 64 ≠ 0 then [.wrapPosition (prf.hdr.wrapPos % 2 ^ 64)] else []) ++
          [.ringName (some cfg.rcName), .ringDesc (some cfg.rcDesc)]) ∧
    (readHeader (prf.toBytes ++ body)).hdr.timestamp = ts ∧
    (readHeader (prf.toBytes ++ body)).hdr.gmtoff = gm.tmGmtoff ∧
    (readHeader (prf.toBytes ++ body)).hdr.nrRecords = cfg.rcSize ∧
    (readHeader (prf.toBytes ++ body)).hdr.wrapPos = prf.hdr.wrapPos % 2 ^ 64 := by
  obtain ⟨w, rfl⟩ := eq_withWrapPos_of_rewrites hprf
  have hhdr := readHeader_withWrapPos ts w hfit hsize body
  obtain ⟨gm₁, hgm₁, hlines⟩ :=
    (validHeader_withWrapPos ts w hfit hsize htime body).parseTraceHeader errno
  obtain rfl : gm' = gm₁ := by
    rw [hhdr] at hgm₁
    exact Option.some.inj (htime.symm.trans hgm₁)
  obtain ⟨hz, hn, hd⟩ := read_strings ts w hzone hname hdesc hfit
  set prf := (rbtraceFormatHeader cfg ts gm).withWrapPos w with hprf'
  have htake : (prf.toBytes ++ body).take RBTRACE_FHEADER_SIZE = prf.toBytes :=
    List.take_left' prf.length_toBytes
  constructor
  · rw [hlines, htake]
    simp only [hhdr, hz, hn, hd]
    rfl
  · rw [hhdr]
    exact ⟨rfl, rfl, rfl, rfl⟩

end

/-- A file just opened in wrap mode, with a limit that the first buffer reaches. -/
def wrapAtOnce (ts : Timespec) (gm : Tm) : Sys :=
  { rbtraceDaemonInit oneRing fun _ ↦ none with
    ri := { (rbtraceInitTraceInfo oneRing 0).1 with riFlags := { doWrap := true } }
    fsize := 1
    rfd := ⟨some [97], RBTRACE_FHEADER_SIZE⟩
    hdr := rbtraceFormatHeader oneRing ts gm }

/-- The header of such a file, in UTC, before and after the write that sets its wrap
position. -/
theorem header_roundTrip_wrapped :
    Rewrites oneRing (rbtraceFormatHeader oneRing ⟨5, 7000⟩ ⟨0, 1, 0, 0, 0, 0, [85, 84, 67]⟩)
      ((rbtraceFormatHeader oneRing ⟨5, 7000⟩ ⟨0, 1, 0, 0, 0, 0, [85, 84, 67]⟩).withWrapPos 512) ∧
    parseTraceHeader ⟨0, none, fun sec ↦ some ⟨0, 1, 0, 0, sec.toNat, 0, [71, 77, 84]⟩⟩
      (((rbtraceFormatHeader oneRing ⟨5, 7000⟩ ⟨0, 1, 0, 0, 0, 0, [85, 84, 67]⟩).withWrapPos
        512).toBytes ++ []) =
      (0, [.revision 1 0, .openAt ⟨0, 1, 0, 0, 5, 0, [71, 77, 84]⟩ 7 (some [85, 84, 67]),
        .wrapPosition 512, .ringName (some oneRing.rcName), .ringDesc (some oneRing.rcDesc)]) := by
  set gm : Tm := ⟨0, 1, 0, 0, 0, 0, [85, 84, 67]⟩
  have hstep : Rewrites oneRing (rbtraceFormatHeader oneRing ⟨5, 7000⟩ gm)
      ((rbtraceFormatHeader oneRing ⟨5, 7000⟩ gm).withWrapPos 512) :=
    ⟨.smooth, false, wrapAtOnce ⟨5, 7000⟩ gm, _, rfl, rfl, rfl, rfl⟩
  have hfit : StringsFit oneRing gm := by
    show 3 + 2 + 11 + 3 ≤ 512 - 80
    decide
  refine ⟨hstep, ?_⟩
  exact (header_roundTrip oneRing ⟨5, 7000⟩ gm (by decide) (by decide) (by decide) hfit
    (by decide) (.single hstep) _ rfl 0 []).1

end Rbtrace
