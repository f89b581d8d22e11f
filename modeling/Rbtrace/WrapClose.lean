import Rbtrace.Wrap

/-!
# Closing a wrapped trace

The closing pass writes the pending buffer and then what the active one holds, and does
not reset the wrap position at the limit.  So the last, partial write may extend the
file past its last place, with the wrap position at the new end.  The reader then takes
it for an invalid position unless the end happens to be a page boundary, and lists
nothing at all.  `wrap_close_iff` says exactly when that happens.
-/

namespace Rbtrace

section

variable {cfg : ValidRingConfig} {path : CStr} {limit k : Nat} {s t : Sys}
  {bufs : List (List RbtraceEntry)} {es : List RbtraceEntry} {i : Nat} {wrapped : Bool}

/-- A file that is being closed: it holds `es`, the next write goes to record `i`, and
`wrapped` says whether the header has a wrap position (which then is that place). -/
structure ClosingFile (cfg : ValidRingConfig) (path : CStr) (s : Sys) (es : List RbtraceEntry)
    (i : Nat) (wrapped : Bool) : Prop where
  fd : s.rfd.fd = some path
  file : s.disk path = some (traceFile s.hdr es)
  nrRecords : s.hdr.hdr.nrRecords = cfg.rcSize
  wrapPos : s.hdr.hdr.wrapPos = if wrapped then RBTRACE_FHEADER_SIZE + sizeofEntry * i else 0
  seek : wrapped = false → s.rfd.seek = RBTRACE_FHEADER_SIZE + sizeofEntry * i
  le : i ≤ es.length
  end_of : wrapped = false → i = es.length

theorem ClosingFile.writePos (h : ClosingFile cfg path s es i wrapped)
    (hw : s.ri.riFlags.doWrap = true) :
    s.writePos = RBTRACE_FHEADER_SIZE + sizeofEntry * i := by
  have hwp := h.wrapPos
  unfold Sys.writePos
  cases wrapped with
  | false => rw [if_neg (fun hn ↦ hn.1 hwp), h.seek rfl]
  | true =>
      rw [if_pos rfl] at hwp
      rw [if_pos ⟨by rw [hwp, RBTRACE_FHEADER_SIZE]; omega, hw⟩, hwp]

/-- The file of a session, when its close comes. -/
theorem WrapFile.closing (h : WrapFile cfg path k s bufs es) (hk : 0 < k) :
    ClosingFile cfg path s es (bufs.length % k * cfg.rcSize) (k ≤ bufs.length) := by
  have hend : decide (k ≤ bufs.length) = false → bufs.length % k * cfg.rcSize = es.length := by
    intro hlt
    have hlt : bufs.length < k := Nat.not_le.1 (of_decide_eq_false hlt)
    rw [h.log.length_eq, Nat.mod_eq_of_lt hlt, Nat.min_eq_left hlt.le]
  refine ⟨h.fd, h.file, h.nrRecords, ?_, fun hlt ↦ ?_, h.log.next_le hk, hend⟩
  · rw [h.wrapPos]
    by_cases hlt : bufs.length < k
    · rw [if_pos hlt, if_neg (by simpa using hlt)]
    · rw [if_neg hlt, if_pos (by simpa using hlt)]
  · rw [h.seek (Nat.not_le.1 (of_decide_eq_false hlt)), hend hlt]

/-- **A write while the close is pending** does not reset the wrap position. -/
theorem ClosingFile.write {io : DataIo} {doFlush : Bool} {off n : Nat}
    (h : ClosingFile cfg path s es i wrapped) (hio : io.Ok) (hw : s.ri.riFlags.doWrap = true)
    (hc : s.ri.riFlags.doClose = true) (hbuf : selectBuffer cfg doFlush s = (off, n)) :
    let s' := s.afterWrite path off n (es.splice .zero i (bufRecords s.reBase off n))
    rbtraceWriteData cfg io doFlush s = some (takeCounters cfg io s') ∧
      ∀ t : Sys, t.rfd = s'.rfd → t.hdr = s'.hdr → t.disk = s'.disk →
        ClosingFile cfg path t (es.splice .zero i (bufRecords s.reBase off n)) (i + n) wrapped := by
  have hpos := h.writePos hw
  have hnext : s.nextWrapPos n =
      if wrapped then RBTRACE_FHEADER_SIZE + sizeofEntry * (i + n) else 0 := by
    simp only [Sys.nextWrapPos, hc, Bool.true_eq_false, and_false, if_false, hw, and_true]
    cases wrapped with
    | false =>
        have hwp : s.hdr.hdr.wrapPos = 0 := h.wrapPos
        rw [if_neg (not_not.2 hwp), hwp, if_neg Bool.false_ne_true]
    | true =>
        have hwp : s.hdr.hdr.wrapPos = RBTRACE_FHEADER_SIZE + sizeofEntry * i := h.wrapPos
        rw [if_pos (by rw [hwp, RBTRACE_FHEADER_SIZE]; omega), hwp, if_pos rfl]
        ring
  refine ⟨rbtraceWriteData_of_ok hio h.fd h.file hbuf hpos h.le fun _ ↦ .inl hc,
    fun t hrfd hhdr hdisk ↦ ⟨?_, ?_, ?_, ?_, fun hf ↦ ?_, ?_, fun hf ↦ ?_⟩⟩
  · rw [hrfd]
    rfl
  · rw [hdisk, hhdr]
    exact Function.update_self _ _ _
  · rw [hhdr]
    exact h.nrRecords
  · rw [hhdr]
    exact hnext
  · rw [hrfd]
    change s.writePos + n * sizeofEntry = _
    rw [hpos]
    ring
  · rw [List.length_splice, length_bufRecords]
    omega
  · rw [List.length_splice, length_bufRecords, h.end_of hf]
    omega

/-! ## The closing pass -/

/-- The number of records the closing pass finds in the active buffer: with a report of
discarded buffers among them, if there is one to make. -/
def flushedRecords (cfg : RingConfig) (s : Sys) : Nat :=
  if s.ri.riFlush ≤ 1 then (s.ri.riSlot + 1).toNat
  else if s.ri.riSlot + 1 < cfg.rcSize then (s.ri.riSlot + 2).toNat
  else 1

/-- What is left of the ring after the first write of the closing pass. -/
theorem takeCounters_slot {io : DataIo} (hN : 0 < cfg.rcSize) (h : RingOk cfg 0 s.toShm) :
    (takeCounters cfg io s).ri.riFlush ≤ 1 ∧
      ((takeCounters cfg io s).ri.riSlot + 1).toNat = flushedRecords cfg s := by
  have hge := h.slot_ge
  unfold flushedRecords
  by_cases hf : s.ri.riFlush ≤ 1
  · rw [takeCounters_of_le io hf h.lost_eq, if_pos hf]
    exact ⟨show (0 : Int) ≤ 1 by decide, rfl⟩
  · rw [if_neg hf]
    have h' : RingOk cfg 0 { s.toShm with ri := { s.ri with riLost := 0, riFlush := 0 } } :=
      ⟨h.slot_ge, h.slot_lt, rfl, by simp, by simp, h.buffers⟩
    have ht : (takeCounters cfg io s).toShm =
        (rbtrace cfg io.stamps { s.toShm with ri := { s.ri with riLost := 0, riFlush := 0 } }
          (lostArgs (lossAmount cfg s.ri.riLost s.ri.riFlush))).1 := by
      unfold takeCounters
      dsimp only
      rw [if_pos (.inl (not_le.1 hf))]
    rw [ht]
    obtain ⟨hs, he⟩ | ⟨hs, hz, he⟩ | ⟨hs, hz, he⟩ := rbtrace_cases h' hN
      cfg.rcSize_lt_int io.stamps (lostArgs (lossAmount cfg s.ri.riLost s.ri.riFlush))
    · rw [he, if_pos hs]
      refine ⟨show (0 : Int) ≤ 1 by decide, ?_⟩
      change (s.ri.riSlot + 1 + 1).toNat = (s.ri.riSlot + 2).toNat
      omega
    · rw [he, if_neg hs.not_lt]
      exact ⟨le_rfl, rfl⟩
    · exact absurd rfl hz

/-- What the closing pass first writes. -/
def pendingRecords (cfg : RingConfig) (s : Sys) : List RbtraceEntry :=
  if s.ri.riFlush ≠ 0 then s.altRecords cfg else []

/-- The first write of the closing pass. -/
theorem ClosingFile.flushInactive {io : DataIo} (hN : 0 < cfg.rcSize)
    (h : ClosingFile cfg path s es i wrapped) (hm : WrapMode cfg limit s) (hio : io.Ok)
    (hc : s.ri.riFlags.doClose = true) :
    ∃ u, flushInactive cfg io s = some u ∧ WrapMode cfg limit u ∧ u.ri.riFlags = s.ri.riFlags ∧
      ClosingFile cfg path u (es.splice .zero i (pendingRecords cfg s))
        (i + (pendingRecords cfg s).length) wrapped ∧
      u.ri.riFlush ≤ 1 ∧ (u.ri.riSlot + 1).toNat = flushedRecords cfg s := by
  by_cases hz : s.ri.riFlush = 0
  · have hp : pendingRecords cfg s = [] := if_neg (not_not.2 hz)
    have hs : es.splice .zero i [] = es := by
      rw [List.splice_of_le _ h.le]
      simp
    refine ⟨s, if_neg (not_not.2 hz), hm, rfl, ?_, by omega, ?_⟩
    · rwa [hp, hs, List.length_nil, Nat.add_zero]
    · rw [flushedRecords, if_pos (by omega)]
  · have hp : pendingRecords cfg s = bufRecords s.reBase s.ri.riAltOff cfg.rcSize := if_pos hz
    obtain ⟨hwrite, hfile⟩ := h.write hio hm.doWrap hc (selectBuffer_inactive cfg s)
    obtain ⟨hrfd, hhdr, hdisk, hfsize⟩ := takeCounters_frame cfg io (s.afterWrite path
      s.ri.riAltOff cfg.rcSize (es.splice .zero i (bufRecords s.reBase s.ri.riAltOff cfg.rcSize)))
    have hring : RingOk cfg 0 (s.afterWrite path s.ri.riAltOff cfg.rcSize
        (es.splice .zero i (bufRecords s.reBase s.ri.riAltOff cfg.rcSize))).toShm :=
      hm.ring.of_ringWords rfl
    have hflags := congrArg Ctl.flags (takeCounters_ctl cfg io (s.afterWrite path
      s.ri.riAltOff cfg.rcSize (es.splice .zero i (bufRecords s.reBase s.ri.riAltOff cfg.rcSize))))
    have hslot := @takeCounters_slot cfg _ io hN hring
    refine ⟨_, (if_pos hz).trans hwrite, ⟨?_, ?_, ?_, ?_⟩, hflags, ?_, hslot⟩
    · exact hring.takeCounters hN cfg.rcSize_lt_int io
    · have hflags : FlagsOk ⟨s.ri.riFlags, some path⟩ := by
        rw [← h.fd]
        exact hm.flags
      rw [takeCounters_ctl]
      exact hflags
    · exact (congrArg RiFlags.doWrap hflags).trans hm.doWrap
    · exact (congrArg BitVec.toNat hfsize).trans hm.fsize_eq
    · rw [hp, length_bufRecords]
      exact hfile _ hrfd hhdr hdisk

/-- The second write of the closing pass. -/
theorem ClosingFile.flushActive {io : DataIo} (h : ClosingFile cfg path s es i wrapped)
    (hm : WrapMode cfg limit s) (hio : io.Ok) (hc : s.ri.riFlags.doClose = true) :
    ∃ v, flushActive cfg io s = some v ∧
      ClosingFile cfg path v (es.splice .zero i s.activeRecords) (i + s.activeRecords.length)
        wrapped := by
  have hf : s.ri.riFlags.doFlush = true := hm.flags.flush_eq.trans hc
  obtain ⟨hwrite, hfile⟩ := h.write hio hm.doWrap hc (selectBuffer_active hm.ring)
  obtain ⟨hrfd, hhdr, hdisk, -⟩ := takeCounters_frame cfg io (s.afterWrite path s.ri.riCirOff
    (s.ri.riSlot + 1).toNat (es.splice .zero i s.activeRecords))
  refine ⟨_, (if_pos hf).trans (congrArg (Option.map _) hwrite), ?_⟩
  have hlen : s.activeRecords.length = (s.ri.riSlot + 1).toNat := length_bufRecords _ _ _
  rw [hlen]
  exact hfile _ hrfd hhdr hdisk

/-- **The closing pass**: where its two writes go, and what they are. -/
theorem ClosingFile.close {io : PassIo} (hN : 0 < cfg.rcSize)
    (h : ClosingFile cfg path s es i wrapped) (hm : WrapMode cfg limit s) (hio : io.Ok)
    (hc : s.ri.riFlags.doClose = true) :
    ∃ t v act, rbtraceThreadFn cfg io s = some t ∧ t.disk = v.disk ∧
      act.length = flushedRecords cfg s ∧
      (writes cfg s (.pass io)).flatten = pendingRecords cfg s ++ act ∧
      ClosingFile cfg path v
        ((es.splice .zero i (pendingRecords cfg s)).splice .zero
          (i + (pendingRecords cfg s).length) act)
        (i + (pendingRecords cfg s).length + act.length) wrapped := by
  obtain ⟨u, hu, hmu, huf, hfile, -, hslot⟩ := h.flushInactive hN hm hio.inactive hc
  have hcu : u.ri.riFlags.doClose = true := huf ▸ hc
  have hfu : u.ri.riFlags.doFlush = true := hmu.flags.flush_eq.trans hcu
  obtain ⟨v, hv, hfile'⟩ := hfile.flushActive hmu hio.active hcu
  obtain ⟨t, ht, hdisk⟩ := rbtraceThreadFn_close hc hu hv
  refine ⟨t, v, u.activeRecords, ht, hdisk, ?_, ?_, hfile'⟩
  · rw [Shm.activeRecords, length_bufRecords, hslot]
  · have hfd : s.rfd.fd ≠ none := by rw [h.fd]; exact Option.some_ne_none _
    have hfdu : u.rfd.fd ≠ none := by rw [hfile.fd]; exact Option.some_ne_none _
    have hin : dataWritten cfg io.inactive false s = [s.altRecords cfg] := by
      rw [dataWritten, if_pos ⟨hfd, getsThrough_of_noError hio.inactive.data _⟩,
        selectBuffer_inactive]
      rfl
    have hact : dataWritten cfg io.active true u = [u.activeRecords] := by
      rw [dataWritten, if_pos ⟨hfdu, getsThrough_of_noError hio.active.data _⟩,
        selectBuffer_active hmu.ring]
      rfl
    simp only [writes, hc, true_or, if_true, hu, hfu, hin, hact, pendingRecords]
    split <;> simp

/-! ## What is left to read -/

/-- A closed file whose wrap position is not past its end. -/
theorem ClosingFile.listing {pio : PrbtIo} (h : ClosingFile cfg path s es i wrapped)
    (hN : 0 < cfg.rcSize) (hpio : pio.Ok) (hoff : (traceFile s.hdr es).length < 2 ^ 63) :
    listing pio (traceFile s.hdr es) =
      if wrapped then
        if i = es.length ∧ i % cfg.rcSize ≠ 0 then [] else es.rotate i
      else es := by
  have hle := h.le
  rw [length_traceFile] at hoff
  have hsize : sizeofEntry * s.hdr.hdr.nrRecords < 2 ^ 64 :=
    cfg.pageSize_lt h.nrRecords
  have hnr := h.nrRecords
  cases wrapped with
  | false =>
      have hwp : s.hdr.hdr.wrapPos = 0 := h.wrapPos
      rw [if_neg Bool.false_ne_true, listing_traceFile hpio (hnr ▸ hN) hsize (.inl ⟨hwp, rfl⟩)
        (hwp ▸ by decide) (Nat.zero_le _) (.inr (Nat.zero_mod _)), List.rotate_zero]
  | true =>
      have hwp : s.hdr.hdr.wrapPos = RBTRACE_FHEADER_SIZE + sizeofEntry * i := h.wrapPos
      have hlt : s.hdr.hdr.wrapPos < 2 ^ 64 := by
        have := Nat.mul_le_mul_left sizeofEntry hle
        omega
      rw [if_pos rfl]
      split
      · rename_i hbad
        obtain ⟨hend, hpage⟩ := hbad
        rw [hend] at hwp hpage
        exact listing_traceFile_invalid hpio (hnr ▸ hN) hsize (.inr hwp) hlt (hnr ▸ hpage)
      · rename_i hgood
        refine listing_traceFile hpio (hnr ▸ hN) hsize (.inr hwp) hlt hle ?_
        rw [hnr]
        by_contra hno
        rw [not_or] at hno
        exact hgood ⟨by omega, hno.2⟩

/-- The records a reader is shown of a closed file. -/
def shown (N : Nat) (wrapped : Bool) (es : List RbtraceEntry) (i : Nat) : List RbtraceEntry :=
  if wrapped then if i = es.length ∧ i % N ≠ 0 then [] else es.rotate i else es

/-- What was asked of it: a suffix of all that was written, and not too short a one. -/
def KeepsWindow (k N : Nat) (all shown : List RbtraceEntry) : Prop :=
  shown <:+ all ∧ min all.length (k * N) ≤ shown.length

/-- While the file has not wrapped, everything is shown. -/
private theorem keepsWindow_of_lt {N : Nat} {p act : List RbtraceEntry}
    (h : List.BlockLog k N bufs es) (hlt : bufs.length < k) :
    KeepsWindow k N (bufs.flatten ++ p ++ act) (shown N (k ≤ bufs.length)
      ((es.splice .zero (bufs.length % k * N) p).splice .zero
        (bufs.length % k * N + p.length) act) (bufs.length % k * N + p.length + act.length)) := by
  have hi : bufs.length % k * N = es.length := by
    rw [h.length_eq, Nat.mod_eq_of_lt hlt, Nat.min_eq_left hlt.le]
  have hes : (es.splice .zero (bufs.length % k * N) p).splice .zero
      (bufs.length % k * N + p.length) act = bufs.flatten ++ p ++ act := by
    rw [hi, List.splice_length, ← List.length_append, List.splice_length, h.eq_flatten hlt]
  rw [shown, if_neg (by simpa using hlt), hes]
  exact ⟨List.suffix_rfl, Nat.min_le_left _ _⟩

/-- A write that fits keeps the window. -/
private theorem keepsWindow_of_fits {N : Nat} {all act : List RbtraceEntry} {j : Nat}
    (hlen : es.length = k * N) (hfit : j + act.length ≤ es.length)
    (hs : es.rotate j <:+ all) :
    KeepsWindow k N (all ++ act) (shown N true (es.splice .zero j act) (j + act.length)) := by
  have hlen' : (es.splice .zero j act).length = k * N := by
    rw [List.length_splice, Nat.max_eq_left hfit, hlen]
  have hgood : ¬ (j + act.length = (es.splice .zero j act).length ∧ (j + act.length) % N ≠ 0) := by
    rintro ⟨hend, hpage⟩
    rw [hend, hlen', Nat.mul_mod_left] at hpage
    exact hpage rfl
  rw [shown, if_pos rfl, if_neg hgood]
  refine ⟨List.rotate_splice_suffix _ hfit hs, ?_⟩
  rw [List.length_rotate, hlen']
  exact Nat.min_le_right _ _

/-- A write that extends a full file keeps the window exactly if it is a whole buffer. -/
private theorem keepsWindow_extend_iff {N : Nat} {all act : List RbtraceEntry} (hk : 0 < k)
    (hN : 0 < N) (hlen : es.length = k * N) (hpos : 0 < act.length) (hle : act.length ≤ N)
    (hs : es <:+ all) :
    KeepsWindow k N (all ++ act) (shown N true (es ++ act) (es.length + act.length)) ↔
      act.length = N := by
  have hmod : (es.length + act.length) % N = act.length % N := by
    rw [hlen, Nat.mul_add_mod_self_right]
  rw [shown, if_pos rfl, List.length_append, hmod]
  constructor
  · intro h
    by_contra hne
    rw [if_pos ⟨rfl, by rw [Nat.mod_eq_of_lt (by omega)]; omega⟩] at h
    have hmin := h.2
    rw [List.length_append, List.length_nil, Nat.le_zero] at hmin
    have := Nat.mul_pos hk hN
    omega
  · intro hfull
    rw [if_neg (fun h ↦ h.2 (by rw [hfull, Nat.mod_self])), ← List.length_append,
      List.rotate_length]
    obtain ⟨l, rfl⟩ := hs
    refine ⟨⟨l, by rw [List.append_assoc]⟩, ?_⟩
    have hl : (es ++ act).length = k * N + act.length := by rw [List.length_append, hlen]
    rw [hl]
    exact (Nat.min_le_right _ _).trans (Nat.le_add_right _ _)

/-- **When closing keeps the window**, in terms of what the two last writes are. -/
theorem keepsWindow_iff {N : Nat} {p act : List RbtraceEntry} (hk : 0 < k) (hN : 0 < N)
    (h : List.BlockLog k N bufs es) (hp : p = [] ∨ p.length = N) (hact : act.length ≤ N) :
    KeepsWindow k N (bufs.flatten ++ p ++ act) (shown N (k ≤ bufs.length)
      ((es.splice .zero (bufs.length % k * N) p).splice .zero
        (bufs.length % k * N + p.length) act)
      (bufs.length % k * N + p.length + act.length)) ↔
    ¬ (k ≤ bufs.length ∧ p ≠ [] ∧ (bufs.length + 1) % k = 0 ∧ 0 < act.length ∧
      act.length < N) := by
  rcases Nat.lt_or_ge bufs.length k with hlt | hge
  · exact iff_of_true (keepsWindow_of_lt h hlt) fun hbad ↦ absurd hbad.1 (by omega)
  · have hlen : es.length = k * N := by rw [h.length_eq, Nat.min_eq_right hge]
    have hmod := List.BlockLog.succ_mod_eq hk bufs.length
    have hmlt := Nat.mod_lt bufs.length hk
    have hplace : bufs.length % k * N + N ≤ k * N := by
      rw [← Nat.succ_mul]
      exact Nat.mul_le_mul_right N hmlt
    have hple : p.length ≤ N := by
      rcases hp with rfl | hp
      · exact Nat.zero_le N
      · exact hp.le
    have hsuffix : es.rotate (bufs.length % k * N) <:+ bufs.flatten := by
      rw [h.rotate_eq]
      refine ⟨(bufs.take (bufs.length - k)).flatten, ?_⟩
      rw [← List.flatten_append, List.take_append_drop]
    -- the first write always falls on a place of the file
    have hs₁ := List.rotate_splice_suffix .zero (b := p) (by omega) hsuffix
    have hlen₁ : (es.splice .zero (bufs.length % k * N) p).length = k * N := by
      rw [List.length_splice, hlen, Nat.max_eq_left (by omega)]
    rw [decide_eq_true hge]
    by_cases hfit : bufs.length % k * N + p.length + act.length ≤ k * N
    · refine iff_of_true (keepsWindow_of_fits hlen₁ (hlen₁ ▸ hfit) hs₁) ?_
      rintro ⟨-, hpne, hlast, hpos, -⟩
      have hpN := hp.resolve_left hpne
      rw [hmod] at hlast
      split at hlast
      · rename_i hend
        rw [hpN, ← Nat.succ_mul, Nat.succ_eq_add_one, hend] at hfit
        omega
      · omega
    · -- the second write starts at the end of the file
      have hpN : p.length = N := by
        rcases hp with rfl | hp
        · rw [List.length_nil] at hfit
          omega
        · exact hp
      have hlast : bufs.length % k + 1 = k := by
        by_contra hne
        have : (bufs.length % k + 2) * N ≤ k * N := Nat.mul_le_mul_right N (by omega)
        have hexp : (bufs.length % k + 2) * N = bufs.length % k * N + N + N := by ring
        omega
      have hj : bufs.length % k * N + p.length = k * N := by
        rw [hpN, ← Nat.succ_mul, Nat.succ_eq_add_one, hlast]
      have hpos : 0 < act.length := by omega
      have hpne : p ≠ [] := fun hnil ↦ by
        rw [hnil, List.length_nil] at hpN
        omega
      rw [hj] at hs₁ ⊢
      rw [← hlen₁, List.rotate_length] at hs₁
      have hext : (es.splice .zero (bufs.length % k * N) p).splice .zero (k * N) act =
          es.splice .zero (bufs.length % k * N) p ++ act := by
        rw [← hlen₁, List.splice_length]
      rw [hext, ← hlen₁, keepsWindow_extend_iff hk hN hlen₁ hpos hact hs₁]
      have hzero : (bufs.length + 1) % k = 0 := by rw [hmod, if_pos hlast]
      constructor
      · rintro hfull ⟨-, -, -, -, hlt⟩
        omega
      · intro hgood
        by_contra hne
        exact hgood ⟨hge, hpne, hzero, hpos, by omega⟩

theorem flushedRecords_le (hN : 0 < cfg.rcSize) (h : RingOk cfg 0 s.toShm) :
    flushedRecords cfg s ≤ cfg.rcSize := by
  have hlt := h.slot_lt
  unfold flushedRecords
  split_ifs <;> omega

theorem pendingRecords_cases (cfg : RingConfig) (s : Sys) :
    pendingRecords cfg s = [] ∨ (pendingRecords cfg s).length = cfg.rcSize := by
  unfold pendingRecords
  split
  · exact .inr (length_bufRecords _ _ _)
  · exact .inl rfl

theorem pendingRecords_ne_nil_iff (hN : 0 < cfg.rcSize) :
    pendingRecords cfg s ≠ [] ↔ s.ri.riFlush ≠ 0 := by
  unfold pendingRecords
  split <;> rename_i hz
  · refine iff_of_true (fun hnil ↦ ?_) hz
    have hlen := congrArg List.length hnil
    rw [Shm.altRecords, length_bufRecords, List.length_nil] at hlen
    omega
  · exact iff_of_false (not_not.2 rfl) hz

end

/-- **Closing a wrapped trace.**  After `m` buffers have been written by normal passes,
the closing pass leaves a file from which a suffix of everything written can be read,
and at least `k` buffers of it if so much was written, unless the file has wrapped, a
buffer is pending, that buffer goes to the last place of the file, and the active buffer
is neither empty nor full.  (`pwrite` fails beyond the range of `off_t`.) -/
theorem wrap_close_iff (cfg : ValidRingConfig) (hN : 1 ≤ cfg.rcSize) {disk : Disk}
    {pre evs : List Event} {last : PassIo} {path : CStr} {s₀ s : Sys} {k : Nat}
    (h₀ : (system cfg).run (rbtraceDaemonInit cfg disk) pre = some s₀)
    (hnew : s₀.disk path = none) (hwrap : s₀.ri.riFlags.doWrap = true)
    (hopen : (rbtraceCtrl (.open (some path)) s₀.toShm).2 = 0)
    (hrun : (system cfg).run s₀ (.ctrl (.open (some path)) :: evs) = some s)
    (hkeep : (system cfg).Guarded (KeepsMode cfg) s₀ (.ctrl (.open (some path)) :: evs))
    (hnormal : (system cfg).Guarded NotClosing s₀ (.ctrl (.open (some path)) :: evs))
    (hio : ∀ e ∈ .pass last :: evs, e.IoOk)
    (hmade : s.disk path ≠ none) (hclosing : s.ri.riFlags.doClose = true)
    (hk : IsLeast { k | 1 ≤ k ∧ s₀.fsize.toNat ≤ 512 + k * cfg.rcSize * 56 } k)
    {pio : PrbtIo} (hpio : pio.Ok) :
    let m := ((system cfg).collect (writes cfg) s₀ (.ctrl (.open (some path)) :: evs)).length
    let all := ((system cfg).collect (writes cfg) s₀
      (.ctrl (.open (some path)) :: evs ++ [.pass last])).flatten
    ∃ t file, (system cfg).step s (.pass last) = some t ∧ t.disk path = some file ∧
      (file.length < 2 ^ 63 →
        ((listing pio file <:+ all ∧
          min all.length (k * cfg.rcSize) ≤ (listing pio file).length) ↔
        ¬ (k ≤ m ∧ s.ri.riFlush ≠ 0 ∧ (m + 1) % k = 0 ∧ 0 < flushedRecords cfg s ∧
          flushedRecords cfg s < cfg.rcSize))) := by
  obtain ⟨hring, hf⟩ := ok_of_run hN h₀
  obtain ⟨s₁, hs₁, hrun'⟩ := (system cfg).run_cons_eq_some.1 hrun
  have hg : (system cfg).Guarded (WrapStep cfg) s₁ evs :=
    ((hkeep.tail hs₁).and (hnormal.tail hs₁)).and_forall
      fun e he ↦ hio e (List.mem_cons_of_mem _ he)
  have hs : WrapSession cfg path s₀.fsize.toNat k s₁ [] := by
    cases hs₁
    exact wrapSession_of_open hring hf hwrap hnew hopen
  have hbufs : (system cfg).collect (writes cfg) s₀ (.ctrl (.open (some path)) :: evs) =
      [] ++ (system cfg).collect (writes cfg) s₁ evs := Machine.collect_cons _ hs₁
  obtain ⟨hm, ⟨-, hnone, -⟩ | ⟨es, h⟩⟩ := hs.run hN hk hg hrun'
  · exact absurd hnone hmade
  · rw [← hbufs] at h
    obtain ⟨t, v, act, ht, hdisk, hlen, hwrites, hclosed⟩ := (h.closing hk.1.1).close hN hm
      (hio (.pass last) List.mem_cons_self) hclosing
    refine ⟨t, _, ht, by rw [hdisk, hclosed.file], fun hoff ↦ ?_⟩
    have hall : ((system cfg).collect (writes cfg) s₀
        (.ctrl (.open (some path)) :: evs ++ [.pass last])).flatten =
        ((system cfg).collect (writes cfg) s₀ (.ctrl (.open (some path)) :: evs)).flatten ++
          pendingRecords cfg s ++ act := by
      rw [Machine.collect_append _ hrun, Machine.collect_cons [] ht, Machine.collect_nil,
        List.append_nil, List.flatten_append, hwrites, List.append_assoc]
    rw [hall, hclosed.listing hN hpio hoff, ← hlen, ← pendingRecords_ne_nil_iff hN]
    exact keepsWindow_iff hk.1.1 hN h.log (pendingRecords_cases cfg s)
      (hlen ▸ flushedRecords_le hN hm.ring)

theorem wrap_close_three : ∃ s t file,
    (system (ioRing 1 (by decide))).run wrapOfTwo
      (.ctrl (.open (some [47])) :: (threeBuffers ++ [.ctrl .close])) = some s ∧
    (system (ioRing 1 (by decide))).step s (.pass .smooth) = some t ∧ t.disk [47] = some file ∧
    min 4 2 ≤ (listing .smooth file).length := by
  have hsome : ((system (ioRing 1 (by decide))).run wrapOfTwo
      (.ctrl (.open (some [47])) :: (threeBuffers ++ [.ctrl .close]))).isSome := by decide
  obtain ⟨s, hrun⟩ := Option.isSome_iff_exists.1 hsome
  have hstate : ((system (ioRing 1 (by decide))).run wrapOfTwo
      (.ctrl (.open (some [47])) :: (threeBuffers ++ [.ctrl .close]))).map
      (fun s ↦ ((s.disk [47]).isSome, s.ri.riFlags.doClose, s.ri.riFlush)) =
      some (true, true, 0) := by decide
  have hlen : (((system (ioRing 1 (by decide))).run wrapOfTwo
      (.ctrl (.open (some [47])) :: (threeBuffers ++ [.ctrl .close]))).bind
      fun s ↦ (system (ioRing 1 (by decide))).step s (.pass .smooth)).bind
      (fun t ↦ (t.disk [47]).map List.length) = some 624 := by decide +kernel
  rw [hrun] at hstate hlen
  obtain ⟨hmade, hclosing, hflush⟩ : (s.disk [47]).isSome = true ∧ s.ri.riFlags.doClose = true ∧
      s.ri.riFlush = 0 := by simpa using hstate
  have h₀ : (system (ioRing 1 (by decide))).run
      (rbtraceDaemonInit (ioRing 1 (by decide)) fun _ ↦ none)
      [.ctrl (.wrap (some true)), .ctrl (.size (some 624))] = some wrapOfTwo := rfl
  have hk : IsLeast { k | 1 ≤ k ∧ 624 ≤ 512 + k * 1 * 56 } 2 :=
    ⟨⟨by decide, by decide⟩, fun k hk ↦ by have := hk.2; omega⟩
  have hio : ∀ e ∈ .pass .smooth :: (threeBuffers ++ [.ctrl .close]), e.IoOk := by
    simp [threeBuffers, Event.IoOk, Event.trace, PassIo.smooth_ok]
  obtain ⟨t, file, ht, hfile, hiff⟩ := wrap_close_iff (ioRing 1 (by decide)) (by decide) h₀ rfl rfl
    (by decide) hrun (by decide) (by decide) hio (Option.isSome_iff_ne_none.1 hmade) hclosing hk
    PrbtIo.smooth_ok
  rw [Option.bind_some, ht, Option.bind_some, hfile, Option.map_some] at hlen
  have hall := ((hiff (by rw [Option.some.inj hlen]; decide)).2 fun hbad ↦ hbad.2.1 hflush).2
  exact ⟨s, t, file, hrun, ht, hfile, hall⟩

/-- The daemon of a ring of two records, in wrap mode with a limit of one buffer. -/
def wrapOfOne : Sys :=
  { rbtraceDaemonInit (ioRing 2 two_mul_sizeofEntry_lt) fun _ ↦ none with
    ri := { (rbtraceInitTraceInfo (ioRing 2 two_mul_sizeofEntry_lt) 0).1 with
      riFlags := { doWrap := true } }
    fsize := 1 }

/-- One buffer written, one pending and one record in the active buffer. -/
def pendingAtClose : List Event :=
  [.pass .smooth, .trace 2, .trace 3, .trace 4, .pass .smooth, .trace 5, .trace 6, .ctrl .close]

/-- Closing then makes the file unreadable, though five records were written to it and
the file holds at least one buffer of two. -/
theorem pendingAtClose_unreadable :
    (system (ioRing 2 (by decide))).run
      (rbtraceDaemonInit (ioRing 2 (by decide)) fun _ ↦ none)
      [.ctrl (.wrap (some true)), .ctrl (.size (some 1))] = some wrapOfOne ∧
    IsLeast { k | 1 ≤ k ∧ wrapOfOne.fsize.toNat ≤ 512 + k * 2 * 56 } 1 ∧
    ((system (ioRing 2 (by decide))).collect (writes (ioRing 2 (by decide))) wrapOfOne
      (.ctrl (.open (some [47])) :: pendingAtClose ++ [.pass .smooth])).flatten.map
        RbtraceEntry.traceid = [2, 3, 4, 5, 6] ∧
    ((system (ioRing 2 (by decide))).run wrapOfOne
      (.ctrl (.open (some [47])) :: pendingAtClose ++ [.pass .smooth])).map
        (fun s ↦ (s.disk [47]).map fun file ↦ (listing .smooth file).length) = some (some 0) := by
  refine ⟨rfl, ⟨⟨by decide, by decide⟩, fun k hk ↦ hk.1⟩, by decide, ?_⟩
  decide +kernel

end Rbtrace
