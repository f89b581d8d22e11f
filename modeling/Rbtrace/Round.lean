import Rbtrace.BenchRun
import Rbtrace.Lines
import Rbtrace.LossReports
import Rbtrace.RbtRun

/-!
# A round of the tests

`autotest.sh` opens a new file with `rbt -o … -w on -s 32`, lets the benchmark run, has the file
closed with `rbt -c`, prints it with `prbt` and counts the lines about records of the benchmark.
The round passes if there are as many of them as the benchmark has traced.

Below the limit wrap mode does nothing, so that the file holds the records in the order in which
they were stored.  What can go wrong is that the daemon does not keep up and a full buffer is
discarded, and a round passes exactly if that does not happen (`round_passes_iff`).  The reports
of what was discarded are not counted, and they cannot bring the file to its limit.
-/

namespace Rbtrace

open CInt DoubleBuffer Getopt

/-! ## The states of a round -/

/-- The kinds of records whose lines are counted. -/
def RbtraceEntry.counts (re : RbtraceEntry) : Bool := re.traceid.toNat = 0 ∨ re.traceid.toNat = 2

/-- What holds throughout a round: the ring is that of the log. -/
structure Underway (cfg : ValidRingConfig) (limit : Nat) (s : Sys)
    (l : Logged RbtraceEntry) : Prop where
  ring : RingOk cfg 0 s.toShm
  flags : FlagsOk s.ctl
  noZap : s.ri.riFlags.doZap = false
  fsize_eq : s.fsize.toNat = limit
  flush_nonneg : 0 ≤ s.ri.riFlush
  view : l.buffers = s.view cfg

/-- The file has been asked for, and the daemon has not got to it. -/
structure OpenAsked (cfg : ValidRingConfig) (path : CStr) (limit : Nat) (s : Sys)
    (l : Logged RbtraceEntry) : Prop extends Underway cfg limit s l where
  doOpen : s.ri.riFlags.doOpen = true
  doClose : s.ri.riFlags.doClose = false
  path_eq : s.ri.riFilePath = path
  new : s.disk path = none
  written : l.written = []

/-- The file is open and holds what the log says to be written. -/
structure Filling (cfg : ValidRingConfig) (path : CStr) (limit : Nat) (s : Sys)
    (l : Logged RbtraceEntry) : Prop extends Underway cfg limit s l where
  doOpen : s.ri.riFlags.doOpen = false
  fd : s.rfd.fd = some path
  file : s.disk path = some (traceFile s.hdr l.written)
  wrapPos : s.hdr.hdr.wrapPos = 0
  nrRecords : s.hdr.hdr.nrRecords = cfg.rcSize
  seek : s.rfd.seek = RBTRACE_FHEADER_SIZE + sizeofEntry * l.written.length

/-- A round between its two commands, and until the file is closed. -/
def InRound (cfg : ValidRingConfig) (path : CStr) (limit : Nat) (s : Sys)
    (l : Logged RbtraceEntry) : Prop :=
  OpenAsked cfg path limit s l ∨ Filling cfg path limit s l

section

variable {cfg : ValidRingConfig} {path : CStr} {limit n : Nat} {s t : Sys} {l : Logged RbtraceEntry}

theorem InRound.underway (h : InRound cfg path limit s l) : Underway cfg limit s l := by
  rcases h with h | h
  · exact h.toUnderway
  · exact h.toUnderway

/-! ## Calls -/

/-- A call puts a record into the log. -/
theorem Underway.call (h : Underway cfg limit s l) (hN : 0 < cfg.rcSize)
    (hover : l.buffers.overruns + 2 < 2 ^ 31) (st : Nat → Stamp) (a : TraceArgs) :
    Underway cfg limit { s with toShm := (rbtrace cfg st s.toShm a).1 }
      (l.put cfg.rcSize (entryOf a (st 0))) := by
  have hlt : cfg.rcSize < 2 ^ 31 := cfg.rcSize_lt_int
  have hflags := rbtrace_riFlags cfg st s.toShm a
  have hnn := h.flush_nonneg
  have hsmall : s.ri.riFlush + 1 < 2 ^ 31 := by
    have hview : l.buffers.overruns =
        (s.ri.riFlush - 1).toNat := congrArg DoubleBuffer.overruns h.view
    omega
  refine ⟨(h.ring.rbtrace hN hlt st a).1, ?_, (congrArg RiFlags.doZap hflags).trans h.noZap, ?_,
    ?_, ?_⟩
  · exact @FlagsOk.step cfg s _ (.call st a) h.flags rfl
  · exact (congrArg BitVec.toNat (rbtrace_fsize cfg st s.toShm a)).trans h.fsize_eq
  · show 0 ≤ (rbtrace cfg st s.toShm a).1.ri.riFlush
    obtain ⟨-, he⟩ | ⟨-, -, he⟩ | ⟨-, -, he⟩ := rbtrace_cases h.ring hN hlt st a
    · rw [he]
      exact hnn
    · rw [he]
      exact Int.one_nonneg
    · rw [he]
      show 0 ≤ i32 (s.ri.riFlush + 1)
      rw [i32_of_range (by omega) hsmall]
      omega
  · show l.buffers.push cfg.rcSize _ = _
    rw [h.view]
    exact (view_rbtrace h.ring hN hlt hnn (.inr hsmall) st a).symm

/-- **A call in a round.** -/
theorem InRound.call (h : InRound cfg path limit s l) (hN : 0 < cfg.rcSize)
    (hover : l.buffers.overruns + 2 < 2 ^ 31) (st : Nat → Stamp) (a : TraceArgs) :
    InRound cfg path limit { s with toShm := (rbtrace cfg st s.toShm a).1 }
      (l.put cfg.rcSize (entryOf a (st 0))) := by
  have hflags := rbtrace_riFlags cfg st s.toShm a
  rcases h with h | h
  · refine .inl ⟨h.toUnderway.call hN hover st a, ?_, ?_, ?_, h.new, h.written⟩
    · exact (congrArg RiFlags.doOpen hflags).trans h.doOpen
    · exact (congrArg RiFlags.doClose hflags).trans h.doClose
    · exact (rbtrace_riFilePath cfg st s.toShm a).trans h.path_eq
  · refine .inr ⟨h.toUnderway.call hN hover st a, ?_, h.fd, h.file, h.wrapPos, h.nrRecords, h.seek⟩
    exact (congrArg RiFlags.doOpen hflags).trans h.doOpen

/-! ## Passes -/

/-- Without a wrap position the next write goes to the end. -/
theorem Filling.writePos (h : Filling cfg path limit s l) :
    s.writePos = RBTRACE_FHEADER_SIZE + sizeofEntry * l.written.length := by
  rw [Sys.writePos, if_neg fun hw ↦ hw.1 h.wrapPos, h.seek]

/-- Below the limit, or at the close, there will be no wrap position either. -/
theorem Filling.nextWrapPos (h : Filling cfg path limit s l) (n : Nat)
    (hlimit : limit ≤ s.writePos + n * sizeofEntry → s.ri.riFlags.doClose = true) :
    s.nextWrapPos n = 0 := by
  rw [Sys.nextWrapPos, if_neg, if_neg fun hw ↦ hw.1 h.wrapPos, h.wrapPos]
  rintro ⟨hl, hc, -⟩
  exact Bool.false_ne_true (hc.symm.trans (hlimit (h.fsize_eq ▸ hl)))

/-- A write of `n` records behind those that are there. -/
theorem Filling.rbtraceWriteData {io : DataIo} {doFlush : Bool} {off n : Nat}
    (h : Filling cfg path limit s l) (hio : io.Ok) (hbuf : selectBuffer cfg doFlush s = (off, n))
    (hlimit : limit ≤ s.writePos + n * sizeofEntry → s.ri.riFlags.doClose = true) :
    ∃ t, rbtraceWriteData cfg io doFlush s = some t ∧ t.ri.riFlags = s.ri.riFlags ∧
      t.fsize = s.fsize ∧ t.rfd = ⟨some path, s.writePos + n * sizeofEntry⟩ ∧
      t.hdr = s.hdr.withWrapPos 0 ∧
      t.disk path = some (traceFile t.hdr (l.written ++ bufRecords s.reBase off n)) := by
  have hwrite := rbtraceWriteData_of_ok hio h.fd h.file hbuf h.writePos le_rfl
    fun hl ↦ .inl (hlimit (h.fsize_eq ▸ hl))
  rw [List.splice_length] at hwrite
  obtain ⟨hrfd, hhdr, hdisk, hfsize⟩ := takeCounters_frame cfg io
    (s.afterWrite path off n (l.written ++ bufRecords s.reBase off n))
  have hnext := h.nextWrapPos n hlimit
  refine ⟨_, hwrite, congrArg Ctl.flags (takeCounters_ctl cfg io _), hfsize, hrfd, ?_, ?_⟩
  · rw [hhdr, Sys.afterWrite, hnext]
  · rw [hdisk, hhdr]
    exact Function.update_self _ _ _

/-- **Writing the inactive buffer** is the daemon's turn. -/
theorem Filling.flushInactive {io : DataIo} (h : Filling cfg path limit s l) (hN : 0 < cfg.rcSize)
    (hio : io.Ok)
    (hlimit : limit ≤ RBTRACE_FHEADER_SIZE +
        sizeofEntry * (l.written ++ l.buffers.stored).length →
      s.ri.riFlags.doClose = true) :
    ∃ t l', flushInactive cfg io s = some t ∧ Filling cfg path limit t l' ∧
      l.Turn cfg.rcSize RbtraceEntry.counts l' ∧ t.ri.riFlags = s.ri.riFlags ∧
      (l.buffers.overruns = 0 → t.ri.riFlush = 0) := by
  by_cases hz : s.ri.riFlush = 0
  · exact ⟨s, l, if_neg (not_not.2 hz), h, .idle, rfl, fun _ ↦ hz⟩
  have hpending : l.buffers.pending = some (s.altRecords cfg) := by
    rw [h.view]
    exact if_neg hz
  have hover : l.buffers.overruns =
      (s.ri.riFlush - 1).toNat := congrArg DoubleBuffer.overruns h.view
  have hlen : (l.written ++ s.altRecords cfg).length ≤ (l.written ++ l.buffers.stored).length := by
    rw [stored, hpending, Option.getD_some, ← List.append_assoc]
    exact (List.prefix_append _ _).length_le
  rw [List.length_append, Shm.altRecords, length_bufRecords] at hlen
  obtain ⟨t, ht, hflags, hfsize, hrfd, hhdr, hfile⟩ := h.rbtraceWriteData hio
    (selectBuffer_inactive cfg s) fun hl ↦ hlimit (by
      rw [h.writePos] at hl
      have hmul := Nat.mul_le_mul_left sizeofEntry hlen
      rw [Nat.mul_add, Nat.mul_comm sizeofEntry cfg.rcSize] at hmul
      omega)
  obtain ⟨hflush, hview⟩ := view_rbtraceWriteData hN h.ring hio.data ht
  have hctl : t.ctl = s.ctl := by
    rw [Sys.ctl, hflags, hrfd, Sys.ctl, h.fd]
  have hfilling : ∀ l' : Logged RbtraceEntry, l'.written = l.written ++ s.altRecords cfg →
      l'.buffers = t.view cfg → Filling cfg path limit t l' := by
    intro l' hwritten hbuffers
    refine ⟨⟨h.ring.rbtraceWriteData hN cfg.rcSize_lt_int ht, hctl ▸ h.flags, ?_, ?_, ?_, hbuffers⟩,
      ?_, ?_, ?_, ?_, ?_, ?_⟩
    · exact (congrArg RiFlags.doZap hflags).trans h.noZap
    · exact (congrArg BitVec.toNat hfsize).trans h.fsize_eq
    · omega
    · exact (congrArg RiFlags.doOpen hflags).trans h.doOpen
    · rw [hrfd]
    · rw [hfile, hwritten]
      rfl
    · rw [hhdr]
      rfl
    · rw [hhdr]
      exact h.nrRecords
    · rw [hrfd, hwritten, h.writePos, List.length_append, Shm.altRecords, length_bufRecords]
      ring
  have hflushed : l.flush.written = l.written ++ s.altRecords cfg := by
    rw [Logged.flush, hpending]
    rfl
  unfold Rbtrace.flushInactive
  rw [if_pos hz]
  by_cases hdue : 1 < s.ri.riFlush ∨ s.ri.riLost ≠ 0
  · -- a report is made
    rw [lossReport, if_pos hdue] at hview
    have hlost : 1 < s.ri.riFlush := hdue.resolve_right (not_not.2 h.ring.lost_eq)
    obtain ⟨e, he⟩ : ∃ e, e = entryOf (lostArgs (lossAmount cfg s.ri.riLost s.ri.riFlush))
        (io.stamps 0) :=
      ⟨_, rfl⟩
    have hcounts : e.counts = false := by
      rw [he]
      rfl
    refine ⟨t, l.flush.put cfg.rcSize e, ht, hfilling _ hflushed ?_, .report e hcounts (by omega),
      hflags, fun hnone ↦ absurd hnone (by omega)⟩
    rw [hview, ← h.view, he]
    rfl
  · rw [lossReport, if_neg hdue] at hview
    refine ⟨t, _, ht, hfilling l.flush hflushed ?_, .flush, hflags, fun _ ↦ ?_⟩
    · rw [hview, ← h.view]
      rfl
    · by_contra hne
      have hpend : (t.view cfg).pending = some (t.altRecords cfg) := if_neg hne
      rw [hview] at hpend
      cases hpend

/-- **The closing pass**: another turn, and then the active buffer goes to the file. -/
theorem Filling.close {io : PassIo} (h : Filling cfg path limit s l) (hN : 0 < cfg.rcSize)
    (hio : io.Ok) (hc : s.ri.riFlags.doClose = true) :
    ∃ t prf l', rbtraceThreadFn cfg io s = some t ∧
      t.disk path = some (traceFile prf (l'.written ++ l'.buffers.active)) ∧
      prf.hdr.wrapPos = 0 ∧ prf.hdr.nrRecords = cfg.rcSize ∧
      l.Turn cfg.rcSize RbtraceEntry.counts l' ∧
      (l.buffers.overruns = 0 → l'.buffers.pending = none) := by
  obtain ⟨u, l', hu, hfill, hturn, hflags, hnone⟩ := h.flushInactive hN hio.inactive fun _ ↦ hc
  have hcu : u.ri.riFlags.doClose = true := (congrArg RiFlags.doClose hflags).trans hc
  obtain ⟨v, hv, -, -, -, hhdr, hfile⟩ := hfill.rbtraceWriteData hio.active
    (selectBuffer_active hfill.ring) fun _ ↦ hcu
  have hflush : u.ri.riFlags.doFlush = true := hfill.flags.flush_eq.trans hcu
  have hactive : Rbtrace.flushActive cfg io.active u =
      some (v.mapFlags fun f ↦ { f with doFlush := false }) := by
    rw [flushActive, if_pos hflush, hv, Option.map_some]
  obtain ⟨t, ht, hdisk⟩ := rbtraceThreadFn_close hc hu hactive
  refine ⟨t, v.hdr, l', ht, ?_, ?_, ?_, hturn, fun hover ↦ ?_⟩
  · rw [hdisk, hfill.view]
    exact hfile
  · rw [hhdr]
    rfl
  · rw [hhdr]
    exact hfill.nrRecords
  · rw [hfill.view]
    exact if_pos (hnone hover)

/-- **A pass in a round** that is not the closing one. -/
theorem InRound.pass {io : PassIo} (h : InRound cfg path limit s l) (hN : 0 < cfg.rcSize)
    (hio : io.Ok)
    (hc : s.ri.riFlags.doClose = false)
    (hsize : RBTRACE_FHEADER_SIZE + sizeofEntry * (l.written ++ l.buffers.stored).length < limit) :
    ∃ t l', rbtraceThreadFn cfg io s = some t ∧ InRound cfg path limit t l' ∧
      l.Turn cfg.rcSize RbtraceEntry.counts l' := by
  rcases h with h | h
  · have hopen := @rbtraceThreadFn_open cfg s path io hio h.flags h.noZap hc h.doOpen
      h.path_eq h.new
    have hflags : FlagsOk ⟨{ s.ri.riFlags with doDisk := true, doOpen := false }, some path⟩ :=
      ⟨h.flags.flush_eq, fun _ ↦ hc, by simp, h.flags.zap_of_wrap, fun _ ↦ .inl rfl⟩
    refine ⟨_, l, hopen, .inr
      ⟨⟨h.ring.of_ringWords rfl, hflags, h.noZap, h.fsize_eq, h.flush_nonneg,
      h.view⟩, rfl, rfl, ?_, rfl, rfl, ?_⟩, .idle⟩
    · rw [h.written]
      exact Function.update_self _ _ _
    · rw [h.written]
      rfl
  · have hdisk : s.ri.riFlags.doDisk = true :=
      h.flags.doDisk_of_fd (h.fd.trans_ne (Option.some_ne_none _)) hc
    obtain ⟨t, l', ht, hfill, hturn, hflags, -⟩ := h.flushInactive hN hio.inactive
      fun hl ↦ absurd hsize (not_lt.2 hl)
    have hnf : ¬ t.ri.riFlags.doFlush = true := by
      rw [hflags, show s.ri.riFlags.doFlush = s.ri.riFlags.doClose from h.flags.flush_eq, hc]
      exact Bool.false_ne_true
    refine ⟨t, l', ?_, .inr hfill, hturn⟩
    rw [rbtraceThreadFn, if_neg (Bool.eq_false_iff.1 hc), if_neg (Bool.eq_false_iff.1 h.doOpen),
      if_pos hdisk, ht, Option.bind_some, flushActive, if_neg hnf]

/-! ## Whole rounds -/

/-- The call of `rbtrace` that a step is. -/
def Event.traced : Event → List TraceArgs
  | .call _ a => [a]
  | _ => []

/-- What a step discards. -/
def dropped (cfg : RingConfig) (s : Sys) : Event → List RbtraceEntry
  | .call _ _ => (s.view cfg).discards cfg.rcSize
  | _ => []

/-- A call whose record is to be counted. -/
def Event.Counts : Event → Prop
  | .call st a => (entryOf a (st 0)).counts
  | _ => True

/-- Calls and passes ask for no close. -/
theorem doClose_of_work {es : List Event} (hes : ∀ e ∈ es, e.IsWork) (hf : FlagsOk s.ctl)
    (hc : s.ri.riFlags.doClose = false) (hrun : (system cfg).run s es = some t) :
    t.ri.riFlags.doClose = false := by
  have hinv : FlagsOk t.ctl ∧ t.ri.riFlags.doClose = false := by
    refine (((system cfg).guarded_true s es).and_forall hes).invariant
      (P := fun u ↦ FlagsOk u.ctl ∧ u.ri.riFlags.doClose = false) ?_ ⟨hf, hc⟩ hrun
    rintro u e v ⟨hf, hc⟩ ⟨-, hwork⟩ hstep
    refine ⟨hf.step hstep, ?_⟩
    cases e with
    | call st a =>
        cases hstep
        exact (congrArg RiFlags.doClose (rbtrace_riFlags cfg st u.toShm a)).trans hc
    | pass io => exact doClose_of_rbtraceThreadFn hf hstep
    | ctrl op => exact absurd hwork id
  exact hinv.2

/-- **A round goes on**, up to the closing pass. -/
theorem InRound.run {es : List Event} (hN : 0 < cfg.rcSize)
    (hes : ∀ e ∈ es, e.IsWork ∧ e.IoOk ∧ e.Counts) (hrun : (system cfg).run s es = some t)
    (h : InRound cfg path limit s l) (hl : l.Tallied RbtraceEntry.counts n)
    (hc : s.ri.riFlags.doClose = false ∨ t.ri.riFlags.doClose = true)
    (hlimit : RBTRACE_FHEADER_SIZE + sizeofEntry * (n + (es.flatMap Event.traced).length) < limit)
    (hsmall : n + (es.flatMap Event.traced).length + 2 < 2 ^ 31) :
    ∃ l', InRound cfg path limit t l' ∧
      l'.Tallied RbtraceEntry.counts (n + (es.flatMap Event.traced).length) ∧
      l'.discarded = l.discarded ++ (system cfg).collect (dropped cfg) s es := by
  induction es generalizing s l n with
  | nil =>
      obtain rfl : s = t := Option.some.inj hrun
      exact ⟨l, h, hl, (List.append_nil _).symm⟩
  | cons e es ih =>
      obtain ⟨hwork, hio, hcounts⟩ := hes e List.mem_cons_self
      have hrest : ∀ e ∈ es, e.IsWork ∧ e.IoOk ∧ e.Counts := fun e he ↦
        hes e (List.mem_cons_of_mem _ he)
      obtain ⟨u, hu, hrun'⟩ := (system cfg).run_cons_eq_some.1 hrun
      rw [Machine.collect_cons _ hu]
      cases e with
      | call st a =>
          cases hu
          have hlen : ((.call st a :: es : List Event).flatMap Event.traced).length =
              1 + (es.flatMap Event.traced).length := by
            rw [List.flatMap_cons, List.length_append]
            rfl
          rw [hlen, ← Nat.add_assoc] at hlimit hsmall ⊢
          have hover := hl.overruns_le
          have hflags := rbtrace_riFlags cfg st s.toShm a
          obtain ⟨l', h', hl', hlost⟩ := ih hrest hrun' (h.call hN (by omega) st a)
            (hl.put hN hcounts)
            (hc.imp_left fun hc ↦ (congrArg RiFlags.doClose hflags).trans hc) hlimit hsmall
          refine ⟨l', h', hl', hlost.trans ?_⟩
          rw [Logged.put, h.underway.view, List.append_assoc]
          rfl
      | pass io =>
          rw [show (.pass io :: es : List Event).flatMap Event.traced =
            es.flatMap Event.traced from rfl] at hlimit hsmall ⊢
          have hnext : u.ri.riFlags.doClose = false :=
            doClose_of_rbtraceThreadFn h.underway.flags hu
          have hopen : s.ri.riFlags.doClose = false := by
            refine hc.resolve_right fun hclose ↦ Bool.false_ne_true (Eq.trans ?_ hclose)
            exact (doClose_of_work (fun e he ↦ (hrest e he).1) (h.underway.flags.step hu) hnext
              hrun').symm
          have hlen := hl.length_le
          have hmul := Nat.mul_le_mul_left sizeofEntry
            (show (l.written ++ l.buffers.stored).length ≤
            n + (es.flatMap Event.traced).length by omega)
          obtain ⟨u', l₁, hu', h₁, hturn⟩ := h.pass hN hio hopen (by omega)
          obtain rfl : u' = u := Option.some.inj (hu'.symm.trans hu)
          obtain ⟨hl₁, hkept⟩ := hl.turn hturn
          obtain ⟨l', h', hl', hlost⟩ := ih hrest hrun' h₁ hl₁ (.inl hnext) hlimit hsmall
          exact ⟨l', h', hl', hlost.trans (congrArg (· ++ _) hkept)⟩
      | ctrl op => exact absurd hwork id

/-! ## The commands -/

/-- `rbt -o <path> -w on -s 32`. -/
def roundOpen (path : CStr) : List CStr :=
  [[45, 111], path, [45, 119], [111, 110], [45, 115], [51, 50]]

/-- `rbt -c`. -/
def roundClose : List CStr := [[45, 99]]

/-- The limit of `-s 32`. -/
def roundLimit : Nat := 32 * 2 ^ 20

/-- The command that opens the file, when it is accepted. -/
theorem rbtMain_roundOpen {dup : Nat → Bool} {sh : Shm}
    (h : (rbtMain cfg dup 0 (roundOpen path) sh).rc = 0) :
    sh.ri.riFlags.doZap = false ∧ sh.ri.riFlags.doOpen = false ∧ sh.ri.riFlags.doDisk = false ∧
      (rbtMain cfg dup 0 (roundOpen path) sh).shm =
        { sh with
          fsize := BitVec.ofNat 64 roundLimit
          ri := { sh.ri with
            riFilePath := path, riSlot := -1, riFlush := 0, riLost := 0
            riTflags := (sh.ri.riTflags ||| 0) &&& ~~~0
            riFlags := { sh.ri.riFlags with doWrap := true, doOpen := true } } } := by
  have hfound : options rbtOptstring (roundOpen path) =
      [.opt 111 (some path), .opt 119 (some [111, 110]), .opt 115 (some [51, 50])] := rfl
  by_cases hlong : RBTRACE_MAX_PATH < path.length
  · have hrefused : rbtOptions dup (options rbtOptstring (roundOpen path)) {} =
        .error .pathTooLong := by
      rw [hfound, rbtOptions, rbtOption, if_pos hlong]
      rfl
    rw [rbtMain, hrefused] at h
    exact absurd h (show ¬ (-1 : Int) = 0 by decide)
  · have hok : rbtOptions dup (options rbtOptstring (roundOpen path)) {} =
        .ok { file := some path, size := some 32, wrap := some true } := by
      rw [hfound, rbtOptions, rbtOption, if_neg hlong]
      rfl
    obtain ⟨hshm, hrc⟩ := @rbtMain_of_options cfg.toRingConfig _ _ _ hok sh
    have hcommand := hrc.1 h
    rw [hshm]
    unfold RbtOption.command at hcommand ⊢
    split at hcommand
    · rename_i hpolicy
      split at hcommand
      · rename_i hfile
        rw [if_pos hpolicy, if_pos hfile]
        simp only [RbtOption.policyOk, RbtOption.fileOk, Bool.and_eq_true, Bool.not_eq_true']
          at hpolicy hfile
        exact ⟨hpolicy, hfile.1.1, hfile.1.2, rfl⟩
      · cases hcommand
    · cases hcommand

/-- The command that closes the file, when it is accepted. -/
theorem rbtMain_roundClose {dup : Nat → Bool} {sh : Shm}
    (h : (rbtMain cfg dup 0 roundClose sh).rc = 0) :
    sh.ri.riFlags.doDisk = true ∧ (rbtMain cfg dup 0 roundClose sh).shm =
      { sh with ri := { sh.ri with
        riTflags := (sh.ri.riTflags ||| 0) &&& ~~~0
        riFlags := { sh.ri.riFlags with doDisk := false, doFlush := true, doClose := true } } } := by
  have hok : rbtOptions dup (options rbtOptstring roundClose) {} = .ok { close := true } := rfl
  obtain ⟨hshm, hrc⟩ := @rbtMain_of_options cfg.toRingConfig _ _ _ hok sh
  have hcommand := hrc.1 h
  rw [hshm]
  unfold RbtOption.command at hcommand ⊢
  split at hcommand
  · rename_i hpolicy
    split at hcommand
    · rename_i hfile
      rw [if_pos hpolicy, if_pos hfile]
      exact ⟨hfile, rfl⟩
    · cases hcommand
  · cases hcommand

/-- **A round begins.** -/
theorem inRound_of_open {dup : Nat → Bool} (hring : RingOk cfg 0 s.toShm) (hf : FlagsOk s.ctl)
    (hc : s.ri.riFlags.doClose = false) (hnew : s.disk path = none)
    (h : (rbtMain cfg dup 0 (roundOpen path) s.toShm).rc = 0) :
    InRound cfg path roundLimit
      { s with toShm := (rbtMain cfg dup 0 (roundOpen path) s.toShm).shm } {} := by
  obtain ⟨hzap, ho, hd, hshm⟩ := rbtMain_roundOpen h
  rw [hshm]
  have hpos : (0 : Int) ≤ cfg.rcSize := Int.natCast_nonneg _
  refine .inl ⟨⟨⟨le_rfl, ?_, rfl, by simp, by simp, hring.buffers⟩, ?_, hzap, rfl, le_rfl, rfl⟩,
    rfl, hc, rfl, hnew, rfl⟩
  · show (-1 : Int) < cfg.rcSize
    omega
  · exact ⟨hf.flush_eq, hf.close_of_disk, fun _ ↦ hd, fun _ ↦ hzap, hf.flag_of_fd⟩

/-- **A round comes to its close.** -/
theorem InRound.close {dup : Nat → Bool} (h : InRound cfg path limit s l)
    (hclose : (rbtMain cfg dup 0 roundClose s.toShm).rc = 0) :
    InRound cfg path limit { s with toShm := (rbtMain cfg dup 0 roundClose s.toShm).shm } l := by
  obtain ⟨hd, hshm⟩ := rbtMain_roundClose hclose
  rw [hshm]
  rcases h with h | h
  · exact absurd (hd.symm.trans (h.flags.disk_of_open h.doOpen)) (by decide)
  · have hflags : FlagsOk ⟨{ s.ri.riFlags with doDisk := false, doFlush := true, doClose := true },
        s.rfd.fd⟩ :=
      ⟨rfl, by simp, fun _ ↦ rfl, h.flags.zap_of_wrap, fun _ ↦ .inr rfl⟩
    exact .inr ⟨⟨h.ring.of_ringWords rfl, hflags, h.noZap, h.fsize_eq, h.flush_nonneg, h.view⟩,
      h.doOpen, h.fd, h.file, h.wrapPos, h.nrRecords, h.seek⟩

/-! ## The theorem -/

/-- The records of the benchmark are counted. -/
theorem counts_of_mem_benchTraces {calls : List BenchCall} {a : TraceArgs}
    (h : a ∈ benchTraces calls) (st : Stamp) : (entryOf a st).counts := by
  obtain ⟨call, -, rfl⟩ := List.mem_map.1 h
  rfl

/-- The lines that are counted, if all records are shown. -/
theorem countP_lines {gmtime : BitVec 64 → Option Tm} (showTimestamp : Bool) {io : PrbtIo}
    {file : List UInt8} (hgm : ∀ re ∈ listing io file,
      gmtime (re.timestamp.tvSec + (readHeader file).hdr.gmtoff) ≠ none) :
    (printFile ⟨showTimestamp, BitVec.allOnes 64⟩ gmtime io file).countP
        (fun l ↦ decide l.Matches) =
      (listing io file).countP RbtraceEntry.counts := by
  rw [printFile_of_all hgm]
  generalize (readHeader file).hdr = rf at hgm ⊢
  generalize listing io file = res at hgm ⊢
  induction res with
  | nil => rfl
  | cons re res ih =>
      obtain ⟨gm, hre⟩ := Option.ne_none_iff_exists'.1 (hgm re List.mem_cons_self)
      have hrest := ih fun re hre ↦ hgm re (List.mem_cons_of_mem _ hre)
      have hline : recordLine showTimestamp gmtime rf re =
          some (.record (recordText showTimestamp gm re)) := by
        rw [recordLine, hre, Option.map_some]
      rw [List.filterMap_cons_some hline, List.countP_cons, List.countP_cons, hrest]
      refine congrArg (_ + ·) (if_congr ?_ rfl rfl)
      rw [decide_eq_true_iff, matches_recordText_iff, RbtraceEntry.counts, decide_eq_true_iff]

/-- **A round of the tests passes exactly if no buffer is discarded.**  From any state of the
daemon in which no close is pending: if the two commands are accepted, the calls between the first
one and the closing pass are those of a benchmark that has come to its end, in any order and with
any passes between them, and no system call fails, then the lines that the test counts are as many
as it expects exactly if no call has discarded a buffer.  (The times of the records listed must be
ones that `gmtime` can tell.  The lines counted are those of the records; the lines about the
header, which `egrep` sees as well, are left out.) -/
theorem round_passes_iff (hN : 0 < cfg.rcSize) {disk : Disk} {pre es₁ es₂ : List Event} {last : PassIo}
    {s₀ s₁ s₂ : Sys} {dup₁ dup₂ : Nat → Bool} {o : BenchOption} {bs : List (BenchEvent o)} {b : Bench o}
    (h₀ : (system cfg).run (rbtraceDaemonInit cfg disk) pre = some s₀)
    (hnew : s₀.disk path = none) (hidle : s₀.ri.riFlags.doClose = false)
    (hopen : (rbtMain cfg dup₁ 0 (roundOpen path) s₀.toShm).rc = 0)
    (h₁ : (system cfg).run
      { s₀ with toShm := (rbtMain cfg dup₁ 0 (roundOpen path) s₀.toShm).shm } es₁ = some s₁)
    (hclose : (rbtMain cfg dup₂ 0 roundClose s₁.toShm).rc = 0)
    (h₂ : (system cfg).run
      { s₁ with toShm := (rbtMain cfg dup₂ 0 roundClose s₁.toShm).shm } es₂ = some s₂)
    (hlast : s₂.ri.riFlags.doClose = true)
    (hwork : ∀ e ∈ es₁ ++ es₂, e.IsWork) (hio : ∀ e ∈ .pass last :: (es₁ ++ es₂), e.IoOk)
    (hbench : (bench o).run (.init o) bs = some b) (hfin : ∀ t, b.pcs t = .finished)
    (hthreads : o.nrTraces + o.threads < 2 ^ 31)
    (hcalls : ((es₁ ++ es₂).flatMap Event.traced).Perm
      (benchTraces ((bench o).collect benchCalls (.init o) bs)))
    (hlimit : 512 + 56 * (2 * o.nrTraces) < roundLimit)
    {pio : PrbtIo} (hpio : pio.Ok) (gmtime : BitVec 64 → Option Tm) (showTimestamp : Bool) :
    ∃ t file, (system cfg).step s₂ (.pass last) = some t ∧ t.disk path = some file ∧
      ((∀ re ∈ listing pio file, gmtime (re.timestamp.tvSec + (readHeader file).hdr.gmtoff) ≠ none) →
        ((printFile ⟨showTimestamp, BitVec.allOnes 64⟩ gmtime pio file).countP
          (fun l ↦ decide l.Matches) = 2 * o.nrTraces ↔
        (system cfg).collect (dropped cfg)
            { s₀ with toShm := (rbtMain cfg dup₁ 0 (roundOpen path) s₀.toShm).shm } es₁ ++
          (system cfg).collect (dropped cfg)
            { s₁ with toShm := (rbtMain cfg dup₂ 0 roundClose s₁.toShm).shm } es₂ = [])) := by
  obtain ⟨hring, hf⟩ := ok_of_run hN h₀
  obtain ⟨c, hcounts⟩ := counts_of_run hbench
  have hplan : ((es₁ ++ es₂).flatMap Event.traced).length = 2 * o.nrTraces := by
    rw [hcalls.length_eq, benchTraces, List.length_map,
      (hcounts.perm_benchPlan hfin hthreads).length_eq, benchPlan]
    simp [Nat.mul_comm]
  have hes : ∀ e ∈ es₁ ++ es₂, e.IsWork ∧ e.IoOk ∧ e.Counts := by
    intro e he
    refine ⟨hwork e he, hio e (List.mem_cons_of_mem _ he), ?_⟩
    cases e with
    | call st a =>
        have ha : a ∈ (es₁ ++ es₂).flatMap Event.traced :=
          List.mem_flatMap.2 ⟨_, he, List.mem_singleton_self a⟩
        exact counts_of_mem_benchTraces (hcalls.subset ha) _
    | pass io => trivial
    | ctrl op => trivial
  rw [List.flatMap_append, List.length_append] at hplan
  -- the first command, the calls, the second command, and the calls after it
  have hin₀ := inRound_of_open hring hf hidle hnew hopen
  have hstart : ({ s₀ with toShm := (rbtMain cfg dup₁ 0 (roundOpen path) s₀.toShm).shm } :
      Sys).ri.riFlags.doClose = false := by
    obtain ⟨-, -, -, hshm⟩ := rbtMain_roundOpen hopen
    dsimp only
    rw [hshm]
    exact hidle
  have hlim : RBTRACE_FHEADER_SIZE + sizeofEntry * (2 * o.nrTraces) < roundLimit := hlimit
  have hsmall : 2 * o.nrTraces + 2 < 2 ^ 31 := by
    unfold roundLimit at hlimit
    omega
  have hmul := Nat.mul_le_mul_left sizeofEntry
    (show 0 + (es₁.flatMap Event.traced).length ≤ 2 * o.nrTraces by omega)
  obtain ⟨l₁, hin₁, hl₁, hlost₁⟩ := hin₀.run hN (fun e he ↦ hes e (List.mem_append_left _ he)) h₁
    (.init _) (.inl hstart) (by omega) (by omega)
  obtain ⟨l₂, hin₂, hl₂, hlost₂⟩ := (hin₁.close hclose).run hN
    (fun e he ↦ hes e (List.mem_append_right _ he)) h₂ hl₁ (.inr hlast)
    (by rwa [Nat.zero_add, hplan]) (by rwa [Nat.zero_add, hplan])
  rw [Nat.zero_add, hplan] at hl₂
  rw [hlost₁] at hlost₂
  rcases hin₂ with h | h
  · exact absurd (hlast.symm.trans h.doClose) (by decide)
  -- the closing pass
  obtain ⟨t, prf, l', ht, hfile, hw, hnr, hturn, hnone⟩ := h.close hN
    (hio _ List.mem_cons_self) hlast
  obtain ⟨hl', hkept⟩ := hl₂.turn hturn
  refine ⟨t, _, ht, hfile, fun hgm ↦ ?_⟩
  have hlist : listing pio (traceFile prf (l'.written ++ l'.buffers.active)) =
      l'.written ++ l'.buffers.active :=
    (listing_traceFile hpio (hnr ▸ hN) (cfg.pageSize_lt hnr) (.inl ⟨hw, rfl⟩) (hw ▸ by decide)
      (Nat.zero_le _) (.inr (Nat.zero_mod _))).trans (List.rotate_zero _)
  have hlost : l'.discarded = (system cfg).collect (dropped cfg) _ es₁ ++
      (system cfg).collect (dropped cfg) _ es₂ := hkept.trans hlost₂
  rw [countP_lines showTimestamp hgm, hlist, ← hlost, ← hl'.countP_eq_iff]
  have hle : (l'.written ++ l'.buffers.active).countP RbtraceEntry.counts ≤
      (l'.written ++ l'.buffers.stored).countP RbtraceEntry.counts := by
    rw [List.countP_append, List.countP_append, stored, List.countP_append]
    omega
  constructor
  · intro hall
    -- what is stored is no more than what was put in
    have hcount := hl'.count
    rw [Logged.items, List.countP_append] at hcount
    omega
  · intro hall
    have hover := hl₂.clean (hkept.symm.trans (hl'.countP_eq_iff.1 hall))
    rw [← hall, stored, hnone hover]
    rfl

end

/-- The daemon after `rbt -o t -w on -s 32`. -/
def roundStart : Sys :=
  { rbtraceDaemonInit twoRing fun _ ↦ none with
    toShm := (rbtMain twoRing (fun _ ↦ true) 0 (roundOpen [116])
      (rbtraceDaemonInit twoRing fun _ ↦ none).toShm).shm }

/-- The pass that opens the file, and the calls of a benchmark of one number. -/
def roundEvents : List Event :=
  .pass .smooth :: (benchTraces (benchPlan 1)).map (.call fun _ ↦ .epoch)

theorem round_passes_one : ∃ (t : Sys) (file : List UInt8), t.disk [116] = some file ∧
    (printFile ⟨true, BitVec.allOnes 64⟩ (fun _ ↦ some .utc) .smooth file).countP
      (fun l ↦ decide l.Matches) = 2 := by
  have hfin : ((bench twoThreads).run (.init _) twoThreads.events).map
      (fun s ↦ decide (∀ t, s.pcs t = .finished)) = some true := by decide +kernel
  obtain ⟨b, hb, hpcs⟩ := Option.map_eq_some_iff.1 hfin
  obtain ⟨s₁, hs₁⟩ : ∃ s₁, (system twoRing).run roundStart roundEvents = some s₁ := ⟨_, rfl⟩
  have hclose : ((system twoRing).run roundStart roundEvents).map
      (fun s ↦ (rbtMain twoRing (fun _ ↦ true) 0 roundClose s.toShm).rc) =
        some 0 := by decide +kernel
  have hlast : ((system twoRing).run roundStart roundEvents).map (fun s ↦
      (rbtMain twoRing (fun _ ↦ true) 0 roundClose s.toShm).shm.ri.riFlags.doClose) =
        some true := by
    decide +kernel
  rw [hs₁] at hclose hlast
  have hes : ∀ e ∈ roundEvents ++ [], e.IsWork ∧ e.IoOk := by
    intro e he
    rcases List.mem_cons.1 (List.append_nil _ ▸ he) with rfl | he
    · exact ⟨trivial, PassIo.smooth_ok⟩
    · obtain ⟨a, -, rfl⟩ := List.mem_map.1 he
      exact ⟨trivial, trivial⟩
  have hio : ∀ e ∈ .pass .smooth :: (roundEvents ++ []), e.IoOk :=
    List.forall_mem_cons.2 ⟨PassIo.smooth_ok, fun e he ↦ (hes e he).2⟩
  have hpre : (system twoRing).run (rbtraceDaemonInit twoRing fun _ ↦ none) [] = some _ := rfl
  have hpost : (system twoRing).run { s₁ with
    toShm := (rbtMain twoRing (fun _ ↦ true) 0 roundClose s₁.toShm).shm } [] = some _ := rfl
  obtain ⟨t, file, -, hfile, hcount⟩ := round_passes_iff (by decide) hpre rfl rfl rfl hs₁
    (Option.some.inj hclose) hpost (Option.some.inj hlast) (fun e he ↦ (hes e he).1) hio hb
    (of_decide_eq_true hpcs) (by decide) (by decide +kernel) (by decide) PrbtIo.smooth_ok
    (fun _ ↦ some .utc) true
  exact ⟨t, file, hfile, (hcount fun _ _ ↦ Option.some_ne_none _).2 rfl⟩

end Rbtrace
