import Rbtrace.Prior
import Rbtrace.ZapName

/-!
# Zap mode

In zap mode a trace is a sequence of segments.  A write that reaches the limit closes the
current segment, and the next one is opened through `rbtrace_write_header`, under a name
made from the time of the moment.

As long as every segment gets a name of its own, nothing is lost: the segments hold, in
the order in which they were opened, exactly what was written (`Segmented`).  A name that
comes again leads back into an old segment, whose header and first records are then
overwritten.
-/

namespace Rbtrace

/-! ## Openings -/

/-- The opening of a segment: the path of the session, and what the system contributes. -/
structure SegmentOpening where
  base : CStr
  io : HeaderIo

/-- The path that is opened. -/
def SegmentOpening.path (o : SegmentOpening) : CStr := zapPath o.base o.io.ts o.io.gm

/-- Two openings make their names from the same path and the same fields. -/
def SegmentOpening.Alike (a b : SegmentOpening) : Prop := a.base = b.base ∧ a.io.SameFields b.io

/-- The segment that one `rbtrace_write_data` rolls over to, if it does. -/
def rollover (cfg : RingConfig) (io : DataIo) (doFlush : Bool) (s : Sys) : List SegmentOpening :=
  if MeetsLimit cfg io doFlush s ∧ s.ri.riFlags.doClose = false ∧ s.ri.riFlags.doWrap = false ∧
      s.ri.riFlags.doZap = true then [⟨s.ri.riFilePath, io.reopen⟩]
  else []

/-- The segments that a step opens in zap mode, in order. -/
def openings (cfg : RingConfig) (s : Sys) : Event → List SegmentOpening
  | .pass io =>
      if s.ri.riFlags.doClose = false ∧ s.ri.riFlags.doOpen = true then
        [⟨s.ri.riFilePath, io.header⟩]
      else passOut cfg (rollover cfg) io s
  | _ => []

/-- The segments that a run opens in zap mode, in order. -/
def Sys.segments (cfg : RingConfig) (s : Sys) (evs : List Event) : List SegmentOpening :=
  (system cfg).collect (openings cfg) s evs

/-! ## Segments -/

/-- A segment: its path, its header and its records. -/
structure Segment (N : Nat) where
  path : CStr
  hdr : PaddedRbtraceFheader
  records : List RbtraceEntry
  wrapPos_eq : hdr.hdr.wrapPos = 0
  nrRecords_eq : hdr.hdr.nrRecords = N

/-- The bytes of a segment. -/
def Segment.file {N : Nat} (g : Segment N) : List UInt8 := traceFile g.hdr g.records

/-- A segment with more records. -/
def Segment.append {N : Nat} (g : Segment N) (b : List RbtraceEntry) : Segment N :=
  { g with records := g.records ++ b }

/-- The segment that an opening starts. -/
def SegmentOpening.segment (cfg : RingConfig) (o : SegmentOpening) : Segment cfg.rcSize where
  path := o.path
  hdr := rbtraceFormatHeader cfg o.io.ts o.io.gm
  records := []
  wrapPos_eq := rfl
  nrRecords_eq := rfl

variable {cfg : ValidRingConfig} {old : Disk} {s t : Sys} {segs : List (Segment cfg.rcSize)}

/-- The files are those there were before, and the segments; a file that is open is the
last segment. -/
structure Segmented (cfg : ValidRingConfig) (old : Disk) (s : Sys)
    (segs : List (Segment cfg.rcSize)) : Prop where
  doZap : s.ri.riFlags.doZap = true
  doWrap : s.ri.riFlags.doWrap = false
  onDisk : ∀ g ∈ segs, s.disk g.path = some g.file
  rest : ∀ p ∉ segs.map Segment.path, s.disk p = old p
  current : s.rfd.fd = none ∨ ∃ gs g, segs = gs ++ [g] ∧
    s.rfd = ⟨some g.path, RBTRACE_FHEADER_SIZE + sizeofEntry * g.records.length⟩

/-- Only the files and the mode matter. -/
theorem Segmented.of_frame (h : Segmented cfg old s segs) (hdisk : t.disk = s.disk)
    (hrfd : t.rfd.fd = none ∨ t.rfd = s.rfd) (hz : t.ri.riFlags.doZap = s.ri.riFlags.doZap)
    (hw : t.ri.riFlags.doWrap = s.ri.riFlags.doWrap) : Segmented cfg old t segs := by
  refine ⟨hz.trans h.doZap, hw.trans h.doWrap, ?_, ?_, ?_⟩
  · rw [hdisk]
    exact h.onDisk
  · rw [hdisk]
    exact h.rest
  · rcases hrfd with hrfd | hrfd
    · exact .inl hrfd
    · rw [hrfd]
      exact h.current

/-- **Opening a segment** under a new name. -/
theorem Segmented.open {io : HeaderIo} (h : Segmented cfg old s segs) (hio : io.Ok)
    (hfd : s.rfd.fd = none) (hfresh : (SegmentOpening.mk s.ri.riFilePath io).path ∉ segs.map Segment.path)
    (hold : old (SegmentOpening.mk s.ri.riFilePath io).path = none) :
    Segmented cfg old (rbtraceWriteHeader cfg io s)
      (segs ++ [(SegmentOpening.mk s.ri.riFilePath io).segment cfg]) := by
  obtain ⟨path, hpath⟩ : ∃ path, path = (SegmentOpening.mk s.ri.riFilePath io).path := ⟨_, rfl⟩
  have hopen := @rbtraceWriteHeader_of_ok cfg s path io hio hfd
    (by rw [headerPath, if_pos h.doZap, hpath]; rfl) (by rw [hpath, h.rest _ hfresh, hold])
  rw [hopen]
  rw [← hpath] at hfresh hold
  have hlast : ((SegmentOpening.mk s.ri.riFilePath io).segment cfg).path = path := hpath.symm
  refine ⟨h.doZap, h.doWrap, ?_, ?_, .inr ⟨segs, _, rfl, ?_⟩⟩
  · intro g hg
    rcases List.mem_append.1 hg with hg | hg
    · have hne : g.path ≠ path := fun hp ↦ hfresh (hp ▸ List.mem_map_of_mem hg)
      exact (Function.update_of_ne hne _ _).trans (h.onDisk g hg)
    · obtain rfl := List.mem_singleton.1 hg
      rw [hlast]
      exact Function.update_self _ _ _
  · intro p hp
    rw [List.map_append, List.mem_append, not_or] at hp
    have hne : p ≠ path := fun heq ↦ hp.2 (List.mem_singleton.2 (heq.trans hlast.symm))
    exact (Function.update_of_ne hne _ _).trans (h.rest p hp.1)
  · rw [hlast]
    rfl

/-- **Writing to the current segment.** -/
theorem Segmented.append {off n : Nat} {g : Segment cfg.rcSize}
    (h : Segmented cfg old s (segs ++ [g]))
    (hnd : ((segs ++ [g]).map Segment.path).Nodup)
    (hrfd : s.rfd = ⟨some g.path, RBTRACE_FHEADER_SIZE + sizeofEntry * g.records.length⟩) :
    Segmented cfg old (s.afterAppend g.path off n (g.append (bufRecords s.reBase off n)).file)
      (segs ++ [g.append (bufRecords s.reBase off n)]) := by
  rw [List.map_append, List.nodup_append] at hnd
  refine ⟨h.doZap, h.doWrap, ?_, ?_, .inr ⟨segs, _, rfl, ?_⟩⟩
  · intro g' hg'
    rcases List.mem_append.1 hg' with hg' | hg'
    · have hne : g'.path ≠ g.path :=
        hnd.2.2 _ (List.mem_map_of_mem hg') _ (List.mem_singleton.2 rfl)
      exact (Function.update_of_ne hne _ _).trans (h.onDisk g' (List.mem_append_left _ hg'))
    · obtain rfl := List.mem_singleton.1 hg'
      exact Function.update_self _ _ _
  · intro p hp
    rw [List.map_append, List.mem_append, not_or] at hp
    have hne : p ≠ g.path := fun heq ↦ hp.2 (List.mem_singleton.2 heq)
    refine (Function.update_of_ne hne _ _).trans (h.rest p ?_)
    rw [List.map_append, List.mem_append, not_or]
    exact hp
  · refine congrArg (RingFileData.mk _) ?_
    rw [hrfd, Segment.append, List.length_append, length_bufRecords]
    ring

/-! ## One write -/

/-- What reaching the limit does in zap mode. -/
theorem limitReached_zap {cfg : RingConfig} (io : DataIo) (hz : s.ri.riFlags.doZap = true)
    (hw : s.ri.riFlags.doWrap = false) :
    (limitReached cfg io s false).1 =
      if s.fsize.toNat ≤ s.rfd.seek ∧ s.ri.riFlags.doClose = false then
        rbtraceWriteHeader cfg io.reopen (closeFd s)
      else s := by
  unfold limitReached
  by_cases hl : s.fsize.toNat ≤ s.rfd.seek
  · rw [if_pos hl]
    by_cases hc : s.ri.riFlags.doClose = true
    · rw [if_pos hc, if_neg fun h ↦ Bool.eq_false_iff.1 h.2 hc]
    · rw [if_neg hc, if_neg (Bool.eq_false_iff.1 hw), if_pos hz,
        if_pos ⟨hl, Bool.eq_false_iff.2 hc⟩]
  · rw [if_neg hl, if_neg fun h ↦ hl h.1]

/-- The rollover of a write that goes well. -/
theorem rollover_of_ok {cfg : RingConfig} {io : DataIo} {doFlush : Bool} (hio : io.Ok)
    (hz : s.ri.riFlags.doZap = true) (hw : s.ri.riFlags.doWrap = false) :
    rollover cfg io doFlush s =
      if s.fsize.toNat ≤ s.rfd.seek + (selectBuffer cfg doFlush s).2 * sizeofEntry ∧
          s.ri.riFlags.doClose = false then [⟨s.ri.riFilePath, io.reopen⟩]
      else [] := by
  have hpos : s.writePos = s.rfd.seek := if_neg fun h ↦ Bool.eq_false_iff.1 hw h.2
  refine if_congr ?_ rfl rfl
  rw [MeetsLimit, hpos, and_iff_right (getsThrough_of_noError hio.data _), and_iff_right hw,
    and_iff_left hz]

/-- **A write in zap mode** appends to the current segment; if it rolls over, it opens the
next one. -/
theorem Segmented.write {io : DataIo} {doFlush : Bool} (h : Segmented cfg old s segs)
    (hnd : (segs.map Segment.path ++ (rollover cfg io doFlush s).map SegmentOpening.path).Nodup)
    (hold : ∀ o ∈ rollover cfg io doFlush s, old o.path = none) (hio : io.Ok)
    (hfd : s.rfd.fd ≠ none) :
    ∃ t segs', rbtraceWriteData cfg io doFlush s = some t ∧ Segmented cfg old t segs' ∧
      segs'.map Segment.path =
        segs.map Segment.path ++ (rollover cfg io doFlush s).map SegmentOpening.path ∧
      segs'.flatMap Segment.records =
        segs.flatMap Segment.records ++ (dataWritten cfg io doFlush s).flatten := by
  obtain ⟨gs, g, rfl, hrfd⟩ := h.current.resolve_left hfd
  obtain ⟨off, n, hbuf⟩ : ∃ off n, selectBuffer cfg doFlush s = (off, n) := ⟨_, _, rfl⟩
  have hwritten : (dataWritten cfg io doFlush s).flatten = bufRecords s.reBase off n := by
    rw [dataWritten, if_pos ⟨hfd, getsThrough_of_noError hio.data _⟩, List.flatten_singleton, hbuf]
  have hwrite := rbtraceWriteData_of_noWrap hio.data (congrArg RingFileData.fd hrfd)
    (h.onDisk g (List.mem_append_right gs (List.mem_singleton.2 rfl))) hbuf h.doWrap
  have hfile : transfer g.file s.rfd.seek
      ((bufRecords s.reBase off n).flatMap RbtraceEntry.toBytes) =
        (g.append (bufRecords s.reBase off n)).file := by
    rw [hrfd, Segment.file, transfer_traceFile _ le_rfl, List.splice_length]
    rfl
  rw [hfile] at hwrite
  have happ := @Segmented.append cfg old s gs off n g h (List.nodup_append.1 hnd).1 hrfd
  have hroll := @rollover_of_ok s cfg io doFlush hio h.doZap h.doWrap
  rw [hbuf] at hroll
  obtain ⟨u, hu⟩ : ∃ u, u = s.afterAppend g.path off n (g.append (bufRecords s.reBase off n)).file :=
    ⟨_, rfl⟩
  have hlimit := @limitReached_zap u cfg io (hu ▸ h.doZap) (hu ▸ h.doWrap)
  rw [← hu] at hwrite happ
  -- the counters are taken in either case
  have htake : ∀ {v : Sys} {segs' : List (Segment cfg.rcSize)}, Segmented cfg old v segs' →
      Segmented cfg old (takeCounters cfg io v) segs' := by
    intro v segs' hv
    obtain ⟨hr, -, hd, -⟩ := takeCounters_frame cfg io v
    have hflags := congrArg Ctl.flags (takeCounters_ctl cfg io v)
    exact hv.of_frame hd (.inr hr) (congrArg RiFlags.doZap hflags) (congrArg RiFlags.doWrap hflags)
  rw [hwritten]
  by_cases hl : s.fsize.toNat ≤ s.rfd.seek + n * sizeofEntry ∧ s.ri.riFlags.doClose = false
  · -- the next segment
    rw [if_pos hl] at hroll
    rw [hroll] at hnd hold
    have hfresh : (SegmentOpening.mk s.ri.riFilePath io.reopen).path ∉
        (gs ++ [g.append (bufRecords s.reBase off n)]).map Segment.path := fun hmem ↦
      (List.nodup_append.1 hnd).2.2 _ (by rwa [List.map_append] at hmem ⊢) _
        (List.mem_singleton.2 rfl) rfl
    have hnext := @Segmented.open cfg old (closeFd u) _ io.reopen
      (happ.of_frame rfl (.inl rfl) rfl rfl) hio.reopen rfl (hu ▸ hfresh)
      (hu ▸ hold _ (List.mem_singleton.2 rfl))
    rw [if_pos (hu ▸ hl)] at hlimit
    rw [hlimit] at hwrite
    refine ⟨_, _, hwrite, htake hnext, ?_, ?_⟩
    · rw [hroll, hu, List.map_append, List.map_append, List.map_append]
      rfl
    · simp only [List.flatMap_append, List.flatMap_cons, List.flatMap_nil, List.append_nil,
        Segment.append, SegmentOpening.segment, List.append_assoc]
  · rw [if_neg hl] at hroll
    rw [if_neg (hu ▸ hl)] at hlimit
    rw [hlimit] at hwrite
    refine ⟨_, _, hwrite, htake happ, ?_, ?_⟩
    · rw [hroll, List.map_append, List.map_append, List.map_nil, List.append_nil]
      rfl
    · simp only [List.flatMap_append, List.flatMap_cons, List.flatMap_nil, List.append_nil,
        Segment.append, List.append_assoc]

/-! ## Passes -/

variable {ops : List SegmentOpening} {bufs : List (List RbtraceEntry)}

/-- No name comes twice, and none was there before. -/
def FreshNames (old : Disk) (ops : List SegmentOpening) : Prop :=
  (ops.map SegmentOpening.path).Nodup ∧ ∀ o ∈ ops, old o.path = none

theorem FreshNames.left {ops' : List SegmentOpening} (h : FreshNames old (ops ++ ops')) :
    FreshNames old ops := by
  obtain ⟨hnd, hold⟩ := h
  rw [List.map_append] at hnd
  exact ⟨(List.nodup_append.1 hnd).1, fun o ho ↦ hold o (List.mem_append_left _ ho)⟩

/-- If the names are new, the segments that were opened hold what was written. -/
def Kept (cfg : ValidRingConfig) (old : Disk) (s : Sys) (ops : List SegmentOpening)
    (bufs : List (List RbtraceEntry)) : Prop :=
  FreshNames old ops → ∃ segs, Segmented cfg old s segs ∧
    segs.map Segment.path = ops.map SegmentOpening.path ∧
    segs.flatMap Segment.records = bufs.flatten

theorem Kept.of_frame (h : Kept cfg old s ops bufs) (hdisk : t.disk = s.disk)
    (hrfd : t.rfd.fd = none ∨ t.rfd = s.rfd) (hz : t.ri.riFlags.doZap = s.ri.riFlags.doZap)
    (hw : t.ri.riFlags.doWrap = s.ri.riFlags.doWrap) : Kept cfg old t ops bufs := by
  intro hfresh
  obtain ⟨segs, hsegs, hpaths, hrecords⟩ := h hfresh
  exact ⟨segs, hsegs.of_frame hdisk hrfd hz hw, hpaths, hrecords⟩

/-- **One write.** -/
theorem Kept.write {io : DataIo} {doFlush : Bool} (h : Kept cfg old s ops bufs) (hio : io.Ok)
    (hfd : s.rfd.fd ≠ none) :
    ∃ t, rbtraceWriteData cfg io doFlush s = some t ∧
      Kept cfg old t (ops ++ rollover cfg io doFlush s) (bufs ++ dataWritten cfg io doFlush s) := by
  obtain ⟨t, ht, -⟩ := @rbtraceWriteData_ctl cfg io doFlush s hfd
  refine ⟨t, ht, fun hfresh ↦ ?_⟩
  obtain ⟨segs, hsegs, hpaths, hrecords⟩ := h hfresh.left
  obtain ⟨hnd, hold⟩ := hfresh
  rw [List.map_append, ← hpaths] at hnd
  obtain ⟨t', segs', ht', hsegs', hpaths', hrecords'⟩ := hsegs.write hnd
    (fun o ho ↦ hold o (List.mem_append_right _ ho)) hio hfd
  obtain rfl : t' = t := Option.some.inj (ht'.symm.trans ht)
  refine ⟨segs', hsegs', ?_, ?_⟩
  · rw [hpaths', hpaths, List.map_append]
  · rw [hrecords', hrecords, List.flatten_append]

/-- **A pass that opens a segment.** -/
theorem Kept.open {io : HeaderIo} (h : Kept cfg old s ops bufs) (hio : io.Ok)
    (hfd : s.rfd.fd = none) :
    Kept cfg old (rbtraceWriteHeader cfg io s) (ops ++ [⟨s.ri.riFilePath, io⟩]) bufs := by
  intro hfresh
  obtain ⟨segs, hsegs, hpaths, hrecords⟩ := h hfresh.left
  obtain ⟨hnd, hold⟩ := hfresh
  rw [List.map_append, ← hpaths] at hnd
  have hnew : (SegmentOpening.mk s.ri.riFilePath io).path ∉ segs.map Segment.path := fun hmem ↦
    (List.nodup_append.1 hnd).2.2 _ hmem _ (List.mem_singleton.2 rfl) rfl
  refine ⟨_, hsegs.open hio hfd hnew
    (hold _ (List.mem_append_right _ (List.mem_singleton.2 rfl))), ?_, ?_⟩
  · rw [List.map_append, List.map_append, hpaths]
    rfl
  · rw [List.flatMap_append, hrecords]
    exact List.append_nil _

/-- What one call of `rbtrace_write_data` opens and writes. -/
def dataOut (cfg : RingConfig) (io : DataIo) (doFlush : Bool) (s : Sys) :
    List (List SegmentOpening × List (List RbtraceEntry)) :=
  [(rollover cfg io doFlush s, dataWritten cfg io doFlush s)]

/-- **A pass.** -/
theorem Kept.pass {io : PassIo} (h : Kept cfg old s ops bufs) (hf : FlagsOk s.ctl)
    (hb : Backed s.ctl) (hio : io.Ok) (ht : rbtraceThreadFn cfg io s = some t) :
    Kept cfg old t (ops ++ openings cfg s (.pass io)) (bufs ++ writes cfg s (.pass io)) := by
  by_cases ho : s.ri.riFlags.doClose = false ∧ s.ri.riFlags.doOpen = true
  · obtain ⟨hc, ho'⟩ := ho
    rw [rbtraceThreadFn, if_neg (Bool.eq_false_iff.1 hc), if_pos ho'] at ht
    cases ht
    rw [openings, if_pos ⟨hc, ho'⟩, writes_pass, passOut_of_open _ io hc ho', List.append_nil]
    exact h.open hio.header (hf.fd_eq_none ho' hc)
  · have hops : openings cfg s (.pass io) = (passOut cfg (dataOut cfg) io s).flatMap Prod.fst := by
      rw [openings, if_neg ho, ← passOut_flatMap]
      simp only [dataOut, List.flatMap_cons, List.flatMap_nil, List.append_nil]
    have hbufs : writes cfg s (.pass io) = (passOut cfg (dataOut cfg) io s).flatMap Prod.snd := by
      rw [writes_pass, ← passOut_flatMap]
      simp only [dataOut, List.flatMap_cons, List.flatMap_nil, List.append_nil]
    have hwrite : ∀ {d : DataIo} {b : Bool} {u : Sys}
        {acc : List (List SegmentOpening × List (List RbtraceEntry))}, d.Ok → u.rfd.fd ≠ none →
        Kept cfg old u (ops ++ acc.flatMap Prod.fst) (bufs ++ acc.flatMap Prod.snd) →
        ∃ v, rbtraceWriteData cfg d b u = some v ∧
          Kept cfg old v (ops ++ (acc ++ dataOut cfg d b u).flatMap Prod.fst)
            (bufs ++ (acc ++ dataOut cfg d b u).flatMap Prod.snd) := by
      intro d b u acc hd hfd hu
      obtain ⟨v, hv, hkept⟩ := @Kept.write cfg old u _ _ d b hu hd hfd
      refine ⟨v, hv, ?_⟩
      simpa only [dataOut, List.flatMap_append, List.flatMap_cons, List.flatMap_nil,
        List.append_nil, List.append_assoc] using hkept
    have hfinish : ∀ {v : Sys} {ops : List SegmentOpening} {bufs : List (List RbtraceEntry)},
        Kept cfg old v ops bufs → Kept cfg old v.finishClose ops bufs := by
      intro v ops bufs hv
      have hflags := finishClose_riFlags v
      exact hv.of_frame (finishClose_disk v) (.inl (finishClose_fd v)) (by rw [hflags])
        (by rw [hflags])
    have hstart : Kept cfg old s (ops ++ []) (bufs ++ []) := by
      rwa [List.append_nil, List.append_nil]
    obtain ⟨u, hu, hkept⟩ := @pass_rule _ cfg s
      (fun u acc ↦ Kept cfg old u (ops ++ acc.flatMap Prod.fst) (bufs ++ acc.flatMap Prod.snd))
      (fun u acc ↦ Kept cfg old u (ops ++ acc.flatMap Prod.fst) (bufs ++ acc.flatMap Prod.snd))
      (dataOut cfg) io [] hf hb (fun hc ↦ Bool.eq_false_iff.2 fun ho' ↦ ho ⟨hc, ho'⟩) hstart
      (fun hfd _ ↦ @hwrite io.inactive false s [] hio.inactive hfd hstart) (fun _ hu ↦ hu)
      fun _ hfd _ hu ↦ (hwrite hio.active hfd hu).imp fun v hv ↦ ⟨hv.1, hfinish hv.2⟩
    obtain rfl : u = t := Option.some.inj (hu.symm.trans ht)
    rwa [hops, hbufs]

/-! ## Whole runs -/

/-- The step does not switch zap mode off. -/
def Event.KeepsZap : Event → Prop
  | .ctrl (.zap (some false)) => False
  | _ => True

/-- What the clock says during the step is a time. -/
def Event.ClockOk : Event → Prop
  | .pass io => io.header.ClockOk ∧ io.inactive.reopen.ClockOk ∧ io.active.reopen.ClockOk
  | _ => True

/-- The control operations leave zap mode as it is. -/
theorem rbtraceCtrl_of_keepsZap {op : RbtraceOp} {sh : Shm} (hop : (Event.ctrl op).KeepsZap)
    (hz : sh.ri.riFlags.doZap = true) :
    (rbtraceCtrl op sh).1.ri.riFlags.doZap = sh.ri.riFlags.doZap ∧
      (rbtraceCtrl op sh).1.ri.riFlags.doWrap = sh.ri.riFlags.doWrap := by
  have hstep := rbtraceCtrl_step op sh
  generalize rbtraceCtrl op sh = r at hstep ⊢
  cases hstep with
  | wraps enable hz' => exact absurd (hz.symm.trans hz') (by decide)
  | zaps enable hw' =>
      cases enable with
      | false => exact absurd hop id
      | true => exact ⟨hz.symm, rfl⟩
  | _ => exact ⟨rfl, rfl⟩

/-- A run in zap mode that has opened `ops` and written `bufs`. -/
structure Zapping (cfg : ValidRingConfig) (old : Disk) (s : Sys) (ops : List SegmentOpening)
    (bufs : List (List RbtraceEntry)) : Prop where
  flags : FlagsOk s.ctl
  backed : Backed s.ctl
  doZap : s.ri.riFlags.doZap = true
  kept : Kept cfg old s ops bufs

/-- No pass changes the mode. -/
theorem passCtl_doZap (cfg : RingConfig) (io : PassIo) (s : Sys) :
    (passCtl cfg io s).flags.doZap = s.ri.riFlags.doZap := by
  unfold passCtl Ctl.opened Ctl.atLimit Ctl.opened
  split_ifs <;> rfl

/-- **One step.** -/
theorem Zapping.step {e : Event} (h : Zapping cfg old s ops bufs) (hio : e.IoOk)
    (hkeep : e.KeepsZap) (ht : (system cfg).step s e = some t) :
    Zapping cfg old t (ops ++ openings cfg s e) (bufs ++ writes cfg s e) := by
  obtain ⟨u, hu, hf, hiff⟩ := @backed_step_iff cfg s e h.flags h.backed
  obtain rfl : u = t := Option.some.inj (hu.symm.trans ht)
  have hb : Backed u.ctl := hiff.2 (zapReopens_of_ioOk hio)
  clear hiff
  cases e with
  | call st a =>
      cases ht
      have hflags := rbtrace_riFlags cfg st s.toShm a
      rw [show openings cfg s (.call st a) = [] from rfl,
        show writes cfg s (.call st a) = [] from rfl, List.append_nil, List.append_nil]
      exact ⟨hf, hb, (congrArg RiFlags.doZap hflags).trans h.doZap, h.kept.of_frame rfl (.inr rfl)
        (congrArg RiFlags.doZap hflags) (congrArg RiFlags.doWrap hflags)⟩
  | ctrl op =>
      cases ht
      obtain ⟨hz', hw'⟩ := rbtraceCtrl_of_keepsZap hkeep h.doZap
      rw [show openings cfg s (.ctrl op) = [] from rfl,
        show writes cfg s (.ctrl op) = [] from rfl, List.append_nil, List.append_nil]
      exact ⟨hf, hb, hz'.trans h.doZap, h.kept.of_frame rfl (.inr rfl) hz' hw'⟩
  | pass io =>
      have hz := congrArg (fun c ↦ c.flags.doZap) (rbtraceThreadFn_ctl h.flags ht)
      exact ⟨hf, hb, hz.trans ((passCtl_doZap cfg io s).trans h.doZap),
        h.kept.pass h.flags h.backed hio ht⟩

/-- What the steps of a run have to meet. -/
def ZapStep (e : Event) : Prop := e.IoOk ∧ e.KeepsZap ∧ e.ClockOk

/-- **A whole run** in zap mode. -/
theorem zapping_of_run {evs : List Event} (hf : FlagsOk s.ctl) (hb : Backed s.ctl)
    (hz : s.ri.riFlags.doZap = true) (hfd : s.rfd.fd = none) (hevs : ∀ e ∈ evs, ZapStep e)
    (hrun : (system cfg).run s evs = some t) :
    Zapping cfg s.disk t (s.segments cfg evs) ((system cfg).collect (writes cfg) s evs) := by
  have hw : s.ri.riFlags.doWrap = false := Bool.eq_false_iff.2 fun hw ↦
    Bool.eq_false_iff.1 (hf.zap_of_wrap hw) hz
  have hstart : Kept cfg s.disk s [] [] := fun _ ↦
    ⟨[], ⟨hz, hw, by simp, fun _ _ ↦ rfl, .inl hfd⟩, rfl, rfl⟩
  -- a step puts out what it opens and what it writes
  have hg : (system cfg).Guarded (fun _ e ↦ True ∧ ZapStep e) s evs :=
    (Machine.guarded_true s evs).and_forall hevs
  have hall := @Machine.Guarded.collect_invariant _ _ _ (system cfg) _
    (fun s e ↦ [(openings cfg s e, writes cfg s e)])
    (fun u h ↦ Zapping cfg s.disk u (h.flatMap Prod.fst) (h.flatMap Prod.snd))
    (fun u h e v hu hok hv ↦ by
      simp only [List.flatMap_append, List.flatMap_cons, List.flatMap_nil, List.append_nil]
      exact hu.step hok.2.1 hok.2.2.1 hv) s t [] evs hg ⟨hf, hb, hz, hstart⟩ hrun
  simp only [List.nil_append, ← Machine.collect_flatMap, List.flatMap_cons, List.flatMap_nil,
    List.append_nil] at hall
  exact hall

/-- The readings behind the names are times. -/
theorem clockOk_of_mem_segments {cfg : RingConfig} {evs : List Event} {o : SegmentOpening}
    (hevs : ∀ e ∈ evs, ZapStep e) (hrun : (system cfg).run s evs = some t)
    (ho : o ∈ s.segments cfg evs) : o.io.ClockOk := by
  have hstep : ∀ (u : Sys) (e : Event), ZapStep e → ∀ o ∈ openings cfg u e, o.io.ClockOk := by
    rintro u e ⟨-, -, hclock⟩ o ho
    have hroll : ∀ {d : DataIo} {b : Bool} {v : Sys}, d.reopen.ClockOk →
        o ∈ rollover cfg d b v → o.io.ClockOk := by
      intro d b v hd ho
      unfold rollover at ho
      split at ho
      · obtain rfl := List.mem_singleton.1 ho
        exact hd
      · exact absurd ho List.not_mem_nil
    cases e with
    | call st a | ctrl op => exact absurd ho List.not_mem_nil
    | pass io =>
        obtain ⟨hheader, hin, hact⟩ := hclock
        unfold openings at ho
        split_ifs at ho
        · obtain rfl := List.mem_singleton.1 ho
          exact hheader
        · rcases mem_passOut ho with ho | ⟨u, ho⟩
          · exact hroll hin ho
          · exact hroll hact ho
  have hg : (system cfg).Guarded (fun _ e ↦ True ∧ ZapStep e) s evs :=
    (Machine.guarded_true s evs).and_forall hevs
  have hall := @Machine.Guarded.collect_invariant _ _ _ (system cfg) _ (openings cfg)
    (fun _ ops ↦ ∀ o ∈ ops, o.io.ClockOk) (fun u ops e v hops hok _ o ho ↦
      (List.mem_append.1 ho).elim (hops o) (hstep u e hok.2 o)) s t [] evs hg (by simp) hrun
  exact hall o ho

/-- What the reader lists for a segment. -/
theorem Segment.listing_file {pio : PrbtIo} (hN : 0 < cfg.rcSize) (hpio : pio.Ok)
    (g : Segment cfg.rcSize) : listing pio g.file = g.records := by
  have hsize : sizeofEntry * g.hdr.hdr.nrRecords < 2 ^ 64 :=
    cfg.pageSize_lt g.nrRecords_eq
  have hpos : 0 < g.hdr.hdr.nrRecords := by rwa [g.nrRecords_eq]
  have hlist := listing_traceFile hpio hpos hsize (.inl ⟨g.wrapPos_eq, rfl⟩)
    (by rw [g.wrapPos_eq]; decide) (Nat.zero_le g.records.length) (.inr (Nat.zero_mod _))
  rw [Segment.file, hlist, List.rotate_zero]

/-- Names are told apart by what is in them. -/
theorem nodup_path_iff (hops : ∀ o ∈ ops, o.io.ClockOk) :
    (ops.map SegmentOpening.path).Nodup ↔ ops.Pairwise fun a b ↦ ¬ a.Alike b := by
  rw [List.Nodup, List.pairwise_map]
  refine List.Pairwise.iff_of_mem fun {a b} ha hb ↦ not_congr ?_
  exact zapPath_eq_iff (hops a ha) (hops b hb)

/-- **Zap mode keeps everything**, exactly if no two openings make their names from the same
fields: then the paths of the segments are distinct, and their listings, in the order of
opening, are what was written. -/
theorem zap_keeps_iff (cfg : ValidRingConfig) (hN : 0 < cfg.rcSize) {disk : Disk}
    {pre evs : List Event} {s t : Sys}
    (h₀ : (system cfg).run (rbtraceDaemonInit cfg disk) pre = some s)
    (hpre : ∀ e ∈ pre, e.IoOk) (hzap : s.ri.riFlags.doZap = true) (hidle : s.rfd.fd = none)
    (hrun : (system cfg).run s evs = some t) (hevs : ∀ e ∈ evs, ZapStep e)
    (hnew : ∀ o ∈ s.segments cfg evs, s.disk o.path = none) {pio : PrbtIo} (hpio : pio.Ok) :
    (((s.segments cfg evs).map SegmentOpening.path).Nodup ∧
      ((s.segments cfg evs).flatMap fun o ↦ listing pio ((t.disk o.path).getD [])) =
        ((system cfg).collect (writes cfg) s evs).flatten) ↔
      (s.segments cfg evs).Pairwise fun a b ↦ ¬ a.Alike b := by
  obtain ⟨hf, hb⟩ := backed_of_run hpre h₀
  rw [← nodup_path_iff fun o ho ↦ clockOk_of_mem_segments hevs hrun ho]
  refine ⟨fun h ↦ h.1, fun hnd ↦ ⟨hnd, ?_⟩⟩
  obtain ⟨segs, hsegs, hpaths, hrecords⟩ :=
    (zapping_of_run hf hb hzap hidle hevs hrun).kept ⟨hnd, hnew⟩
  calc
    ((s.segments cfg evs).flatMap fun o ↦ listing pio ((t.disk o.path).getD []))
      = ((s.segments cfg evs).map SegmentOpening.path).flatMap
          fun p ↦ listing pio ((t.disk p).getD []) := by rw [List.flatMap_map]
    _ = segs.flatMap fun g ↦ listing pio ((t.disk g.path).getD []) := by
        rw [← hpaths, List.flatMap_map]
    _ = segs.flatMap Segment.records := by
        refine List.flatMap_congr fun g hg ↦ ?_
        rw [hsegs.onDisk g hg, Option.getD_some, g.listing_file hN hpio]
    _ = ((system cfg).collect (writes cfg) s evs).flatten := hrecords

/-- An opening `nsec` nanoseconds after the epoch. -/
def HeaderIo.atNsec (nsec : BitVec 64) : HeaderIo := { HeaderIo.smooth with ts := ⟨0, nsec⟩ }

/-- A pass in which a file would be opened at that time. -/
def PassIo.atNsec (nsec : BitVec 64) : PassIo :=
  { PassIo.smooth with
    header := .atNsec nsec, inactive := { DataIo.smooth with reopen := .atNsec nsec } }

/-- A ring of one record in zap mode, with a limit that every write reaches. -/
def zapStart : Sys :=
  { rbtraceDaemonInit oneRing fun _ ↦ none with
    ri := { (rbtraceInitTraceInfo oneRing 0).1 with riFlags := { doZap := true } }
    fsize := 1 }

/-- Three segments are opened, at the given times, and two records are written. -/
def threeSegments (t₁ t₂ t₃ : BitVec 64) : List Event :=
  [.ctrl (.open (some [116])), .pass (.atNsec t₁), .trace 2, .trace 3, .pass (.atNsec t₂), .trace 4,
    .pass (.atNsec t₃)]

theorem threeSegments_zapStep {t₁ t₂ t₃ : BitVec 64} (h₁ : t₁.toNat < 1000000000)
    (h₂ : t₂.toNat < 1000000000) (h₃ : t₃.toNat < 1000000000) :
    ∀ e ∈ threeSegments t₁ t₂ t₃, ZapStep e := by
  have hsmooth := PassIo.smooth_ok
  have hepoch : HeaderIo.smooth.ClockOk := by constructor <;> decide
  have hpass : ∀ {nsec : BitVec 64}, nsec.toNat < 1000000000 → ZapStep (.pass (.atNsec nsec)) := by
    intro nsec hlt
    have hio : (HeaderIo.atNsec nsec).Ok := ⟨rfl, hsmooth.header.pwrites⟩
    have hclock : (HeaderIo.atNsec nsec).ClockOk := { hepoch with nsec := hlt }
    exact ⟨⟨hio, ⟨hsmooth.inactive.data, hio, hsmooth.inactive.update⟩, hsmooth.active⟩, trivial,
      hclock, hclock, hepoch⟩
  have hother : ∀ {e : Event}, (∀ io, e ≠ .pass io) → e.KeepsZap → ZapStep e := by
    intro e he hkeep
    cases e with
    | pass io => exact absurd rfl (he io)
    | call st a | ctrl op => exact ⟨trivial, hkeep, trivial⟩
  simp only [threeSegments, List.mem_cons, List.not_mem_nil, or_false]
  rintro e (rfl | rfl | rfl | rfl | rfl | rfl | rfl)
  · exact hother (by simp) trivial
  · exact hpass h₁
  · exact hother (by simp [Event.trace]) trivial
  · exact hother (by simp [Event.trace]) trivial
  · exact hpass h₂
  · exact hother (by simp [Event.trace]) trivial
  · exact hpass h₃

/-- In different milliseconds the segments hold what was written. -/
theorem zap_keeps_threeSegments : ∃ t,
    (system oneRing).run zapStart (threeSegments 0 1000000 2000000) = some t ∧
    ((zapStart.segments oneRing (threeSegments 0 1000000 2000000)).map
      SegmentOpening.path).Nodup ∧
    ((zapStart.segments oneRing (threeSegments 0 1000000 2000000)).flatMap fun o ↦
      listing .smooth ((t.disk o.path).getD [])) =
        ((system oneRing).collect (writes oneRing) zapStart
          (threeSegments 0 1000000 2000000)).flatten := by
  have h₀ : (system oneRing).run (rbtraceDaemonInit oneRing fun _ ↦ none)
      [.ctrl (.zap (some true)), .ctrl (.size (some 1))] = some zapStart := rfl
  have hpre : ∀ e ∈ [Event.ctrl (.zap (some true)), .ctrl (.size (some 1))], e.IoOk := by
    simp [Event.IoOk]
  have hdiff : (zapStart.segments oneRing (threeSegments 0 1000000 2000000)).Pairwise
      fun a b ↦ ¬ a.Alike b := by
    have hmsec : (zapStart.segments oneRing (threeSegments 0 1000000 2000000)).Pairwise
        fun a b ↦ a.io.ts.tvNsec.toNat / 1000000 ≠ b.io.ts.tvNsec.toNat / 1000000 := by
      decide +kernel
    exact hmsec.imp fun hne halike ↦ hne halike.2.msec
  obtain ⟨t, hrun⟩ : ∃ t, (system oneRing).run zapStart (threeSegments 0 1000000 2000000) = some t :=
    Option.isSome_iff_exists.1 (by decide +kernel)
  exact ⟨t, hrun, (zap_keeps_iff oneRing (by decide) h₀ hpre rfl rfl hrun
    (threeSegments_zapStep (by decide) (by decide) (by decide)) (fun _ _ ↦ rfl)
    PrbtIo.smooth_ok).2 hdiff⟩

/-- In one millisecond they are all the same file, and of the two records only the second
is left. -/
theorem zap_loses_sameMillisecond : ∃ t,
    (system oneRing).run zapStart (threeSegments 1 2 3) = some t ∧
    (zapStart.segments oneRing (threeSegments 1 2 3)).map (fun o ↦ (o.io.ts, o.io.gm)) =
      [(⟨0, 1⟩, HeaderIo.smooth.gm), (⟨0, 2⟩, HeaderIo.smooth.gm), (⟨0, 3⟩, HeaderIo.smooth.gm)] ∧
    ¬ ((zapStart.segments oneRing (threeSegments 1 2 3)).map SegmentOpening.path).Nodup ∧
    ((zapStart.segments oneRing (threeSegments 1 2 3)).flatMap fun o ↦
      listing .smooth ((t.disk o.path).getD [])).map RbtraceEntry.traceid = [3, 3, 3] ∧
    (((system oneRing).collect (writes oneRing) zapStart (threeSegments 1 2 3)).flatten).map
      RbtraceEntry.traceid = [2, 3] := by
  have h : ∃ t ∈ (system oneRing).run zapStart (threeSegments 1 2 3),
      ((zapStart.segments oneRing (threeSegments 1 2 3)).flatMap fun o ↦
        listing .smooth ((t.disk o.path).getD [])).map RbtraceEntry.traceid = [3, 3, 3] := by
    decide +kernel
  obtain ⟨t, hrun, hlist⟩ := h
  exact ⟨t, hrun, by decide +kernel, by decide +kernel, hlist, by decide +kernel⟩

end Rbtrace
