import Rbtrace.Oblivious

/-!
# A file that was there before

`rbtrace_write_header` opens its file without truncating it.  A session in plain mode
then overwrites the old bytes from the start, and what sticks out behind its last record
stays (`Appending`).  The reader takes the end of the data from the length of the file,
so it goes on into the old bytes: the listing is that of a new file exactly if nothing
sticks out.
-/

namespace Rbtrace

variable {cfg : ValidRingConfig} {path : CStr} {old : List UInt8} {s t : Sys}
  {es : List RbtraceEntry}

/-- A step of a session in plain mode: no other file is opened, and the mode is not
changed. -/
def Event.IsPlain : Event → Prop
  | .ctrl (.open _) | .ctrl (.wrap _) | .ctrl (.zap _) => False
  | _ => True

/-! ## The states of a session -/

/-- The open has been requested; the file holds the bytes `old`, or does not exist. -/
structure Awaiting (path : CStr) (old : List UInt8) (s : Sys) : Prop where
  noWrap : s.ri.riFlags.doWrap = false
  noZap : s.ri.riFlags.doZap = false
  doOpen : s.ri.riFlags.doOpen = true
  doClose : s.ri.riFlags.doClose = false
  path_eq : s.ri.riFilePath = path
  file : (s.disk path).getD [] = old

/-- The session has written `es`, over the bytes `old`. -/
structure Appending (cfg : ValidRingConfig) (path : CStr) (old : List UInt8) (s : Sys)
    (es : List RbtraceEntry) : Prop where
  noWrap : s.ri.riFlags.doWrap = false
  noZap : s.ri.riFlags.doZap = false
  doOpen : s.ri.riFlags.doOpen = false
  file : s.disk path = some (traceFile s.hdr es ++ old.drop (traceFile s.hdr es).length)
  wrapPos : s.hdr.hdr.wrapPos = 0
  nrRecords : s.hdr.hdr.nrRecords = cfg.rcSize
  /-- The file is closed, or the next write goes right behind the records. -/
  fd : s.rfd.fd = none ∨ s.rfd = ⟨some path, (traceFile s.hdr es).length⟩

/-- A session in plain mode that has written the buffers `bufs`. -/
structure Overwriting (cfg : ValidRingConfig) (path : CStr) (old : List UInt8) (s : Sys)
    (bufs : List (List RbtraceEntry)) : Prop where
  flags : FlagsOk s.ctl
  backed : Backed s.ctl
  state : (Awaiting path old s ∧ bufs = []) ∨ Appending cfg path old s bufs.flatten

/-! ## Writing -/

/-- A write right behind the new bytes covers the next of the old ones. -/
theorem transfer_over (f b old : List UInt8) :
    transfer (f ++ old.drop f.length) f.length b = f ++ b ++ old.drop (f ++ b).length := by
  by_cases hb : b = []
  · rw [hb, transfer_nil, List.append_nil]
  · have h := List.splice_append 0 f (old.drop f.length) b 0
    rw [Nat.add_zero] at h
    rw [transfer_of_ne_nil hb, h, List.splice]
    simp [List.drop_drop]

/-- What reaching the limit does in plain mode. -/
theorem limitReached_plain (io : DataIo) (hw : s.ri.riFlags.doWrap = false)
    (hz : s.ri.riFlags.doZap = false) :
    (limitReached cfg io s false).1 = s ∨
      (limitReached cfg io s false).1 = (closeFd s).mapFlags fun f ↦ { f with doDisk := false } := by
  unfold limitReached
  split_ifs with h₁ h₂ h₃ h₄
  · exact .inl rfl
  · exact absurd h₃ (Bool.eq_false_iff.1 hw)
  · exact absurd h₄ (Bool.eq_false_iff.1 hz)
  · exact .inr rfl
  · exact .inl rfl

/-- The records of a file, followed by more of them. -/
theorem traceFile_append (prf : PaddedRbtraceFheader) (es b : List RbtraceEntry) :
    traceFile prf es ++ b.flatMap RbtraceEntry.toBytes = traceFile prf (es ++ b) := by
  rw [traceFile, traceFile, List.flatMap_append, List.append_assoc]

/-- Appending is about the file and the mode only. -/
theorem Appending.of_frame (h : Appending cfg path old s es) (hhdr : t.hdr = s.hdr)
    (hdisk : t.disk = s.disk) (hfd : t.rfd.fd = none ∨ t.rfd = s.rfd)
    (hw : t.ri.riFlags.doWrap = s.ri.riFlags.doWrap) (hz : t.ri.riFlags.doZap = s.ri.riFlags.doZap)
    (ho : t.ri.riFlags.doOpen = s.ri.riFlags.doOpen) : Appending cfg path old t es := by
  refine ⟨hw.trans h.noWrap, hz.trans h.noZap, ho.trans h.doOpen, ?_, ?_, ?_, ?_⟩
  · rw [hdisk, hhdr]
    exact h.file
  · rw [hhdr]
    exact h.wrapPos
  · rw [hhdr]
    exact h.nrRecords
  · rcases hfd with hfd | hfd
    · exact .inl hfd
    · rw [hfd, hhdr]
      exact h.fd

/-- **A write of a buffer** appends it to the new records. -/
theorem Appending.write {io : DataIo} {doFlush : Bool} (h : Appending cfg path old s es)
    (hio : io.Ok) (hfd : s.rfd.fd ≠ none) :
    ∃ t, rbtraceWriteData cfg io doFlush s = some t ∧
      Appending cfg path old t (es ++ (dataWritten cfg io doFlush s).flatten) := by
  have hrfd := h.fd.resolve_left hfd
  have hpath : s.rfd.fd = some path := congrArg RingFileData.fd hrfd
  have hout : dataWritten cfg io doFlush s =
      [bufRecords s.reBase (selectBuffer cfg doFlush s).1 (selectBuffer cfg doFlush s).2] :=
    if_pos ⟨hfd, getsThrough_of_noError hio.data _⟩
  have hwrite := @rbtraceWriteData_of_noWrap cfg s path io doFlush _ _ _ hio.data hpath h.file rfl
    h.noWrap
  refine ⟨_, hwrite, ?_⟩
  rw [hout, List.flatten_singleton]
  set b := bufRecords s.reBase (selectBuffer cfg doFlush s).1 (selectBuffer cfg doFlush s).2
  set u := s.afterAppend path (selectBuffer cfg doFlush s).1 (selectBuffer cfg doFlush s).2
    (transfer (traceFile s.hdr es ++ old.drop (traceFile s.hdr es).length) s.rfd.seek
      (b.flatMap RbtraceEntry.toBytes))
  have hu : Appending cfg path old u (es ++ b) := by
    refine ⟨h.noWrap, h.noZap, h.doOpen, ?_, h.wrapPos, h.nrRecords, .inr ?_⟩
    · have hseek : s.rfd.seek = (traceFile s.hdr es).length := congrArg RingFileData.seek hrfd
      rw [show u.disk path = _ from Function.update_self _ _ _, hseek, transfer_over,
        traceFile_append]
      rfl
    · have hseek : s.rfd.seek = (traceFile s.hdr es).length := congrArg RingFileData.seek hrfd
      have hlen : b.length = (selectBuffer cfg doFlush s).2 := length_bufRecords _ _ _
      refine congrArg (RingFileData.mk (some path)) ?_
      rw [hseek, length_traceFile, length_traceFile, List.length_append, hlen]
      ring
  have hv : Appending cfg path old (limitReached cfg io u false).1 (es ++ b) := by
    rcases @limitReached_plain cfg u io hu.noWrap hu.noZap with hl | hl <;> rw [hl]
    · exact hu
    · exact hu.of_frame rfl rfl (.inl rfl) rfl rfl rfl
  obtain ⟨hr, hh, hd, -⟩ := takeCounters_frame cfg io (limitReached cfg io u false).1
  have hflags := congrArg Ctl.flags (takeCounters_ctl cfg io (limitReached cfg io u false).1)
  exact hv.of_frame hh hd (.inr hr) (congrArg RiFlags.doWrap hflags)
    (congrArg RiFlags.doZap hflags) (congrArg RiFlags.doOpen hflags)

/-! ## Steps -/

/-- **The pass that opens the file** puts the header over the old bytes. -/
theorem Awaiting.pass {io : PassIo} (h : Awaiting path old s) (hf : FlagsOk s.ctl) (hio : io.Ok) :
    ∃ t, rbtraceThreadFn cfg io s = some t ∧ Appending cfg path old t [] := by
  have hfd : s.rfd.fd = none := hf.fd_eq_none h.doOpen h.doClose
  have hpath : headerPath s.ri.riFlags.doZap io.header s = path := by
    rw [headerPath, if_neg (Bool.eq_false_iff.1 h.noZap), h.path_eq]
  have hbytes : transfer old 0 (rbtraceFormatHeader cfg io.header.ts io.header.gm).toBytes =
      traceFile (rbtraceFormatHeader cfg io.header.ts io.header.gm) [] ++
        old.drop (traceFile (rbtraceFormatHeader cfg io.header.ts io.header.gm) []).length := by
    have h := transfer_over [] (rbtraceFormatHeader cfg io.header.ts io.header.gm).toBytes old
    rw [List.length_nil, List.drop_zero, List.nil_append, List.nil_append] at h
    rw [h, traceFile, List.flatMap_nil, List.append_nil]
  rw [rbtraceThreadFn, if_neg (Bool.eq_false_iff.1 h.doClose), if_pos h.doOpen]
  refine ⟨_, rfl, ?_⟩
  simp only [rbtraceWriteHeader, openFile, hfd, ne_eq, not_true_eq_false, if_false,
    hio.header.openError, hpath, h.file, pwriteFd_of_noError hio.header.pwrites, if_true,
    Sys.mapFlags, Function.update_self, Option.getD_some, Function.update_idem, hbytes]
  refine ⟨h.noWrap, h.noZap, rfl, Function.update_self _ _ _, rfl, rfl, .inr ?_⟩
  refine congrArg (RingFileData.mk (some path)) ?_
  rw [length_traceFile]
  rfl

/-- What the control operations of a plain session leave alone. -/
theorem rbtraceCtrl_of_isPlain {op : RbtraceOp} (hop : (Event.ctrl op).IsPlain) (sh : Shm) :
    (rbtraceCtrl op sh).1.ri.riFlags.doWrap = sh.ri.riFlags.doWrap ∧
      (rbtraceCtrl op sh).1.ri.riFlags.doZap = sh.ri.riFlags.doZap ∧
      (rbtraceCtrl op sh).1.ri.riFlags.doOpen = sh.ri.riFlags.doOpen ∧
      (rbtraceCtrl op sh).1.ri.riFilePath = sh.ri.riFilePath ∧
      (sh.ri.riFlags.doDisk = false →
        (rbtraceCtrl op sh).1.ri.riFlags.doClose = sh.ri.riFlags.doClose) := by
  have hstep := rbtraceCtrl_step op sh
  generalize rbtraceCtrl op sh = r at hstep ⊢
  cases hstep with
  | opens | wraps | zaps => exact absurd hop id
  | closes hd => exact ⟨rfl, rfl, rfl, rfl, fun h ↦ absurd hd (Bool.eq_false_iff.1 h)⟩
  | _ => exact ⟨rfl, rfl, rfl, rfl, fun _ ↦ rfl⟩

/-- Outside zap mode no rollover can fail. -/
theorem zapReopens_of_noZap {cfg : RingConfig} (hz : s.ri.riFlags.doZap = false) (e : Event) :
    ZapReopens cfg s e := by
  cases e with
  | pass io => exact fun _ h ↦ absurd h (Bool.eq_false_iff.1 hz)
  | call st a => trivial
  | ctrl op => trivial

/-- **One step of a session.** -/
theorem Overwriting.step {bufs : List (List RbtraceEntry)} {e : Event}
    (h : Overwriting cfg path old s bufs) (he : e.IsPlain) (hio : e.IoOk)
    (ht : (system cfg).step s e = some t) :
    Overwriting cfg path old t (bufs ++ writes cfg s e) := by
  obtain ⟨hf, hb, hstate⟩ := h
  have hz : s.ri.riFlags.doZap = false := by
    rcases hstate with ⟨h, -⟩ | h <;> exact h.noZap
  obtain ⟨t', ht', hf', hb'⟩ := @backed_step_iff cfg s e hf hb
  obtain rfl : t' = t := Option.some.inj (ht'.symm.trans ht)
  refine ⟨hf', hb'.2 (zapReopens_of_noZap hz e), ?_⟩
  cases e with
  | call st a =>
      cases ht
      have hflags := rbtrace_riFlags cfg st s.toShm a
      rw [show writes cfg s (.call st a) = [] from rfl, List.append_nil]
      rcases hstate with ⟨h, hnil⟩ | h
      · refine .inl ⟨⟨?_, ?_, ?_, ?_, ?_, h.file⟩, hnil⟩
        · exact (congrArg RiFlags.doWrap hflags).trans h.noWrap
        · exact (congrArg RiFlags.doZap hflags).trans h.noZap
        · exact (congrArg RiFlags.doOpen hflags).trans h.doOpen
        · exact (congrArg RiFlags.doClose hflags).trans h.doClose
        · exact (rbtrace_riFilePath cfg st s.toShm a).trans h.path_eq
      · exact .inr (h.of_frame rfl rfl (.inr rfl) (congrArg RiFlags.doWrap hflags)
          (congrArg RiFlags.doZap hflags) (congrArg RiFlags.doOpen hflags))
  | ctrl op =>
      cases ht
      obtain ⟨hw, hz, ho, hp, hc⟩ := rbtraceCtrl_of_isPlain he s.toShm
      rw [show writes cfg s (.ctrl op) = [] from rfl, List.append_nil]
      rcases hstate with ⟨h, hnil⟩ | h
      · refine .inl ⟨⟨hw.trans h.noWrap, hz.trans h.noZap, ho.trans h.doOpen, ?_, hp.trans h.path_eq,
          h.file⟩, hnil⟩
        exact (hc (hf.disk_of_open h.doOpen)).trans h.doClose
      · exact .inr (h.of_frame rfl rfl (.inr rfl) hw hz ho)
  | pass io =>
      rw [writes_pass]
      rcases hstate with ⟨h, rfl⟩ | h
      · obtain ⟨u, hu, happ⟩ := @Awaiting.pass cfg path old s io h hf hio
        obtain rfl : u = t' := Option.some.inj (hu.symm.trans ht)
        rw [passOut_of_open _ io h.doClose h.doOpen]
        exact .inr happ
      · have hwrite : ∀ {d : DataIo} {b : Bool} {u : Sys} {acc : List (List RbtraceEntry)}, d.Ok →
            u.rfd.fd ≠ none → Appending cfg path old u acc.flatten →
            ∃ v, rbtraceWriteData cfg d b u = some v ∧
              Appending cfg path old v (acc ++ dataWritten cfg d b u).flatten := by
          intro d b u acc hd hfd hu
          rw [List.flatten_append]
          exact hu.write hd hfd
        have hfinish : ∀ {v : Sys} {acc : List (List RbtraceEntry)},
            Appending cfg path old v acc.flatten →
            Appending cfg path old v.finishClose acc.flatten := by
          intro v acc hv
          have hflags := finishClose_riFlags v
          exact hv.of_frame (finishClose_hdr v) (finishClose_disk v) (.inl (finishClose_fd v))
            (by rw [hflags]) (by rw [hflags]) (by rw [hflags])
        obtain ⟨u, hu, happ⟩ := pass_rule (P := fun u acc ↦ Appending cfg path old u acc.flatten)
          (Q := fun u acc ↦ Appending cfg path old u acc.flatten) hf hb (fun _ ↦ h.doOpen) h
          (fun hfd _ ↦ hwrite hio.inactive hfd h) (fun _ hu ↦ hu)
          fun _ hfd _ hu ↦ (hwrite hio.active hfd hu).imp fun v hv ↦ ⟨hv.1, hfinish hv.2⟩
        obtain rfl : u = t' := Option.some.inj (hu.symm.trans ht)
        exact .inr happ

/-- A successful open starts a session over whatever the file holds. -/
theorem overwriting_of_open (hf : FlagsOk s.ctl) (hb : Backed s.ctl)
    (hw : s.ri.riFlags.doWrap = false) (hz : s.ri.riFlags.doZap = false)
    (hc : s.ri.riFlags.doClose = false)
    (hret : (rbtraceCtrl (.open (some path)) s.toShm).2 = 0) :
    Overwriting cfg path ((s.disk path).getD [])
      { s with toShm := (rbtraceCtrl (.open (some path)) s.toShm).1 } [] := by
  obtain ⟨hflags, hbacked⟩ := hf.ctrlCtl (.open (some path))
  replace hbacked := hbacked hb
  obtain ⟨-, -, heq⟩ := rbtraceCtrl_open hret
  rw [ctrlCtl, heq] at hflags hbacked
  rw [heq]
  exact ⟨hflags, hbacked, .inl ⟨⟨hw, hz, rfl, hc, rfl, rfl⟩, rfl⟩⟩

/-- **A whole session** in plain mode: what the file holds once it has been opened. -/
theorem appending_of_session {evs : List Event} (hf : FlagsOk s.ctl) (hb : Backed s.ctl)
    (hw : s.ri.riFlags.doWrap = false) (hz : s.ri.riFlags.doZap = false)
    (hc : s.ri.riFlags.doClose = false)
    (hret : (rbtraceCtrl (.open (some path)) s.toShm).2 = 0)
    (hrun : (system cfg).run s (.ctrl (.open (some path)) :: evs) = some t)
    (hevs : ∀ e ∈ evs, e.IsPlain ∧ e.IoOk) (hopened : t.ri.riFlags.doOpen = false) :
    Appending cfg path ((s.disk path).getD []) t
      ((system cfg).collect (writes cfg) s (.ctrl (.open (some path)) :: evs)).flatten := by
  obtain ⟨s₁, hs₁, hrun'⟩ := (system cfg).run_cons_eq_some.1 hrun
  have hstart : Overwriting cfg path ((s.disk path).getD []) s₁ [] := by
    cases hs₁
    exact overwriting_of_open hf hb hw hz hc hret
  have hg : (system cfg).Guarded (fun _ e ↦ True ∧ e.IsPlain ∧ e.IoOk) s₁ evs :=
    (Machine.guarded_true s₁ evs).and_forall hevs
  have hall := hg.collect_invariant (fun _ _ _ _ h hok ht ↦ h.step hok.2.1 hok.2.2 ht) hstart hrun'
  rw [Machine.collect_cons _ hs₁]
  rcases hall.state with ⟨h, -⟩ | h
  · exact absurd h.doOpen (Bool.eq_false_iff.1 hopened)
  · exact h

/-! ## The theorem -/

/-- An open is accepted only when nothing is recorded. -/
theorem backed_of_open (hc : s.ri.riFlags.doClose = false)
    (hret : (rbtraceCtrl (.open (some path)) s.toShm).2 = 0) : Backed s.ctl := by
  obtain ⟨-, hnd, -⟩ := rbtraceCtrl_open hret
  rintro (hd | hd)
  · exact absurd hd (Bool.eq_false_iff.1 hnd)
  · exact absurd hd (Bool.eq_false_iff.1 hc)

/-- Old bytes behind the new records are listed, those of a new file are not. -/
theorem listing_over_iff {prf : PaddedRbtraceFheader} {pio : PrbtIo} (hpio : pio.Ok)
    (hpos : 0 < prf.hdr.nrRecords) (hsize : sizeofEntry * prf.hdr.nrRecords < 2 ^ 64)
    (hwrap : prf.hdr.wrapPos = 0) (es : List RbtraceEntry) (old : List UInt8) :
    listing pio (traceFile prf es ++ old.drop (traceFile prf es).length) =
        listing pio (traceFile prf es) ↔
      old.length ≤ (traceFile prf es).length := by
  constructor
  · intro h
    by_contra hlong
    have hcount : ∀ body, (listing pio (prf.toBytes ++ body)).length = recordsBegun body.length :=
      length_listing hpio hpos hsize hwrap
    have hlen := congrArg List.length h
    have hrecs : (es.flatMap RbtraceEntry.toBytes).length = sizeofEntry * es.length :=
      Blocks.length_flatMap RbtraceEntry.length_toBytes es
    rw [traceFile, List.append_assoc, hcount, hcount, hrecs, recordsBegun_mul] at hlen
    refine (lt_recordsBegun ?_).ne' hlen
    rw [List.length_append, hrecs, List.length_drop]
    rw [traceFile] at hlong
    omega
  · intro hshort
    rw [List.drop_eq_nil_of_le hshort, List.append_nil]

/-- **When a session's file holds only that session.**  A session in plain mode is run
over any prior content of its path, and once more with the path removed before the open.
The reader lists the same for both exactly if the prior content is no longer than the
header and the records that the session writes. -/
theorem listing_eq_without_prior_iff (cfg : ValidRingConfig) (hN : 0 < cfg.rcSize) {disk : Disk}
    {pre evs : List Event} {path : CStr} {s₀ t : Sys}
    (h₀ : (system cfg).run (rbtraceDaemonInit cfg disk) pre = some s₀)
    (hwrap : s₀.ri.riFlags.doWrap = false) (hzap : s₀.ri.riFlags.doZap = false)
    (hpending : s₀.ri.riFlags.doClose = false)
    (hopen : (rbtraceCtrl (.open (some path)) s₀.toShm).2 = 0)
    (hrun : (system cfg).run s₀ (.ctrl (.open (some path)) :: evs) = some t)
    (hevs : ∀ e ∈ evs, e.IsPlain ∧ e.IoOk) (hopened : t.ri.riFlags.doOpen = false)
    {pio : PrbtIo} (hpio : pio.Ok) :
    ∃ t' file file',
      (system cfg).run (s₀.withDisk (Function.update s₀.disk path none))
        (.ctrl (.open (some path)) :: evs) = some t' ∧
      t.disk path = some file ∧ t'.disk path = some file' ∧
      (listing pio file = listing pio file' ↔
        ((s₀.disk path).getD []).length ≤ 512 + 56 *
          ((system cfg).collect (writes cfg) s₀ (.ctrl (.open (some path)) :: evs)).flatten.length) := by
  obtain ⟨-, hf⟩ := ok_of_run hN h₀
  have hb := backed_of_open hpending hopen
  obtain ⟨⟨d, hrun'⟩, hwrites⟩ := run_withDisk hrun (Function.update s₀.disk path none)
  have happ := appending_of_session hf hb hwrap hzap hpending hopen hrun hevs hopened
  have hnew := @appending_of_session cfg path (s₀.withDisk (Function.update s₀.disk path none)) _ evs
    hf hb hwrap hzap hpending hopen hrun' hevs hopened
  rw [hwrites] at hnew
  have hfile' := hnew.file
  rw [show (s₀.withDisk (Function.update s₀.disk path none)).disk path = none from
    Function.update_self _ _ _, Option.getD_none, List.drop_nil, List.append_nil,
    show (t.withDisk d).hdr = t.hdr from rfl] at hfile'
  refine ⟨_, _, _, hrun', happ.file, hfile', ?_⟩
  have hsize : sizeofEntry * t.hdr.hdr.nrRecords < 2 ^ 64 :=
    cfg.pageSize_lt happ.nrRecords
  refine (listing_over_iff hpio (happ.nrRecords ▸ hN) hsize happ.wrapPos _ _).trans ?_
  rw [length_traceFile, RBTRACE_FHEADER_SIZE, sizeofEntry]

/-- A session of one record, from its open to its close. -/
def oneRecord : List Event :=
  [.ctrl (.open (some [116])), .pass .smooth, .trace 2, .ctrl .close, .pass .smooth]

/-- The daemon of a ring of one record on a disk that holds `n` old bytes. -/
def startOver (n : Nat) : Sys :=
  rbtraceDaemonInit oneRing fun q ↦ if q = [116] then some (List.replicate n 7) else none

/-- Sixty old bytes are gone after the header. -/
theorem listing_eq_without_sixty : ∃ t t' file file',
    (system oneRing).run (startOver 60) oneRecord = some t ∧
    (system oneRing).run ((startOver 60).withDisk (Function.update (startOver 60).disk [116] none))
      oneRecord = some t' ∧
    t.disk [116] = some file ∧ t'.disk [116] = some file' ∧
    listing .smooth file = listing .smooth file' := by
  have hsome : ((system oneRing).run (startOver 60) oneRecord).isSome := by decide
  obtain ⟨t, hrun⟩ := Option.isSome_iff_exists.1 hsome
  have hopened : ((system oneRing).run (startOver 60) oneRecord).map (fun t ↦ t.ri.riFlags.doOpen) =
      some false := by decide
  rw [hrun] at hopened
  have hevs : ∀ e ∈ oneRecord.tail, e.IsPlain ∧ e.IoOk := by
    simp [oneRecord, Event.IsPlain, Event.IoOk, Event.trace, PassIo.smooth_ok]
  have h₀ : (system oneRing).run (rbtraceDaemonInit oneRing (startOver 60).disk) [] =
      some (startOver 60) := rfl
  obtain ⟨t', file, file', hrun', hfile, hfile', hiff⟩ := listing_eq_without_prior_iff oneRing
    (by decide) h₀ rfl rfl rfl (by decide) hrun hevs (Option.some.inj hopened) PrbtIo.smooth_ok
  refine ⟨t, t', file, file', hrun, hrun', hfile, hfile', hiff.2 ?_⟩
  exact le_trans (show 60 ≤ 512 by decide) (Nat.le_add_right _ _)

/-- An old file of two records under a session of one: the second is listed too. -/
theorem listing_ne_without_two : ∃ t t' file file',
    (system oneRing).run (startOver 624) oneRecord = some t ∧
    (system oneRing).run ((startOver 624).withDisk (Function.update (startOver 624).disk [116] none))
      oneRecord = some t' ∧
    t.disk [116] = some file ∧ t'.disk [116] = some file' ∧
    listing .smooth file ≠ listing .smooth file' := by
  have h : ∃ t ∈ (system oneRing).run (startOver 624) oneRecord,
      ∃ t' ∈ (system oneRing).run
        ((startOver 624).withDisk (Function.update (startOver 624).disk [116] none)) oneRecord,
      ∃ file ∈ t.disk [116], ∃ file' ∈ t'.disk [116],
        (listing .smooth file).length ≠ (listing .smooth file').length := by
    decide +kernel
  obtain ⟨t, ht, t', ht', file, hfile, file', hfile', hlen⟩ := h
  exact ⟨t, t', file, file', ht, ht', hfile, hfile', fun heq ↦ hlen (congrArg List.length heq)⟩

end Rbtrace
