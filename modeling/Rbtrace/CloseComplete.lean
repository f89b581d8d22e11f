import Rbtrace.Conservation

/-!
# Closing a file

What had been accepted when the file was asked to be closed is on disk, or was reported,
once the file is closed: if no full buffer waits to be flushed when the daemon reads
`ri_slot` to flush the active one (`closed_of_session`).

The flush of the active buffer is the end of the session as `Live` describes it.  From the
read of `ri_slot` on, what matters is only that the records it covers get written
(`Settling`); after that the books cannot get worse (`Settled`), and when the file is
closed nothing will be written any more (`Finished`).
-/

namespace Rbtrace

open CInt

/-! ## After the flush -/

/-- The daemon has read `ri_slot` and is about to write the records up to it. -/
structure Settling (cfg : RingConfig) (s : Inter) (L : Ledger) (off n : Nat) : Prop where
  pc : ∃ w : Site, w.doFlush = true ∧
    (s.pc = .data w (.wrap off n) ∨ ∃ upd, s.pc = .data w (.write off n upd))
  io : s.io.Ok
  fd : s.sys.rfd.fd ≠ none
  doClose : s.sys.ri.riFlags.doClose = true
  doOpen : s.sys.ri.riFlags.doOpen = false
  /-- Calls do not touch these records any more. -/
  out : (s.sys.ri.riCirOff = off ∧ (n : Int) ≤ s.sys.ri.riSlot + 1 ∧ s.sys.ri.riFlush = 0) ∨
    (s.sys.ri.riAltOff = off ∧ n ≤ cfg.rcSize ∧ s.sys.ri.riFlush ≠ 0)
  closed : L.closed ≤ L.written + bufRecords s.sys.reBase off n + L.reported.flatten

/-- Where the daemon can be between the flush of the active buffer and the end of the close. -/
def DaemonPc.settled : DaemonPc → Bool
  | .idle | .testClose => true
  | .clearLoad _ | .clearStore _ _ => true
  | .data ⟨false, true⟩ (.limClose _) | .data ⟨false, true⟩ (.takeLost _)
  | .data ⟨false, true⟩ (.takeFlush _) | .data ⟨false, true⟩ (.report _) => true
  | pc => pc.closing

/-- The active buffer has been flushed and the close is still pending. -/
structure Settled (s : Inter) (L : Ledger) : Prop where
  pc : s.pc.settled
  flags : HoldsOf (fun f ↦ f.doClose = true ∧ f.doOpen = false) s.sys.ri.riFlags s.pc
  fd : s.pc = .closeLoad ∨ (∃ f, s.pc = .closeStore f) → s.sys.rfd.fd = none
  closed : L.closed ≤ L.written + L.reported.flatten

/-- Where the daemon can be when no file is open and none is asked for. -/
def DaemonPc.finished : DaemonPc → Bool
  | .idle | .testClose | .testOpen | .testDisk | .testFlush _ | .testDoFlush _ => true
  | .data _ .off | .closeFile | .closeLoad | .closeStore _ => true
  | _ => false

/-- The file is closed. -/
structure Finished (s : Inter) : Prop where
  pc : s.pc.finished
  flags : HoldsOf (fun f ↦ f.doOpen = false) s.sys.ri.riFlags s.pc
  fd : s.sys.rfd.fd = none

section

variable {cfg : RingConfig} {s t : Inter} {L : Ledger}

/-- The daemon's notes do not take anything back. -/
theorem Ledger.enter_daemonNotes (L : Ledger) (s : Inter) :
    (L.enter (daemonNotes cfg s)).closed = L.closed ∧
      L.written + (L.reported.flatten : Multiset RbtraceEntry) ≤
        (L.enter (daemonNotes cfg s)).written + (L.enter (daemonNotes cfg s)).reported.flatten := by
  unfold daemonNotes
  split
  · split
    · refine ⟨rfl, ?_⟩
      exact add_le_add (Multiset.le_add_right _ _) le_rfl
    · exact ⟨rfl, le_rfl⟩
  · exact ⟨rfl, le_rfl⟩
  · rename_i w l _
    obtain ⟨-, hr, hw, hcl⟩ := @Ledger.enter_callNotes cfg s.sys.toShm (L.note (.reported l))
      (s.io.data w).stamps (lostArgs l)
    refine ⟨hcl, ?_⟩
    simp only [Ledger.enter_cons, Ledger.reported, hr, hw]
    refine add_le_add le_rfl ?_
    simp only [Ledger.note, List.flatMap_append, List.flatten_append, ← Multiset.coe_add]
    exact Multiset.le_add_right _ _
  · exact ⟨rfl, le_rfl⟩

/-- A close finds the close still pending. -/
theorem notes_ctrl_of_close (h : s.sys.ri.riFlags.doClose = true) (op : RbtraceOp) :
    notes cfg s (.ctrl op) = [] := by
  cases op with
  | close => simp [notes, h]
  | _ => rfl

/-! ## Settled -/

theorem Settled.flow {ri ri' : RingInfo} {pc pc' : DaemonPc} (hf : Flow cfg ri pc ri' pc')
    (hpc : pc.settled)
    (hflags : HoldsOf (fun f ↦ f.doClose = true ∧ f.doOpen = false) ri.riFlags pc)
    (hstore : ∀ f, pc ≠ .closeStore f) :
    pc'.settled ∧ HoldsOf (fun f ↦ f.doClose = true ∧ f.doOpen = false) ri'.riFlags pc' := by
  obtain ⟨h₁, h₂⟩ := hflags
  refine ⟨?_, ?_, fun g hg ↦ (hf.held g hg).1 ▸ h₁⟩
  · clear h₂ hstore
    cases hf with
    | header hf | headerReturn hf => cases hpc
    | rollover hf => simp_all [DaemonPc.settled]
    | @rolloverReturn w upd pc ri' hf =>
        obtain ⟨_ | _, _ | _⟩ := w <;> simp_all [DaemonPc.settled]
    | @data w pc ri' pc' hf =>
        obtain ⟨_ | _, _ | _⟩ := w <;> cases hf <;> simp_all [DaemonPc.settled]
    | @dataRollover w pc ri' upd hf =>
        obtain ⟨_ | _, _ | _⟩ := w <;> cases hf <;> simp_all [DaemonPc.settled]
    | @dataReturn w pc ri' hf =>
        obtain ⟨_ | _, _ | _⟩ := w <;> cases hf <;> simp_all [DaemonPc.settled, Site.return]
    | _ => simp_all [DaemonPc.settled]
  · clear hpc
    cases hf with
    | header hf | headerReturn hf | rollover hf | rolloverReturn hf => cases hf <;> simp_all
    | data hf | dataRollover hf | dataReturn hf => cases hf <;> simp_all
    | _ => simp_all

/-- How the daemon gets to the end of the close. -/
theorem Flow.closed {ri ri' : RingInfo} {pc pc' : DaemonPc} (hf : Flow cfg ri pc ri' pc')
    (h : pc' = .closeLoad ∨ ∃ f, pc' = .closeStore f) : pc = .closeFile ∨ pc = .closeLoad := by
  cases hf with
  | @dataReturn w =>
      unfold Site.return at h
      split at h <;> simp at h
  | _ => simp_all

/-- A step of the daemon after the flush, up to the end of the close. -/
theorem Settled.daemon (h : Settled s L) (ht : s.daemon cfg = some t)
    (hstore : ∀ f, s.pc ≠ .closeStore f) : Settled t (L.enter (daemonNotes cfg s)) := by
  obtain ⟨hcl, hle⟩ := @Ledger.enter_daemonNotes cfg L s
  have hclosed := h.closed.trans hle
  rw [← hcl] at hclosed
  simp only [Inter.daemon] at ht
  split at ht
  · rename_i w l hrep
    cases ht
    have hpc : s.pc = .data w (.report l) := report_eq_some hrep
    have hset := h.pc
    rw [hpc] at hset
    refine ⟨?_, ⟨?_, ?_⟩, ?_, hclosed⟩
    · obtain ⟨_ | _, _ | _⟩ := w <;> simp_all [DaemonPc.settled, Site.return]
    · simp only [Sys.trace, rbtrace_riFlags]
      exact h.flags.1
    · unfold Site.return
      split <;> simp
    · unfold Site.return
      split <;> simp
  · obtain ⟨r, hr, rfl⟩ := Option.map_eq_some_iff.1 ht
    obtain ⟨hpc', hflags'⟩ := Settled.flow (daemonStep_flow hr) h.pc h.flags hstore
    refine ⟨hpc', hflags', fun hend ↦ ?_, hclosed⟩
    rcases (daemonStep_flow hr).closed hend with hpc | hpc
    · rw [hpc] at hr
      cases hr
      dsimp only [closeFile]
      split <;> rename_i hfd
      · rfl
      · exact not_not.1 hfd
    · have hfd := h.fd (.inl hpc)
      rw [hpc] at hr
      cases hr
      exact hfd

/-- A step after the flush: the close stays pending, or it is over. -/
theorem Settled.step {e : InterEvent} (h : Settled s L) (hopen : NoOpen s e)
    (ht : (interleaved cfg).step s e = some t) :
    Settled t (L.enter (notes cfg s e)) ∨ Finished t := by
  cases e with
  | call st a =>
      cases ht
      obtain ⟨-, hr, hw, hcl⟩ := @Ledger.enter_callNotes cfg s.sys.toShm L st a
      refine .inl ⟨h.pc, ?_, h.fd, ?_⟩
      · simp only [Sys.trace, rbtrace_riFlags]
        exact h.flags
      · simp only [notes, Ledger.reported, hr, hw, hcl]
        exact h.closed
  | wake io =>
      simp only [interleaved, Inter.step] at ht
      split at ht <;> cases ht
      exact .inl ⟨rfl, ⟨h.flags.1, by simp⟩, by simp, h.closed⟩
  | ctrl op =>
      cases ht
      obtain ⟨-, -, ho, -⟩ := rbtraceCtrl_of_noOpen hopen
      refine .inl ⟨h.pc, ⟨⟨?_, ho.trans h.flags.1.2⟩, h.flags.2⟩, h.fd, ?_⟩
      · exact rbtraceCtrl_requests op s.sys.toShm .closing h.flags.1.1
      · rw [notes_ctrl_of_close h.flags.1.1]
        exact h.closed
  | daemon =>
      by_cases hstore : ∃ f, s.pc = .closeStore f
      · obtain ⟨f, hpc⟩ := hstore
        have hfd := h.fd (.inr ⟨f, hpc⟩)
        have hf := h.flags.2 f (by rw [hpc]; rfl)
        obtain ⟨s, io, pc⟩ := s
        obtain rfl : pc = _ := hpc
        cases ht
        exact .inr ⟨rfl, ⟨hf.2, by simp⟩, hfd⟩
      · exact .inl (h.daemon ht fun f hf ↦ hstore ⟨f, hf⟩)

/-! ## Finished -/

/-- The file stays closed. -/
theorem Finished.step {e : InterEvent} (h : Finished s) (hopen : NoOpen s e)
    (ht : (interleaved cfg).step s e = some t) : Finished t := by
  cases e with
  | call st a =>
      cases ht
      refine ⟨h.pc, ?_, h.fd⟩
      simp only [Sys.trace, rbtrace_riFlags]
      exact h.flags
  | wake io =>
      simp only [interleaved, Inter.step] at ht
      split at ht <;> cases ht
      exact ⟨rfl, ⟨h.flags.1, by simp⟩, h.fd⟩
  | ctrl op =>
      cases ht
      obtain ⟨-, -, ho, -⟩ := rbtraceCtrl_of_noOpen hopen
      exact ⟨h.pc, ⟨ho.trans h.flags.1, h.flags.2⟩, h.fd⟩
  | daemon =>
      obtain ⟨s, io, pc⟩ := s
      obtain ⟨hpc, ⟨hflags, hheld⟩, hfd⟩ := h
      dsimp only at hpc hflags hheld hfd
      cases pc with
      | idle => cases ht
      | testClose | testOpen | testDisk | testFlush c | testDoFlush c =>
          cases ht
          dsimp only
          split_ifs
          all_goals exact ⟨by simp_all [DaemonPc.finished], ⟨hflags, by simp⟩, hfd⟩
      | closeFile =>
          cases ht
          have hc : closeFile s = s := if_neg (not_not.2 hfd)
          dsimp only
          rw [hc]
          exact ⟨rfl, ⟨hflags, by simp⟩, hfd⟩
      | closeLoad =>
          cases ht
          exact ⟨rfl, ⟨hflags, by simp [hflags]⟩, hfd⟩
      | closeStore f =>
          cases ht
          exact ⟨rfl, ⟨hheld f rfl, by simp⟩, hfd⟩
      | data w pc =>
          cases pc with
          | off =>
              simp only [interleaved, Inter.step, Inter.daemon, DaemonPc.report, daemonStep,
                dataStep, if_pos hfd] at ht
              cases ht
          | _ => cases hpc
      | _ => cases hpc

/-! ## Settling -/

/-- The session ends with the read of `ri_slot`, at which no full buffer may wait. -/
theorem Live.settling (h : Live cfg s L) (hc : Counted cfg s L) (hlt : cfg.rcSize < 2 ^ 31)
    {w : Site} {off : Nat} (hpc : s.pc = .data w (.slot off)) (hz : s.sys.ri.riFlush = 0)
    (ht : s.daemon cfg = some t) : ∃ n, Settling cfg t (L.enter (daemonNotes cfg s)) off n := by
  have hslot := hc.ok.ring.slot_ge
  have hslot' := hc.ok.ring.slot_lt
  have hw : w.doFlush = true := by simpa [hpc] using h.flags.live
  have hdo : s.sys.ri.riFlags.doFlush = true :=
    (hc.ok.pc.tells .flushing (by simpa [hpc] using hw)).1
  have hcir : off = s.sys.ri.riCirOff := h.point.slotOff off (by simp [hpc]) hz
  have hn : (i32 (s.sys.ri.riSlot + 1)).toNat = (s.sys.ri.riSlot + 1).toNat := by
    rw [i32_of_range (by omega) (by omega)]
  have htaken : L.taken = [] := hc.taken (by rw [hpc]; rfl)
  have hun : L.uncounted = [] := List.eq_nil_of_length_eq_zero (by
    rw [hc.tally.uncounted, hz]
    rfl)
  have hall := h.all
  have hd : s.drained = false := by simp [Inter.drained, hpc]
  rw [hd] at hall
  have hstored : (s.sys.view cfg).stored = s.sys.activeRecords := by
    rw [stored_view, if_pos hz, List.nil_append]
  have hnotes : daemonNotes cfg s = [] := by simp [daemonNotes, hpc]
  have hio := h.io (by simp [hpc])
  have hfd := h.fd (by simp [hpc])
  have hopen := h.flags.inFile (by simp [hpc])
  have hclose := h.flags.flush_eq.1.symm.trans hdo
  have hclosed := h.closed
  obtain ⟨s, io, pc⟩ := s
  obtain rfl : pc = _ := hpc
  cases ht
  refine ⟨(s.ri.riSlot + 1).toNat, ⟨w, hw, .inl ?_⟩, hio, hfd, hclose, hopen,
    .inl ⟨hcir.symm, by simp only at hslot ⊢; omega, hz⟩, ?_⟩
  · simp only [Site.next, hn]
  · rw [hnotes, Ledger.enter_nil, hcir]
    refine hclosed.trans (le_of_eq ?_)
    rw [hall, Ledger.discarded, hun, htaken, List.nil_append, List.nil_append]
    change L.written + (s.view cfg).stored + _ = _
    rw [hstored]
    rfl

/-- A call does not touch the records that are about to be written. -/
theorem Settling.call {off n : Nat} (h : Settling cfg s L off n) (hc : Counted cfg s L)
    (hpos : 0 < cfg.rcSize) (hlt : cfg.rcSize < 2 ^ 31) (hfit : CounterFits cfg s.sys.toShm)
    (st : Nat → Stamp) (a : TraceArgs) :
    Settling cfg { s with sys := s.sys.trace cfg st a }
      (L.enter (callNotes cfg st s.sys.toShm a)) off n := by
  have hnn := hc.tally.flush_nonneg
  have hslot := hc.ok.ring.slot_ge
  have hslot' := hc.ok.ring.slot_lt
  have hb := hc.ok.ring.buffers
  have hout := h.out
  obtain ⟨-, hr, hw, hcl⟩ := @Ledger.enter_callNotes cfg s.sys.toShm L st a
  have hkeep : bufRecords (s.sys.trace cfg st a).reBase off n = bufRecords s.sys.reBase off n ∧
      (((s.sys.trace cfg st a).ri.riCirOff = off ∧
          (n : Int) ≤ (s.sys.trace cfg st a).ri.riSlot + 1 ∧
          (s.sys.trace cfg st a).ri.riFlush = 0) ∨
        ((s.sys.trace cfg st a).ri.riAltOff = off ∧ n ≤ cfg.rcSize ∧
          (s.sys.trace cfg st a).ri.riFlush ≠ 0)) := by
    simp only [Sys.trace]
    obtain ⟨hs, he⟩ | ⟨hs, hz, he⟩ | ⟨hs, hz, he⟩ := rbtrace_cases hc.ok.ring hpos hlt st a
    · rw [he]
      exact ⟨bufRecords_update_of_not_mem (by omega), by simp only; omega⟩
    · rw [he]
      exact ⟨bufRecords_update_of_not_mem (by omega), by simp only; omega⟩
    · have hi : i32 (s.sys.ri.riFlush + 1) = s.sys.ri.riFlush + 1 :=
        i32_of_range (by omega) (hfit hs hz).2
      rw [he, hi]
      exact ⟨bufRecords_update_of_not_mem (by omega), by simp only; omega⟩
  refine ⟨h.pc, h.io, h.fd, ?_, ?_, hkeep.2, ?_⟩
  · rw [Sys.trace, rbtrace_riFlags]
    exact h.doClose
  · rw [Sys.trace, rbtrace_riFlags]
    exact h.doOpen
  · rw [hkeep.1, hw, hcl, Ledger.reported, hr]
    exact h.closed

/-- A step before the flush is written: the daemon goes on to write it. -/
theorem Settling.step {off n : Nat} {e : InterEvent} (h : Settling cfg s L off n)
    (hc : Counted cfg s L) (hpos : 0 < cfg.rcSize) (hlt : cfg.rcSize < 2 ^ 31)
    (hfit : CountsOn cfg s e) (hopen : NoOpen s e)
    (ht : (interleaved cfg).step s e = some t) :
    Settling cfg t (L.enter (notes cfg s e)) off n ∨ Settled t (L.enter (notes cfg s e)) := by
  cases e with
  | call st a =>
      cases ht
      exact .inl (h.call hc hpos hlt hfit st a)
  | wake io =>
      obtain ⟨w, -, hpc | ⟨upd, hpc⟩⟩ := h.pc
      all_goals simp [interleaved, Inter.step, hpc] at ht
  | ctrl op =>
      cases ht
      obtain ⟨hring, hmem, ho, -⟩ := rbtraceCtrl_of_noOpen hopen
      obtain ⟨hcir, halt, hs, hf, -⟩ := RingWords.mk.injEq .. ▸ hring
      rw [notes_ctrl_of_close h.doClose]
      refine .inl ⟨h.pc, h.io, h.fd, ?_, ho.trans h.doOpen, ?_, ?_⟩
      · exact rbtraceCtrl_requests op s.sys.toShm .closing h.doClose
      · simp only [hcir, halt, hs, hf]
        exact h.out
      · simp only [hmem]
        exact h.closed
  | daemon =>
      obtain ⟨⟨w, hw, hpc⟩, hio, hfd, hclose, hno, hout, hclosed⟩ := h
      obtain ⟨s, io, pc⟩ := s
      rcases hpc with rfl | ⟨upd, rfl⟩
      · cases ht
        have hshm := wrapSeek_toShm s.ri.riFlags.doWrap (n * sizeofEntry) s
        refine .inl ⟨⟨w, hw, .inr ⟨_, rfl⟩⟩, hio, ?_, ?_, ?_, ?_, ?_⟩
        · dsimp only
          rw [wrapSeek_seek]
          exact hfd
        · simpa only [hshm] using hclose
        · simpa only [hshm] using hno
        · simpa only [hshm] using hout
        · simp only [hshm]
          exact hclosed
      · have hnotes : daemonNotes cfg ⟨s, io, .data w (.write off n upd)⟩ =
            [.wrote (bufRecords s.reBase off n)] :=
          if_pos (writeBuffer_of_noError (hio.data w).data hfd off n).1
        have hpc' : ∀ b, DaemonPc.settled (.data w (.takeLost b)) ∧
            DaemonPc.settled (.data w (.limClose b)) := fun b ↦ by
          obtain ⟨_ | _, _ | _⟩ := w
          all_goals first | exact ⟨rfl, rfl⟩ | cases hw
        cases ht
        have hri := writeBuffer_ri (io.data w).data off n s
        refine .inr ⟨?_, ⟨?_, ?_⟩, ?_, ?_⟩
        · simp only [Site.next]
          split_ifs
          · exact (hpc' _).2
          · exact (hpc' _).1
          · exact (hpc' _).1
        · simp only [hri]
          exact ⟨hclose, hno⟩
        · simp only [Site.next]
          split_ifs <;> simp
        · simp only [Site.next]
          split_ifs <;> simp
        · simp only [notes, hnotes]
          exact hclosed

end

/-! ## The theorem -/

/-- When the daemon reads `ri_slot` to flush the active buffer, no full buffer waits. -/
def FlushesAll (s : Inter) : InterEvent → Prop
  | .daemon => s.pc.readsSlot → s.sys.ri.riFlush = 0
  | _ => True

instance decidableFlushesAll (s : Inter) : ∀ e, Decidable (FlushesAll s e)
  | .daemon => inferInstanceAs (Decidable (_ = _ → _ = _))
  | .call _ _ | .wake _ | .ctrl _ => .isTrue trivial

/-- **Close completeness.**  A file is opened with no close pending; no file is opened after
it and no I/O fails.  Then at the moment the file is closed, everything accepted before the
close was asked for has been written, or belongs to a full buffer that was discarded and is
counted in the amount of a report: as long as no full buffer waits when the active one is
flushed, the daemon takes only what the session has counted, and the counter does not
overflow. -/
theorem closed_of_session (cfg : ValidRingConfig) (hpos : 0 < cfg.rcSize) (disk : Disk)
    {evs₀ evs : List InterEvent} {s₀ s t : Inter} {path : CStr}
    (h₀ : (interleaved cfg).run (Inter.init cfg disk) evs₀ = some s₀)
    (hopen : (rbtraceCtrlOpen (some path) s₀.sys.toShm).2 = 0)
    (hclose : s₀.sys.ri.riFlags.doClose = false)
    (hs : (interleaved cfg).step s₀ (.ctrl (.open (some path))) = some s)
    (hio₀ : s₀.pc ≠ .idle → s₀.io.Ok) (hio : ∀ e ∈ evs, e.IoOk)
    (hflush : s₀.sys.ri.riFlags.doFlush = false) (hrep : s₀.pc.report = none)
    (hsound : (interleaved cfg).Guarded (fun s e ↦ Sound cfg s e ∧ FlushesAll s e) s evs)
    (ht : (interleaved cfg).run s evs = some t) (hpc : t.pc = .closeFile)
    (hfd : t.sys.rfd.fd ≠ none) :
    let L := ledger cfg s evs
    L.closed ≤ L.written + L.reported.flatten ∧
      ∀ r ∈ L.reports, r.1 = r.2.flatten.length ∧ ∀ b ∈ r.2, b.length = cfg.rcSize := by
  have hlt : cfg.rcSize < 2 ^ 31 := cfg.rcSize_lt_int
  have hsize : cfg.rcDataSize / sizeofEntry = cfg.rcSize := cfg.rcDataSize_div
  have hok := Inter.Ok.of_run hpos hlt h₀
  obtain ⟨hc, hl⟩ := live_of_open hok hio₀ hopen hclose hflush hrep hpos hlt hs
  -- the session is live, or its end is settling, settled or finished
  have hstep : ∀ (s : Inter) (L : Ledger) (e : InterEvent) (t : Inter),
      Counted cfg s L ∧ (Live cfg s L ∨ (∃ off n, Settling cfg s L off n) ∨ Settled s L ∨
        Finished s) →
      (Sound cfg s e ∧ FlushesAll s e) ∧ e.IoOk → (interleaved cfg).step s e = some t →
      Counted cfg t (L.enter (notes cfg s e)) ∧ (Live cfg t (L.enter (notes cfg s e)) ∨
        (∃ off n, Settling cfg t (L.enter (notes cfg s e)) off n) ∨
        Settled t (L.enter (notes cfg s e)) ∨ Finished t) := by
    rintro s L e t ⟨hc, h⟩ ⟨⟨hsound, hall⟩, hio⟩ ht
    refine ⟨hc.step hpos hlt hsound.countsOn hsound.noOpen ht, ?_⟩
    rcases h with hl | ⟨off, n, h⟩ | h | h
    · by_cases hslot : e = .daemon ∧ s.pc.readsSlot
      · obtain ⟨rfl, hread⟩ := hslot
        obtain ⟨w, off, hpc⟩ : ∃ w off, s.pc = .data w (.slot off) := by
          unfold DaemonPc.readsSlot at hread
          split at hread
          · exact ⟨_, _, by assumption⟩
          · cases hread
        obtain ⟨n, h⟩ := hl.settling hc hlt hpc (hall hread) ht
        exact .inr (.inl ⟨off, n, h⟩)
      · exact .inl (hl.step hc hpos hlt hsize hio hsound
          (fun he ↦ Bool.eq_false_iff.2 fun hr ↦ hslot ⟨he, hr⟩) ht)
    · rcases h.step hc hpos hlt hsound.countsOn hsound.noOpen ht with h | h
      · exact .inr (.inl ⟨off, n, h⟩)
      · exact .inr (.inr (.inl h))
    · exact .inr (.inr (h.step hsound.noOpen ht))
    · exact .inr (.inr (.inr (h.step hsound.noOpen ht)))
  obtain ⟨hc', h⟩ := (hsound.and_forall hio).foldl_invariant hstep ⟨hc, .inl hl⟩ ht
  refine ⟨?_, fun r hr ↦ ⟨hc'.reports r hr, fun b hb ↦ hc'.tally.full b ?_⟩⟩
  · rcases h with h | ⟨off, n, h⟩ | h | h
    · have hlive := h.flags.live
      rw [hpc] at hlive
      cases hlive
    · obtain ⟨w, -, hw | ⟨upd, hw⟩⟩ := h.pc
      all_goals
        rw [hpc] at hw
        cases hw
    · exact h.closed
    · exact absurd h.fd hfd
  · exact List.mem_append_right _ (List.mem_flatMap.2 ⟨r, hr, hb⟩)

/-- A ring of two records, a full buffer that is discarded, and a close whose pass writes the
full buffer, reports the other and comes to the end of the file. -/
def lossyClose : List InterEvent :=
  .wake .smooth :: .replicate 7 .daemon ++
    [.trace 2, .trace 3, .trace 4, .trace 5, .trace 6, .ctrl .close, .wake .smooth] ++ .replicate 17 .daemon

theorem closed_of_session_five :
    ∃ s ∈ (interleaved twoRing).step
        (Inter.init twoRing fun _ ↦ none) (.ctrl (.open (some [47]))),
      ∃ t ∈ (interleaved twoRing).run s lossyClose, t.pc = .closeFile ∧ t.sys.rfd.fd ≠ none ∧
        let L := ledger twoRing s lossyClose
        L.closed.card = 5 ∧ L.closed ≤ L.written + L.reported.flatten ∧
          ∀ r ∈ L.reports, r.1 = r.2.flatten.length ∧ ∀ b ∈ r.2, b.length = twoRing.rcSize := by
  obtain ⟨s, hs, t, ht, hpc, hfd, hfive, hsound⟩ :
      ∃ s ∈ (interleaved twoRing).step
          (Inter.init twoRing fun _ ↦ none) (.ctrl (.open (some [47]))),
        ∃ t ∈ (interleaved twoRing).run s lossyClose, t.pc = .closeFile ∧ t.sys.rfd.fd ≠ none ∧
          (ledger twoRing s lossyClose).closed.card = 5 ∧
          (interleaved twoRing).Guarded
            (fun s e ↦ Sound twoRing s e ∧ FlushesAll s e) s lossyClose := by
    decide
  have hio : ∀ e ∈ lossyClose, e.IoOk := by
    simp [lossyClose, InterEvent.IoOk, InterEvent.trace, PassIo.smooth_ok]
  have h₀ : (interleaved twoRing).run (Inter.init twoRing fun _ ↦ none) [] =
      some (Inter.init twoRing fun _ ↦ none) := rfl
  exact ⟨s, hs, t, ht, hpc, hfd, hfive, closed_of_session twoRing (by decide) (fun _ ↦ none) h₀
    rfl rfl hs (fun h ↦ absurd rfl h) hio rfl rfl hsound ht hpc hfd⟩

/-! ## Where it fails -/

/-- Two records and a close; the buffers are swapped after the closing pass has found
`ri_flush` zero. -/
def lateSwap : List InterEvent :=
  .wake .smooth :: .replicate 7 .daemon ++
    [.trace 2, .trace 3, .ctrl .close, .wake .smooth, .daemon, .daemon, .trace 4] ++
    .replicate 9 .daemon

/-- The full buffer is neither written nor reported. -/
theorem lateSwap_incomplete :
    ∃ s ∈ (interleaved twoRing).step
        (Inter.init twoRing fun _ ↦ none) (.ctrl (.open (some [47]))),
      ∃ t ∈ (interleaved twoRing).run s lateSwap, t.pc = .closeFile ∧ t.sys.rfd.fd ≠ none ∧
        let L := ledger twoRing s lateSwap
        ¬ L.closed ≤ L.written + L.reported.flatten := by
  decide

end Rbtrace
