import Rbtrace.Conservation

/-!
# The loss accounting

Between passes of the daemon the number of calls that returned 0 since the file was
opened is the number of records written, plus what the ring holds, plus what `ri_flush`
says was discarded, plus what the reports say was.

This holds of every session in which the daemon takes only what the session has counted
(`balanced_of_session`).  It fails when a file is opened right after the size limit has
closed the last one: the pass that closed it has yet to take `ri_flush`, and the first
buffer the new session fills is forgotten (`staleTake_unbalanced`).
-/

namespace Rbtrace

/-- The accounts balance. -/
def Balanced (cfg : RingConfig) (s : Inter) (L : Ledger) : Prop :=
  (L.accepted.card : Int) = L.written.card +
    (if 1 ≤ s.sys.ri.riFlush then (cfg.rcSize : Int) else 0) +
    max (s.sys.ri.riFlush - 1) 0 * cfg.rcSize + (s.sys.ri.riSlot + 1) +
    (L.reports.map Prod.fst).sum

instance (cfg : RingConfig) (s : Inter) (L : Ledger) : Decidable (Balanced cfg s L) :=
  inferInstanceAs (Decidable (_ = _))

/-- The reports say how much was reported. -/
theorem sum_reports {rs : List (Int × List (List RbtraceEntry))}
    (h : ∀ r ∈ rs, r.1 = r.2.flatten.length) :
    (rs.map Prod.fst).sum = ((rs.flatMap Prod.snd).flatten.length : Int) := by
  induction rs with
  | nil => rfl
  | cons r rs ih =>
      rw [List.map_cons, List.sum_cons, List.flatMap_cons, List.flatten_append, List.length_append,
        ih fun r' hr' ↦ h r' (List.mem_cons_of_mem r hr'), h r List.mem_cons_self]
      exact (Int.natCast_add _ _).symm

/-- Between passes the accounts of a session balance. -/
theorem Live.balanced {cfg : RingConfig} {s : Inter} {L : Ledger} (h : Live cfg s L)
    (hc : Counted cfg s L) (hidle : s.pc = .idle) : Balanced cfg s L := by
  have hnn := hc.tally.flush_nonneg
  have hslot := hc.ok.ring.slot_ge
  have htaken : L.taken = [] := hc.taken (by rw [hidle]; rfl)
  have hfull : ∀ b ∈ L.uncounted, b.length = cfg.rcSize := fun b hb ↦
    hc.tally.full b (by simp [Ledger.discarded, hb])
  have hun : (L.uncounted.flatten.length : Int) = max (s.sys.ri.riFlush - 1) 0 * cfg.rcSize := by
    rw [length_flatten_of_forall hfull, hc.tally.uncounted, Int.natCast_mul]
    congr 1
    omega
  have hring : (((s.sys.view cfg).stored.length : Nat) : Int) =
      (if 1 ≤ s.sys.ri.riFlush then (cfg.rcSize : Int) else 0) + (s.sys.ri.riSlot + 1) := by
    rw [stored_view, List.length_append, Shm.activeRecords, length_bufRecords]
    by_cases hz : s.sys.ri.riFlush = 0
    · rw [if_pos hz, if_neg (by omega), List.length_nil]
      omega
    · rw [if_neg hz, if_pos (by omega), Shm.altRecords, length_bufRecords]
      omega
  have hall := congrArg Multiset.card h.all
  have hd : s.drained = false := by simp [Inter.drained, hidle]
  rw [hd, Multiset.card_add, Multiset.card_add, Multiset.coe_card, Multiset.coe_card,
    Ledger.discarded, htaken, List.append_nil, List.flatten_append, List.length_append] at hall
  have hrep := sum_reports hc.reports
  unfold Balanced
  rw [hall, hrep]
  push_cast
  rw [hun]
  change _ + ((((s.sys.view cfg).stored.length : Nat) : Int)) + (_ + (L.reported.flatten.length : Int)) = _
  rw [hring]
  unfold Ledger.reported
  omega

/-! ## Sessions that are not asked to close -/

section

variable {cfg : RingConfig} {s t : Inter}

/-- Without a close a session stays quiet. -/
theorem Quiet.step {e : InterEvent} (h : Quiet s.sys.ri.riFlags s.pc) (hopen : NoOpen s e)
    (hclose : e ≠ .ctrl .close) (ht : (interleaved cfg).step s e = some t) :
    Quiet t.sys.ri.riFlags t.pc := by
  obtain ⟨⟨h₁, h₂⟩, h₃⟩ := h
  cases e with
  | call st a =>
      cases ht
      simp only [Sys.trace, rbtrace_riFlags]
      exact ⟨⟨h₁, h₂⟩, h₃⟩
  | wake io =>
      simp only [interleaved, Inter.step] at ht
      split at ht <;> cases ht
      exact ⟨⟨h₁, by simp⟩, rfl⟩
  | ctrl op =>
      cases ht
      obtain ⟨-, -, -, ⟨-, -, hf⟩ | ⟨hop, -⟩⟩ := rbtraceCtrl_of_noOpen hopen
      · exact ⟨⟨hf.trans h₁, h₂⟩, h₃⟩
      · exact absurd (congrArg InterEvent.ctrl hop) hclose
  | daemon =>
      simp only [interleaved, Inter.step, Inter.daemon] at ht
      split at ht
      · rename_i w l hpc
        cases ht
        have hw : w.doFlush = false := by simpa [report_eq_some hpc] using h₃
        simp only [Sys.trace, rbtrace_riFlags, Site.return, hw]
        exact ⟨⟨h₁, by simp⟩, by simp⟩
      · obtain ⟨r, hr, rfl⟩ := Option.map_eq_some_iff.1 ht
        exact Quiet.flow ⟨⟨h₁, h₂⟩, h₃⟩ (daemonStep_flow hr)

/-- A session is quiet at its start. -/
theorem quiet_of_open {path : CStr} (hok : s.Ok cfg)
    (hopen : (rbtraceCtrlOpen (some path) s.sys.toShm).2 = 0)
    (hflush : s.sys.ri.riFlags.doFlush = false)
    (ht : (interleaved cfg).step s (.ctrl (.open (some path))) = some t) :
    Quiet t.sys.ri.riFlags t.pc := by
  cases ht
  obtain ⟨-, -, heq⟩ := rbtraceCtrl_open hopen
  rw [heq]
  refine ⟨⟨hflush, fun g hg ↦ ?_⟩, ?_⟩
  · exact Bool.eq_false_iff.2 fun h ↦ Bool.eq_false_iff.1 hflush ((hok.pc.held g hg).2 h)
  · exact Bool.eq_false_iff.2 fun h ↦ Bool.eq_false_iff.1 hflush (hok.pc.tells .flushing h).1

/-- A quiet daemon does not flush the active buffer. -/
theorem Quiet.readsSlot {f : RiFlags} {pc : DaemonPc} (h : Quiet f pc) (hl : pc.live) :
    pc.readsSlot = false := by
  obtain ⟨-, h⟩ := h
  cases pc with
  | data w pc => cases pc <;> simp_all [DaemonPc.readsSlot]
  | _ => rfl

end

/-! ## The theorem -/

/-- **Exact loss accounting.**  From a successful `rbtrace_ctrl_open` with no close pending,
up to the next close and without I/O failure, the accounts balance between passes: as long
as the daemon takes only what the session has counted and the counter does not overflow. -/
theorem balanced_of_session (cfg : ValidRingConfig) (hpos : 0 < cfg.rcSize) (disk : Disk)
    {evs₀ evs : List InterEvent} {s₀ s t : Inter} {path : CStr}
    (h₀ : (interleaved cfg).run (Inter.init cfg disk) evs₀ = some s₀)
    (hopen : (rbtraceCtrlOpen (some path) s₀.sys.toShm).2 = 0)
    (hclose : s₀.sys.ri.riFlags.doClose = false)
    (hs : (interleaved cfg).step s₀ (.ctrl (.open (some path))) = some s)
    (hio₀ : s₀.pc ≠ .idle → s₀.io.Ok) (hio : ∀ e ∈ evs, e.IoOk) (hnc : .ctrl .close ∉ evs)
    (hflush : s₀.sys.ri.riFlags.doFlush = false) (hrep : s₀.pc.report = none)
    (hsound : (interleaved cfg).Guarded (Sound cfg) s evs)
    (ht : (interleaved cfg).run s evs = some t) (hidle : t.pc = .idle) :
    Balanced cfg t (ledger cfg s evs) := by
  have hlt : cfg.rcSize < 2 ^ 31 := cfg.rcSize_lt_int
  have hsize : cfg.rcDataSize / sizeofEntry = cfg.rcSize := cfg.rcDataSize_div
  have hok := Inter.Ok.of_run hpos hlt h₀
  obtain ⟨hc, hl⟩ := live_of_open hok hio₀ hopen hclose hflush hrep hpos hlt hs
  have hstep : ∀ (s : Inter) (L : Ledger) (e : InterEvent) (t : Inter),
      Counted cfg s L ∧ Live cfg s L ∧ Quiet s.sys.ri.riFlags s.pc →
      Sound cfg s e ∧ e.IoOk ∧ e ≠ .ctrl .close → (interleaved cfg).step s e = some t →
      Counted cfg t ((notes cfg s e).foldl Ledger.note L) ∧
        Live cfg t ((notes cfg s e).foldl Ledger.note L) ∧ Quiet t.sys.ri.riFlags t.pc := by
    rintro s L e t ⟨hc, hl, hq⟩ ⟨hsound, hio, hnc⟩ ht
    exact ⟨hc.step hpos hlt hsound.countsOn hsound.noOpen ht,
      hl.step hc hpos hlt hsize hio hsound (fun _ ↦ hq.readsSlot hl.flags.live) ht,
      hq.step hsound.noOpen hnc ht⟩
  have hg := hsound.and_forall (Q := fun e ↦ e.IoOk ∧ e ≠ .ctrl .close)
    fun e he ↦ ⟨hio e he, fun h ↦ hnc (h ▸ he)⟩
  obtain ⟨hc', hl', -⟩ :=
    hg.foldl_invariant hstep ⟨hc, hl, quiet_of_open hok hopen hflush hs⟩ ht
  exact hl'.balanced hc' hidle

/-- A ring of one record, three calls of which the last discards a buffer, and a pass that
writes one and reports the other. -/
def lossyPass : List InterEvent :=
  .wake .smooth :: .replicate 7 .daemon ++ [.trace 2, .trace 3, .trace 4, .wake .smooth] ++
    .replicate 11 .daemon

theorem balanced_of_session_four :
    ∃ s ∈ (interleaved oneRing).step
        (Inter.init oneRing fun _ ↦ none) (.ctrl (.open (some [47]))),
      ∃ t ∈ (interleaved oneRing).run s lossyPass, t.pc = .idle ∧
        (ledger oneRing s lossyPass).accepted.card = 4 ∧
        Balanced oneRing t (ledger oneRing s lossyPass) := by
  obtain ⟨s, hs, t, ht, hidle, hfour, hsound⟩ :
      ∃ s ∈ (interleaved oneRing).step
          (Inter.init oneRing fun _ ↦ none) (.ctrl (.open (some [47]))),
        ∃ t ∈ (interleaved oneRing).run s lossyPass, t.pc = .idle ∧
          (ledger oneRing s lossyPass).accepted.card = 4 ∧
          (interleaved oneRing).Guarded (Sound oneRing) s lossyPass := by
    decide
  have hio : ∀ e ∈ lossyPass, e.IoOk := by
    simp [lossyPass, InterEvent.IoOk, InterEvent.trace, PassIo.smooth_ok]
  have hnc : .ctrl .close ∉ lossyPass := by
    simp [lossyPass, InterEvent.trace]
  have h₀ : (interleaved oneRing).run (Inter.init oneRing fun _ ↦ none) [] =
      some (Inter.init oneRing fun _ ↦ none) := rfl
  exact ⟨s, hs, t, ht, hidle, hfour, balanced_of_session oneRing (by decide) (fun _ ↦ none) h₀ rfl
    rfl hs (fun h ↦ absurd rfl h) hio hnc rfl rfl hsound ht hidle⟩

/-! ## Where it fails -/

/-- The size limit closes the file of a ring of one record; the pass has not taken
`ri_flush` yet. -/
def limitStop : List InterEvent :=
  [.ctrl (.size (some 1)), .ctrl (.open (some [47])), .wake .smooth] ++ .replicate 7 .daemon ++
    [.trace 2, .trace 3, .wake .smooth] ++ .replicate 12 .daemon

/-- Two calls, and the rest of that pass. -/
def staleTake : List InterEvent := [.trace 4, .trace 5, .daemon, .daemon, .daemon]

/-- A file opened at that moment loses the first buffer it fills. -/
theorem staleTake_unbalanced :
    ∃ s₀ ∈ (interleaved oneRing).run
        (Inter.init oneRing fun _ ↦ none) limitStop,
      (rbtraceCtrlOpen (some [48]) s₀.sys.toShm).2 = 0 ∧ s₀.sys.ri.riFlags.doClose = false ∧
      ∃ s ∈ (interleaved oneRing).step s₀ (.ctrl (.open (some [48]))),
        ∃ t ∈ (interleaved oneRing).run s staleTake,
          t.pc = .idle ∧ ¬ Balanced oneRing t
            (ledger oneRing s staleTake) := by
  decide

end Rbtrace
