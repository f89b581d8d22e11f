import Rbtrace.Handover
import Rbtrace.FailedWrite
import Rbtrace.Ledger
import Rbtrace.Session

/-!
# What becomes of a loss report

At the end of `rbtrace_write_data` the daemon clears `ri_flush` and then, if buffers were
discarded meanwhile, stores a report as an ordinary record.  As long as there is room in
the active buffer the report is safe: nothing is pending, so when its buffer is full it
becomes the pending one.

If the active buffer is exactly full, storing the report swaps the buffers.  The report
is then the first record of a buffer that may be discarded: by the time `N` more records
have come, the daemon must have made another pass.

The history of a session is kept beside the ring, with the origin of every record
(`Trail`).
-/

namespace Rbtrace

open CInt

/-! ## The ring across a write -/

section

variable {cfg : ValidRingConfig} {s t : Sys}

/-- Opening a file does not touch the records. -/
theorem rbtraceWriteHeader_reBase (cfg : RingConfig) (io : HeaderIo) (s : Sys) :
    (rbtraceWriteHeader cfg io s).reBase = s.reBase := by
  have hopen := congrArg Shm.reBase (openFile_toShm cfg s.ri.riFlags.doZap io s)
  unfold rbtraceWriteHeader
  dsimp only
  split
  · rfl
  · split <;> exact hopen

/-- Reaching the limit does not touch the records. -/
theorem limitReached_reBase (cfg : RingConfig) (io : DataIo) (s : Sys) (upd : Bool) :
    (limitReached cfg io s upd).1.reBase = s.reBase := by
  unfold limitReached
  split_ifs
  · rfl
  · rfl
  · exact rbtraceWriteHeader_reBase cfg io.reopen (closeFd s)
  · rfl
  · rfl

/-- What a write of the inactive buffer leaves for the end label: the ring as it was, with
the buffer cleared. -/
theorem takeCounters_of_rbtraceWriteData {io : DataIo} (hio : NoError io.data)
    (ht : rbtraceWriteData cfg io false s = some t) :
    ∃ u : Sys, t.toShm = (takeCounters cfg io u).toShm ∧ u.ringWords = s.ringWords ∧
      u.reBase = clearRecords s.reBase s.ri.riAltOff cfg.rcSize := by
  obtain ⟨hfd, -⟩ := ctl_of_rbtraceWriteData ht
  obtain ⟨path, hpath⟩ := Option.ne_none_iff_exists'.1 hfd
  obtain ⟨s₁, hs₁⟩ : ∃ s₁, s₁ = wrapSeek s.ri.riFlags.doWrap (cfg.rcSize * sizeofEntry) s := ⟨_, rfl⟩
  have hshm : s₁.1.toShm = s.toShm := by rw [hs₁, wrapSeek_toShm]
  have hrfd : s₁.1.rfd.fd = some path := by
    rw [hs₁, wrapSeek_seek]
    exact hpath
  have hwrite : writeBuffer io.data s.ri.riAltOff cfg.rcSize s₁.1 =
      ((writeBuffer io.data s.ri.riAltOff cfg.rcSize s₁.1).1, true) ∧
      (writeBuffer io.data s.ri.riAltOff cfg.rcSize s₁.1).1.reBase =
        clearRecords s.reBase s.ri.riAltOff cfg.rcSize := by
    simp only [writeBuffer, hrfd, pwriteFd_of_noError hio, if_true, hshm, and_self]
  have hri := writeBuffer_ri io.data s.ri.riAltOff cfg.rcSize s₁.1
  rw [rbtraceWriteData, if_neg hfd, selectBuffer_inactive] at ht
  dsimp only at ht
  rw [← hs₁, hwrite.1, if_pos rfl] at ht
  cases ht
  refine ⟨_, rfl, ?_, ?_⟩
  · rw [updateHeader_toShm, limitReached_ringWords]
    dsimp only
    rw [Shm.ringWords, hri, hshm]
    rfl
  · rw [updateHeader_toShm, limitReached_reBase]
    exact hwrite.2

/-- **A write drains the ring**, and a report is pushed into what is left. -/
theorem view_rbtraceWriteData {io : DataIo} (hN : 0 < cfg.rcSize) (h : RingOk cfg 0 s.toShm)
    (hio : NoError io.data) (ht : rbtraceWriteData cfg io false s = some t) :
    (t.ri.riFlush = 0 ∨ t.ri.riFlush = 1) ∧ t.view cfg = match lossReport cfg s with
      | some lost => (s.view cfg).drain.push cfg.rcSize (entryOf (lostArgs lost) (io.stamps 0))
      | none => (s.view cfg).drain := by
  obtain ⟨u, hu, hw, hm⟩ := takeCounters_of_rbtraceWriteData hio ht
  obtain ⟨hc, ha, hs, hf, hl⟩ := RingWords.mk.injEq .. ▸ hw
  have hring := h.of_ringWords hw
  obtain ⟨sh, hsh⟩ : ∃ sh : Shm, sh = { u.toShm with ri := { u.ri with riLost := 0, riFlush := 0 } } :=
    ⟨_, rfl⟩
  have hring₀ : RingOk cfg 0 sh := by
    rw [hsh]
    exact ⟨hring.slot_ge, hring.slot_lt, rfl, by simp, by simp, hring.buffers⟩
  have hview : sh.view cfg = (s.view cfg).drain := by
    have hactive : sh.activeRecords = s.activeRecords := by
      rw [← h.activeRecords_clear, Shm.activeRecords, hsh]
      dsimp only
      rw [hm, hc, hs]
    rw [Shm.view, hactive, hsh]
    rfl
  have hreport : lossReport cfg u = lossReport cfg s := by
    rw [lossReport, lossReport, hf, hl]
  have hflush : sh.ri.riFlush = 0 := by rw [hsh]
  have htake := takeCounters_eq_lossReport cfg io u
  rw [hreport, ← hsh] at htake
  rw [hu, htake]
  have hlt : cfg.rcSize < 2 ^ 31 := cfg.rcSize_lt_int
  cases lossReport cfg s with
  | none => exact ⟨.inl hflush, hview⟩
  | some lost =>
      dsimp only
      constructor
      · obtain ⟨-, he⟩ | ⟨-, -, he⟩ | ⟨-, hz, -⟩ :=
          rbtrace_cases hring₀ hN hlt io.stamps (lostArgs lost)
        · rw [he]
          exact .inl hflush
        · rw [he]
          exact .inr rfl
        · exact absurd hflush hz
      · rw [view_rbtrace hring₀ hN hlt hflush.ge (.inr (by rw [hflush]; decide)), hview]

end

/-! ## The trail of a session -/

/-- Who put a record into the ring. -/
inductive Origin where
  | caller
  | daemon
deriving DecidableEq

/-- The history of a session. -/
structure Trail extends DoubleBuffer.Logged (Origin × RbtraceEntry) where
  /-- The reports that the daemon has put into the ring. -/
  reports : List RbtraceEntry := []
  /-- After a report that has swapped the buffers, until the next write: how many more
  records fit into its buffer. -/
  room : Option Nat := none

/-- The daemon's own records among some. -/
def daemonRecords (l : List (Origin × RbtraceEntry)) : List RbtraceEntry :=
  (l.filter fun x ↦ x.1 = .daemon).map Prod.snd

/-- What some reports amount to. -/
def amounts (l : List RbtraceEntry) : Nat := (l.map fun e ↦ e.a0.toNat).sum

/-- The next pass writes the inactive buffer, and it is no closing pass. -/
def Sys.WritesNext (s : Sys) : Prop :=
  s.ri.riFlags.doClose = false ∧ s.ri.riFlags.doOpen = false ∧ s.ri.riFlags.doDisk = true ∧
    s.ri.riFlush ≠ 0

instance (s : Sys) : Decidable s.WritesNext := inferInstanceAs (Decidable (_ ∧ _))

/-- What a step adds to the history of a session without a close. -/
def Trail.next (cfg : RingConfig) (s : Sys) (g : Trail) : Event → Trail
  | .call st a =>
      { g with
        toLogged := g.toLogged.put cfg.rcSize (.caller, entryOf a (st 0))
        room := g.room.map (· - 1) }
  | .pass io =>
      if s.WritesNext then
        match lossReport cfg s with
        | none => { g with toLogged := g.toLogged.flush, room := none }
        | some lost =>
            let e := entryOf (lostArgs lost) (io.inactive.stamps 0)
            { toLogged := g.toLogged.flush.put cfg.rcSize (.daemon, e)
              reports := g.reports ++ [e]
              room := if s.ri.riSlot + 1 = cfg.rcSize then some (cfg.rcSize - 1) else none }
      else g
  | .ctrl _ => g

/-- The system with its history. -/
def tracked (cfg : RingConfig) : Machine (Sys × Trail) Event :=
  ⟨fun x e ↦ ((system cfg).step x.1 e).map fun t ↦ (t, x.2.next cfg x.1 e)⟩

/-- **No report is lost**: the reports made are those written to the file and those still in
the ring, none is in a discarded buffer, and once the ring is drained of them they amount
to the number of records discarded. -/
structure ReportsKept (x : Sys × Trail) : Prop where
  kept : x.2.reports.Perm (daemonRecords (x.2.written ++ x.2.buffers.stored))
  notDiscarded : daemonRecords x.2.discarded = []
  balanced : x.1.ri.riFlush = 0 → daemonRecords x.2.buffers.active = [] →
    amounts (daemonRecords x.2.written) = x.2.discarded.length

/-- The trail is that of a run of the system: what it says to be in the ring is in the ring,
and what it says to be written is what the passes have written. -/
structure TrailOf (cfg : RingConfig) (s : Sys) (evs : List Event) (x : Sys × Trail) : Prop where
  run : (system cfg).run s evs = some x.1
  ring : x.2.buffers.map Prod.snd = x.1.view cfg
  file : x.2.written.map Prod.snd = ((system cfg).collect (writes cfg) s evs).flatten

/-- A call does not overflow the counter of filled buffers. -/
def CallFits (cfg : RingConfig) (x : Sys × Trail) : Event → Prop
  | .call _ _ => CounterFits cfg x.1.toShm
  | _ => True

/-- The step is a call or a pass, no system call of it fails, and no counter overflows. -/
def WorkStep (cfg : RingConfig) (x : Sys × Trail) (e : Event) : Prop :=
  CallFits cfg x e ∧ e.IsWork ∧ e.IoOk

/-- The daemon has kept up: no call finds the buffer full of which a report is the first
record, while the other buffer is still to be written. -/
def KeptUp (x : Sys × Trail) : Event → Prop
  | .call _ _ => x.2.room ≠ some 0
  | _ => True

/-! ## The invariant -/

section

variable {cfg : ValidRingConfig} {s t : Sys} {g : Trail}

/-- The buffer of a report that has swapped the buffers fills up; a buffer that may be
discarded otherwise holds no report. -/
def RoomOk (cap : Nat) (b : DoubleBuffer (Origin × RbtraceEntry)) : Option Nat → Prop
  | none => b.pending ≠ none → daemonRecords b.active = []
  | some k => b.pending ≠ none ∧ b.active.length + k = cap ∧ daemonRecords b.active ≠ []

/-- What holds throughout a session in which the daemon has kept up. -/
structure OnTrail (cfg : ValidRingConfig) (s : Sys) (g : Trail) : Prop where
  ring : RingOk cfg 0 s.toShm
  flags : FlagsOk s.ctl
  backed : Backed s.ctl
  noClose : s.ri.riFlags.doClose = false
  flush_nonneg : 0 ≤ s.ri.riFlush
  small : (s.ri.riFlush - 1) * cfg.rcSize < 2 ^ 31
  /-- The history is that of the ring. -/
  view : g.buffers.map Prod.snd = s.view cfg
  conserved : g.reports.Perm (daemonRecords g.items)
  counted : g.discarded.length = amounts g.reports + g.buffers.overruns * cfg.rcSize
  notDiscarded : daemonRecords g.discarded = []
  room : RoomOk cfg.rcSize g.buffers g.room

@[simp] theorem daemonRecords_append (l l' : List (Origin × RbtraceEntry)) :
    daemonRecords (l ++ l') = daemonRecords l ++ daemonRecords l' := by
  rw [daemonRecords, List.filter_append, List.map_append]
  rfl

theorem daemonRecords_caller (e : RbtraceEntry) : daemonRecords [(.caller, e)] = [] := rfl

theorem daemonRecords_daemon (e : RbtraceEntry) : daemonRecords [(.daemon, e)] = [e] := rfl

theorem daemonRecords_perm {l l' : List (Origin × RbtraceEntry)} (h : l.Perm l') :
    (daemonRecords l).Perm (daemonRecords l') := (h.filter _).map _

theorem amounts_append (l l' : List RbtraceEntry) : amounts (l ++ l') = amounts l + amounts l' := by
  rw [amounts, List.map_append, List.sum_append]
  rfl

theorem amounts_perm {l l' : List RbtraceEntry} (h : l.Perm l') : amounts l = amounts l' :=
  (h.map _).sum_nat

theorem OnTrail.length_active (h : OnTrail cfg s g) :
    (g.buffers.active.length : Int) = s.ri.riSlot + 1 := by
  rw [← length_view_active h.ring, ← h.view]
  exact congrArg Nat.cast (List.length_map _).symm

theorem OnTrail.length_active_le (h : OnTrail cfg s g) : g.buffers.active.length ≤ cfg.rcSize := by
  have hlen := h.length_active
  have hlt := h.ring.slot_lt
  omega

theorem OnTrail.pending_eq_none_iff (h : OnTrail cfg s g) :
    g.buffers.pending = none ↔ s.ri.riFlush = 0 := by
  have hp : g.buffers.pending.map (List.map Prod.snd) = (s.view cfg).pending :=
    congrArg DoubleBuffer.pending h.view
  rw [← Option.map_eq_none_iff, hp, Shm.view]
  simp

theorem OnTrail.overruns_eq (h : OnTrail cfg s g) :
    g.buffers.overruns = (s.ri.riFlush - 1).toNat := congrArg DoubleBuffer.overruns h.view

/-- **While the daemon keeps up, no report is lost.** -/
theorem OnTrail.reportsKept (h : OnTrail cfg s g) : ReportsKept (s, g) := by
  have hkept : g.reports.Perm (daemonRecords (g.written ++ g.buffers.stored)) := by
    have hall := h.conserved
    rwa [DoubleBuffer.Logged.items, daemonRecords_append _ g.discarded, h.notDiscarded,
      List.append_nil] at hall
  refine ⟨hkept, h.notDiscarded, fun (hz : s.ri.riFlush = 0) hactive ↦ ?_⟩
  have hpending : g.buffers.pending = none := h.pending_eq_none_iff.2 hz
  have hover : g.buffers.overruns = 0 := by
    rw [h.overruns_eq, hz]
    rfl
  have hstored : daemonRecords g.buffers.stored = [] := by
    rw [DoubleBuffer.stored, hpending]
    exact hactive
  rw [daemonRecords_append, hstored, List.append_nil] at hkept
  have hcount := h.counted
  rw [hover, Nat.zero_mul, Nat.add_zero, amounts_perm hkept] at hcount
  exact hcount.symm

/-! ## Steps -/

/-- A call keeps the counter in range. -/
theorem OnTrail.riFlush_call (h : OnTrail cfg s g) (hN : 0 < cfg.rcSize)
    (hfit : CounterFits cfg s.toShm) (st : Nat → Stamp) (a : TraceArgs) :
    0 ≤ (rbtrace cfg st s.toShm a).1.ri.riFlush ∧
      ((rbtrace cfg st s.toShm a).1.ri.riFlush - 1) * cfg.rcSize < 2 ^ 31 := by
  obtain ⟨-, hf, -⟩ | ⟨-, -, hf, -⟩ | ⟨-, -, -, hsmall, hf, -⟩ :=
    callNotes_cases h.ring hN cfg.rcSize_lt_int h.flush_nonneg hfit st a
  · rw [hf]
    exact ⟨h.flush_nonneg, h.small⟩
  · rw [hf]
    exact ⟨by decide, by simp⟩
  · have hnn := h.flush_nonneg
    rw [hf]
    exact ⟨by omega, by simpa using hsmall⟩

/-- **A caller's record** costs no report its place, if the daemon has kept up. -/
theorem OnTrail.put_caller (h : OnTrail cfg s g) (hroom : g.room ≠ some 0) (e : RbtraceEntry) :
    (g.toLogged.put cfg.rcSize (.caller, e)).discarded.length = amounts g.reports +
        (g.toLogged.put cfg.rcSize (.caller, e)).buffers.overruns * cfg.rcSize ∧
      daemonRecords (g.toLogged.put cfg.rcSize (.caller, e)).discarded = [] ∧
      RoomOk cfg.rcSize (g.toLogged.put cfg.rcSize (.caller, e)).buffers (g.room.map (· - 1)) := by
  have hcounted := h.counted
  have hnone := h.notDiscarded
  have hok := h.room
  unfold DoubleBuffer.Logged.put
  dsimp only
  by_cases hlen : g.buffers.active.length < cfg.rcSize
  · -- there is room in the active buffer
    rw [DoubleBuffer.discards, if_pos hlen, DoubleBuffer.push_of_lt hlen, List.append_nil]
    refine ⟨hcounted, hnone, ?_⟩
    cases hr : g.room with
    | none =>
        rw [hr] at hok
        intro hp
        rw [daemonRecords_append, hok hp]
        rfl
    | some k =>
        rw [hr] at hok hroom
        obtain ⟨hp, hk, hd⟩ := hok
        have hk₀ : k ≠ 0 := fun hk₀ ↦ hroom (congrArg some hk₀)
        refine ⟨hp, ?_, ?_⟩
        · rw [List.length_append, List.length_singleton]
          change g.buffers.active.length + 1 + (k - 1) = cfg.rcSize
          omega
        · rw [daemonRecords_append]
          exact fun hnil ↦ hd (List.append_eq_nil_iff.1 hnil).1
  · cases hp : g.buffers.pending with
    | none =>
        -- the buffers are swapped
        have hover : g.buffers.overruns = 0 := by
          rw [h.overruns_eq, h.pending_eq_none_iff.1 hp]
          rfl
        rw [hover] at hcounted
        rw [DoubleBuffer.discards, if_neg hlen, hp,
          DoubleBuffer.push_of_pending_eq_none (not_lt.1 hlen) hp, List.append_nil]
        refine ⟨hcounted, hnone, ?_⟩
        cases hr : g.room with
        | none => exact fun _ ↦ rfl
        | some k =>
            rw [hr] at hok
            exact absurd hp hok.1
    | some p =>
        -- the active buffer is discarded
        have hfull : g.buffers.active.length = cfg.rcSize :=
          le_antisymm h.length_active_le (not_lt.1 hlen)
        have hr : g.room = none := by
          cases hr : g.room with
          | none => rfl
          | some k =>
              rw [hr] at hok hroom
              have hk : k = 0 := Nat.add_eq_left.1 (hfull ▸ hok.2.1)
              exact absurd (congrArg some hk) hroom
        rw [hr] at hok
        rw [DoubleBuffer.discards, if_neg hlen, hp,
          DoubleBuffer.push_of_pending_eq_some (not_lt.1 hlen) hp, hr]
        refine ⟨?_, ?_, fun _ ↦ rfl⟩
        · rw [List.length_append, hfull, hcounted]
          ring
        · rw [daemonRecords_append, hnone, hok (by rw [hp]; exact Option.some_ne_none p)]
          rfl

/-- **A call.** -/
theorem OnTrail.call (h : OnTrail cfg s g) (hN : 0 < cfg.rcSize) (hfit : CounterFits cfg s.toShm)
    (hroom : g.room ≠ some 0) (st : Nat → Stamp) (a : TraceArgs) :
    OnTrail cfg { s with toShm := (rbtrace cfg st s.toShm a).1 } (g.next cfg s (.call st a)) := by
  have hlt : cfg.rcSize < 2 ^ 31 := cfg.rcSize_lt_int
  have hflags := rbtrace_riFlags cfg st s.toShm a
  have hctl : Sys.ctl { s with toShm := (rbtrace cfg st s.toShm a).1 } = s.ctl :=
    congrArg (Ctl.mk · s.rfd.fd) hflags
  have hcounter : s.ri.riSlot + 1 < cfg.rcSize ∨ s.ri.riFlush + 1 < 2 ^ 31 := by
    by_cases hs : s.ri.riSlot + 1 = cfg.rcSize
    · by_cases hz : s.ri.riFlush = 0
      · rw [hz]
        exact .inr (by decide)
      · exact .inr (hfit hs hz).2
    · have hslot := h.ring.slot_lt
      exact .inl (by omega)
  have hview : (rbtrace cfg st s.toShm a).1.view cfg =
      (g.buffers.push cfg.rcSize (.caller, entryOf a (st 0))).map Prod.snd := by
    rw [DoubleBuffer.map_push, h.view]
    exact view_rbtrace h.ring hN hlt h.flush_nonneg hcounter st a
  have hitems := daemonRecords_perm (g.toLogged.items_put cfg.rcSize (.caller, entryOf a (st 0)))
  rw [daemonRecords_append, daemonRecords_caller, List.append_nil] at hitems
  obtain ⟨hnn, hsmall⟩ := h.riFlush_call hN hfit st a
  obtain ⟨hcounted, hnone, hok⟩ := h.put_caller hroom (entryOf a (st 0))
  exact ⟨(h.ring.rbtrace hN hlt st a).1, hctl.symm ▸ h.flags, hctl.symm ▸ h.backed,
    (congrArg RiFlags.doClose hflags).trans h.noClose, hnn, hsmall, hview.symm,
    h.conserved.trans hitems.symm, hcounted, hnone, hok⟩

/-- A call that finds the daemon behind discards a report. -/
theorem OnTrail.not_reportsKept (h : OnTrail cfg s g) (hroom : g.room = some 0)
    (st : Nat → Stamp) (a : TraceArgs) (t : Sys) :
    ¬ ReportsKept (t, g.next cfg s (.call st a)) := by
  intro hkept
  have hok := h.room
  rw [hroom] at hok
  obtain ⟨hp, hlen, hd⟩ := hok
  obtain ⟨p, hp⟩ := Option.ne_none_iff_exists'.1 hp
  have hnone : daemonRecords (g.discarded ++ g.buffers.discards cfg.rcSize) = [] :=
    hkept.notDiscarded
  have hfull : ¬ g.buffers.active.length < cfg.rcSize := by omega
  rw [DoubleBuffer.discards, if_neg hfull, hp, daemonRecords_append] at hnone
  exact hd (List.append_eq_nil_iff.1 hnone).2

/-- **What a pass that is not a closing one does to the ring**: it writes the inactive
buffer, or nothing. -/
theorem rbtraceThreadFn_ring {io : PassIo} (hf : FlagsOk s.ctl)
    (hc : s.ri.riFlags.doClose = false) (ht : rbtraceThreadFn cfg io s = some t) :
    (s.WritesNext ∧ rbtraceWriteData cfg io.inactive false s = some t) ∨
      (¬ s.WritesNext ∧ t.ringWords = s.ringWords ∧ t.reBase = s.reBase) := by
  have hc' : ¬ s.ri.riFlags.doClose = true := Bool.eq_false_iff.1 hc
  rw [rbtraceThreadFn, if_neg hc'] at ht
  split at ht <;> rename_i ho
  · cases ht
    refine .inr ⟨fun h ↦ Bool.eq_false_iff.1 h.2.1 ho, rbtraceWriteHeader_ringWords cfg io.header s, ?_⟩
    exact rbtraceWriteHeader_reBase cfg io.header s
  · split at ht <;> rename_i hd
    · obtain ⟨u, hu, hv⟩ := Option.bind_eq_some_iff.1 ht
      have hnf : ¬ u.ri.riFlags.doFlush = true :=
        Bool.eq_false_iff.1 (doFlush_of_flushInactive hf hc hu)
      rw [flushActive, if_neg hnf] at hv
      cases hv
      unfold flushInactive at hu
      split at hu <;> rename_i hz
      · exact .inl ⟨⟨hc, Bool.eq_false_iff.2 ho, hd, hz⟩, hu⟩
      · cases hu
        exact .inr ⟨fun h ↦ hz h.2.2.2, rfl, rfl⟩
    · cases ht
      exact .inr ⟨fun h ↦ hd h.2.2.1, rfl, rfl⟩

/-- **What such a pass writes.** -/
theorem writes_of_noClose {io : PassIo} (hf : FlagsOk s.ctl) (hb : Backed s.ctl)
    (hc : s.ri.riFlags.doClose = false) (hio : io.Ok) :
    (writes cfg s (.pass io)).flatten = if s.WritesNext then s.altRecords cfg else [] := by
  rw [writes_pass, passOut_of_noClose _ io hf hc]
  by_cases hw : s.WritesNext
  · have hfd : s.rfd.fd ≠ none := hb (.inl hw.2.2.1)
    rw [if_pos hw, if_pos hw.2, dataWritten,
      if_pos ⟨hfd, getsThrough_of_noError hio.inactive.data _⟩, List.flatten_singleton,
      selectBuffer_inactive]
    rfl
  · rw [if_neg hw, if_neg fun h ↦ hw ⟨hc, h⟩]
    rfl

/-- When a report is due, and what it says. -/
theorem OnTrail.lossReport_eq (h : OnTrail cfg s g) :
    lossReport cfg s = if 1 < s.ri.riFlush then
      some ((s.ri.riFlush - 1) * cfg.rcSize) else none := by
  have hl := h.ring.lost_eq
  unfold lossReport
  split <;> rename_i hr
  · have hflush : 1 < s.ri.riFlush := hr.resolve_right (not_not.2 hl)
    have hprod : 0 ≤ (s.ri.riFlush - 1) * cfg.rcSize :=
      Int.mul_nonneg (by omega) (Int.natCast_nonneg _)
    rw [if_pos hflush, lossAmount, if_pos hflush, hl, Int.zero_add,
      i32_of_range (by omega) h.small]
  · rw [if_neg fun hflush ↦ hr (.inl hflush)]

/-- A report carries its amount. -/
theorem amounts_report {lost : Int} (hnn : 0 ≤ lost) (hlt : lost < 2 ^ 31) (st : Stamp) :
    amounts [entryOf (lostArgs lost) st] = lost.toNat := by
  change (BitVec.ofInt 64 lost).toNat + 0 = lost.toNat
  rw [BitVec.toNat_ofInt]
  omega

/-- **A pass that writes.** -/
theorem OnTrail.write {io : PassIo} (h : OnTrail cfg s g) (hN : 0 < cfg.rcSize) (hio : io.Ok)
    (hw : s.WritesNext) (hring : RingOk cfg 0 t.toShm) (hf : FlagsOk t.ctl) (hb : Backed t.ctl)
    (hc : t.ri.riFlags.doClose = false)
    (ht : rbtraceWriteData cfg io.inactive false s = some t) :
    OnTrail cfg t (g.next cfg s (.pass io)) := by
  obtain ⟨hflush, hview⟩ := view_rbtraceWriteData hN h.ring hio.inactive.data ht
  have hnn : 0 ≤ t.ri.riFlush := by omega
  have hsmall : (t.ri.riFlush - 1) * cfg.rcSize < 2 ^ 31 := by
    rcases hflush with hz | hz <;> rw [hz] <;> omega
  have hcounted := h.counted
  rw [h.overruns_eq] at hcounted
  have hitems : daemonRecords g.toLogged.flush.items = daemonRecords g.items :=
    congrArg daemonRecords g.toLogged.items_flush
  have hreport := h.lossReport_eq
  unfold Trail.next
  dsimp only
  rw [if_pos hw]
  by_cases hdue : 1 < s.ri.riFlush
  · -- a report is made
    rw [if_pos hdue] at hreport
    rw [hreport] at hview ⊢
    dsimp only at hview ⊢
    have hamount := amounts_report (Int.mul_nonneg (by omega) (Int.natCast_nonneg _)) h.small
      (io.inactive.stamps 0)
    obtain ⟨e, he⟩ : ∃ e, e = entryOf (lostArgs ((s.ri.riFlush - 1) * cfg.rcSize))
      (io.inactive.stamps 0) := ⟨_, rfl⟩
    rw [← he] at hamount hview ⊢
    have hput := daemonRecords_perm (g.toLogged.flush.items_put cfg.rcSize (.daemon, e))
    rw [daemonRecords_append, daemonRecords_daemon, hitems] at hput
    have hdiscards : g.buffers.drain.discards cfg.rcSize = [] := by
      rw [DoubleBuffer.discards]
      split <;> rfl
    have hover : (g.buffers.drain.push cfg.rcSize (.daemon, e)).overruns = 0 := by
      rw [DoubleBuffer.push]
      split <;> rfl
    have hlen := h.length_active
    refine ⟨hring, hf, hb, hc, hnn, hsmall, ?_, (h.conserved.append_right [e]).trans hput.symm,
      ?_, ?_, ?_⟩
    · change (g.buffers.drain.push cfg.rcSize (.daemon, e)).map Prod.snd = _
      rw [DoubleBuffer.map_push, DoubleBuffer.map_drain, h.view, hview]
    · change (g.discarded ++ g.buffers.drain.discards cfg.rcSize).length =
        amounts (g.reports ++ [e]) +
          (g.buffers.drain.push cfg.rcSize (.daemon, e)).overruns * cfg.rcSize
      rw [hdiscards, hover, List.append_nil, amounts_append, hamount, hcounted, Nat.zero_mul,
        Nat.add_zero, Int.toNat_mul (by omega) (Int.natCast_nonneg _), Int.toNat_natCast]
    · change daemonRecords (g.discarded ++ g.buffers.drain.discards cfg.rcSize) = []
      rw [hdiscards, List.append_nil]
      exact h.notDiscarded
    · change RoomOk cfg.rcSize (g.buffers.drain.push cfg.rcSize (.daemon, e)) _
      by_cases hs : s.ri.riSlot + 1 = cfg.rcSize
      · have hfull : cfg.rcSize ≤ g.buffers.drain.active.length := by
          change cfg.rcSize ≤ g.buffers.active.length
          omega
        rw [if_pos hs, DoubleBuffer.push_of_pending_eq_none hfull rfl]
        refine ⟨Option.some_ne_none _, ?_, List.cons_ne_nil _ _⟩
        exact Nat.add_sub_cancel' hN
      · have hlt : g.buffers.drain.active.length < cfg.rcSize := by
          have hslot := h.ring.slot_lt
          change g.buffers.active.length < cfg.rcSize
          omega
        rw [if_neg hs, DoubleBuffer.push_of_lt hlt]
        exact fun hp ↦ absurd rfl hp
  · rw [if_neg hdue] at hreport
    rw [hreport] at hview ⊢
    dsimp only at hview ⊢
    refine ⟨hring, hf, hb, hc, hnn, hsmall, ?_, ?_, ?_, h.notDiscarded, fun hp ↦ absurd rfl hp⟩
    · rw [hview, ← h.view]
      rfl
    · rw [hitems]
      exact h.conserved
    · have hover : (s.ri.riFlush - 1).toNat = 0 := by omega
      rw [hover] at hcounted
      exact hcounted

/-- **A pass.** -/
theorem OnTrail.pass {io : PassIo} (h : OnTrail cfg s g) (hN : 0 < cfg.rcSize) (hio : io.Ok)
    (ht : rbtraceThreadFn cfg io s = some t) : OnTrail cfg t (g.next cfg s (.pass io)) := by
  have hring := h.ring.rbtraceThreadFn hN cfg.rcSize_lt_int ht
  obtain ⟨u, hu, hf, hb⟩ := @backed_step_iff cfg s (.pass io) h.flags h.backed
  obtain rfl : u = t := Option.some.inj (hu.symm.trans ht)
  have hb := hb.2 (zapReopens_of_ioOk hio)
  have hc : u.ri.riFlags.doClose = false := doClose_of_rbtraceThreadFn h.flags ht
  rcases rbtraceThreadFn_ring h.flags h.noClose ht with ⟨hw, hwrite⟩ | ⟨hw, hwords, hbase⟩
  · exact h.write hN hio hw hring hf hb hc hwrite
  · have hsame : g.next cfg s (.pass io) = g := if_neg hw
    have hflush : u.ri.riFlush = s.ri.riFlush := congrArg RingWords.riFlush hwords
    rw [hsame]
    exact ⟨hring, hf, hb, hc, hflush ▸ h.flush_nonneg, hflush ▸ h.small,
      h.view.trans (view_congr hwords hbase).symm, h.conserved, h.counted, h.notDiscarded, h.room⟩

/-- What the trail takes to be written by a pass. -/
theorem OnTrail.written_pass (h : OnTrail cfg s g) (io : PassIo) :
    (g.next cfg s (.pass io)).written.map Prod.snd =
      g.written.map Prod.snd ++ if s.WritesNext then s.altRecords cfg else [] := by
  have hnext : (g.next cfg s (.pass io)).written =
      if s.WritesNext then g.written ++ g.buffers.pending.getD [] else g.written := by
    unfold Trail.next
    dsimp only
    split
    · split <;> rfl
    · rfl
  rw [hnext]
  by_cases hw : s.WritesNext
  · have hp : g.buffers.pending.map (List.map Prod.snd) = some (s.altRecords cfg) :=
      (congrArg DoubleBuffer.pending h.view).trans (if_neg hw.2.2.2)
    obtain ⟨p, hp, hpr⟩ := Option.map_eq_some_iff.1 hp
    rw [if_pos hw, if_pos hw, hp, Option.getD_some, List.map_append, hpr]
  · rw [if_neg hw, if_neg hw, List.append_nil]

/-- **One step.** -/
theorem OnTrail.step {x : Sys × Trail} {e : Event} (hN : 0 < cfg.rcSize)
    (h : OnTrail cfg x.1 x.2) (hwork : WorkStep cfg x e) (hkept : KeptUp x e) :
    ∃ y, (tracked cfg).step x e = some y ∧ OnTrail cfg y.1 y.2 := by
  obtain ⟨s, g⟩ := x
  obtain ⟨hfit, hwork, hio⟩ := hwork
  cases e with
  | ctrl op => exact absurd hwork id
  | call st a => exact ⟨_, rfl, h.call hN hfit hkept st a⟩
  | pass io =>
      obtain ⟨t, ht⟩ := @rbtraceThreadFn_isSome cfg io s h.flags h.backed
      exact ⟨_, congrArg (Option.map _) ht, h.pass hN hio ht⟩

/-- A session starts with an empty ring. -/
theorem onTrail_of_open {path : CStr} (hring : RingOk cfg 0 s.toShm) (hf : FlagsOk s.ctl)
    (hb : Backed s.ctl) (hc : s.ri.riFlags.doClose = false)
    (hret : (rbtraceCtrl (.open (some path)) s.toShm).2 = 0) :
    OnTrail cfg (s.requestOpen path) {} := by
  obtain ⟨hf', hb'⟩ := requestOpen_ok path hf hb
  obtain ⟨-, -, heq⟩ := rbtraceCtrl_open hret
  have hring' : RingOk cfg 0 (s.requestOpen path).toShm := hring.rbtraceCtrl (.open (some path))
  have hflush : (s.requestOpen path).ri.riFlush = 0 := by rw [Sys.requestOpen, heq]
  refine ⟨hring', hf', hb', ?_, hflush.ge, ?_, ?_, List.Perm.refl _, ?_, rfl,
    fun hp ↦ absurd rfl hp⟩
  · rw [Sys.requestOpen, heq]
    exact hc
  · rw [hflush]
    omega
  · rw [Sys.requestOpen, heq]
    rfl
  · change 0 = 0 + 0 * cfg.rcSize
    rw [Nat.zero_mul]

end

/-! ## The theorem -/

/-- **A run and its trail**, as long as the daemon keeps up. -/
theorem trail_of_run {cfg : ValidRingConfig} (hN : 0 < cfg.rcSize) {x y : Sys × Trail}
    {evs : List Event} (hx : OnTrail cfg x.1 x.2)
    (hg : (tracked cfg).Guarded (fun x e ↦ WorkStep cfg x e ∧ KeptUp x e) x evs)
    (hrun : (tracked cfg).run x evs = some y) :
    (system cfg).run x.1 evs = some y.1 ∧ y.2.buffers.map Prod.snd = y.1.view cfg ∧
      y.2.written.map Prod.snd =
        x.2.written.map Prod.snd ++ ((system cfg).collect (writes cfg) x.1 evs).flatten := by
  induction evs generalizing x with
  | nil =>
      obtain rfl : x = y := Option.some.inj hrun
      exact ⟨rfl, hx.view, (List.append_nil _).symm⟩
  | cons e evs ih =>
      obtain ⟨z, hz, hrun'⟩ := (tracked cfg).run_cons_eq_some.1 hrun
      obtain ⟨z', hz', hOn⟩ := hx.step hN hg.head.1 hg.head.2
      obtain rfl : z' = z := Option.some.inj (hz'.symm.trans hz)
      obtain ⟨t, ht, htz⟩ := Option.map_eq_some_iff.1 hz
      obtain ⟨hr, hview, hwritten⟩ := ih hOn (hg.tail hz) hrun'
      rw [← htz] at hr hwritten
      refine ⟨(system cfg).run_cons_eq_some.2 ⟨t, ht, hr⟩, hview, ?_⟩
      rw [hwritten, Machine.collect_cons _ ht, List.flatten_append, ← List.append_assoc]
      refine congrArg (· ++ _) ?_
      cases e with
      | call st a => exact (List.append_nil _).symm
      | ctrl op => exact (List.append_nil _).symm
      | pass io =>
          rw [writes_of_noClose hx.flags hx.backed hx.noClose hg.head.1.2.2]
          exact hx.written_pass io

/-- **No report is lost**, in a session made of calls and passes, exactly as long as the
daemon keeps up: after a pass that has made its report with the active buffer full, its
next write comes before `N` more calls. -/
theorem reportsKept_iff (cfg : ValidRingConfig) (hN : 0 < cfg.rcSize) {disk : Disk}
    {pre evs : List Event} {path : CStr} {s : Sys}
    (h₀ : (system cfg).run (rbtraceDaemonInit cfg disk) pre = some s)
    (hpre : ∀ e ∈ pre, e.IoOk) (hidle : s.ri.riFlags.doClose = false)
    (hopen : (rbtraceCtrl (.open (some path)) s.toShm).2 = 0)
    (hwork : (tracked cfg).Guarded (WorkStep cfg) (s.requestOpen path, {}) evs) :
    (∀ js, js <+: evs → ∃ x, (tracked cfg).run (s.requestOpen path, {}) js = some x ∧
      TrailOf cfg (s.requestOpen path) js x ∧ ReportsKept x) ↔
      (tracked cfg).Guarded KeptUp (s.requestOpen path, {}) evs := by
  obtain ⟨hf, hb⟩ := backed_of_run hpre h₀
  obtain ⟨hring, -⟩ := ok_of_run hN h₀
  have hstart := onTrail_of_open hring hf hb hidle hopen
  have hexact : ∀ (x : Sys × Trail) (e : Event) (y : Sys × Trail), OnTrail cfg x.1 x.2 →
      WorkStep cfg x e → (tracked cfg).step x e = some y → ReportsKept y → KeptUp x e := by
    rintro ⟨s, g⟩ e y hx - hy hkept
    cases e with
    | pass io | ctrl op => trivial
    | call st a =>
        intro hroom
        obtain rfl := Option.some.inj hy
        exact hx.not_reportsKept hroom st a _ hkept
  have hiff := hwork.forall_run_iff (P := fun x ↦ OnTrail cfg x.1 x.2)
    (fun x e hx hwork hkept ↦ hx.step hN hwork hkept) (fun x hx ↦ hx.reportsKept) hexact hstart
  rw [← hiff]
  constructor
  · intro h js hjs
    obtain ⟨x, hx, -, hkept⟩ := h js hjs
    exact ⟨x, hx, hkept⟩
  · rintro h js ⟨ks, rfl⟩
    obtain ⟨x, hx, hkept⟩ := h js ⟨ks, rfl⟩
    obtain ⟨hrun, hview, hwritten⟩ :=
      trail_of_run hN hstart (hwork.and (hiff.1 h)).left_of_append hx
    exact ⟨x, hx, ⟨hrun, hview, hwritten⟩, hkept⟩

instance (cfg : RingConfig) (x : Sys × Trail) : ∀ e, Decidable (CallFits cfg x e)
  | .call _ _ => inferInstanceAs (Decidable (_ → _ → _ ∧ _))
  | .pass _ | .ctrl _ => .isTrue trivial

instance (x : Sys × Trail) : ∀ e, Decidable (KeptUp x e)
  | .call _ _ => inferInstanceAs (Decidable (_ ≠ _))
  | .pass _ | .ctrl _ => .isTrue trivial

/-- A ring of two records, about to be traced to a file. -/
def reportStart : Sys := (rbtraceDaemonInit twoRing fun _ ↦ none).requestOpen [116]

/-- One buffer is discarded, and the pass that reports it finds the active buffer full. -/
def reportIntoFull : List Event :=
  [.pass .smooth, .trace 2, .trace 3, .trace 4, .trace 5, .trace 6, .trace 7, .pass .smooth]

/-- The next passes come in time. -/
def keptUp : List Event :=
  reportIntoFull ++ [.trace 8, .pass .smooth, .trace 9, .trace 10, .pass .smooth]

theorem reportsKept_keptUp : ∃ x, (tracked twoRing).run (reportStart, {}) keptUp = some x ∧
    (daemonRecords x.2.written).map (fun e ↦ e.a0) = [2] ∧
    TrailOf twoRing reportStart keptUp x ∧ ReportsKept x := by
  have h₀ : (system twoRing).run (rbtraceDaemonInit twoRing fun _ ↦ none) [] =
      some (rbtraceDaemonInit twoRing fun _ ↦ none) := rfl
  have hwork : (tracked twoRing).Guarded (WorkStep twoRing) (reportStart, {}) keptUp := by
    have hfit : (tracked twoRing).Guarded (CallFits twoRing) (reportStart, {}) keptUp := by
      decide +kernel
    refine hfit.and_forall ?_
    simp [keptUp, reportIntoFull, Event.IsWork, Event.IoOk, Event.trace, PassIo.smooth_ok]
  have hkept : (tracked twoRing).Guarded KeptUp (reportStart, {}) keptUp := by decide +kernel
  have hall := (reportsKept_iff twoRing (by decide) h₀ (by simp) rfl (by decide) hwork).2 hkept
  have hwritten : ∃ x ∈ (tracked twoRing).run (reportStart, {}) keptUp,
      (daemonRecords x.2.written).map (fun e ↦ e.a0) = [2] := by decide +kernel
  obtain ⟨x, hx, hrep⟩ := hwritten
  obtain ⟨y, hy, hy'⟩ := hall keptUp (List.prefix_refl _)
  obtain rfl : y = x := Option.some.inj (hy.symm.trans hx)
  exact ⟨y, hy, hrep, hy'⟩

/-- Two more calls come first: the report is discarded. -/
def leftBehind : List Event := reportIntoFull ++ [.trace 8, .trace 9]

theorem leftBehind_discarded : ∃ x, (tracked twoRing).run (reportStart, {}) leftBehind = some x ∧
    (daemonRecords x.2.discarded).map (fun e ↦ e.a0) = [2] ∧ ¬ ReportsKept x := by
  have h : ∃ x ∈ (tracked twoRing).run (reportStart, {}) leftBehind,
      (daemonRecords x.2.discarded).map (fun e ↦ e.a0) = [2] := by decide +kernel
  obtain ⟨x, hx, hrep⟩ := h
  refine ⟨x, hx, hrep, fun hkept ↦ ?_⟩
  rw [hkept.notDiscarded] at hrep
  cases hrep

end Rbtrace
