import Rbtrace.Conservation
import Rbtrace.Swap

/-!
# Calls that find room

What makes `rbtrace()` cheap is that a call that finds room takes its place with one
`__sync_add_and_fetch` and nothing else: no lock is held while it reads `ri_cir_off` and
stores its record.  As long as there is room this is enough.  Whatever callers, clients and
daemon do in between, when no call is in flight any more the active buffer holds what the
same calls would have left one after the other, in the order in which they fetched their
slots (`linear_of_run`).

That order is an order of the calls in time, too: a call fetches its slot after it was
entered and before it returns.

What the daemon and the clients must not do meanwhile is flush the active buffer, and set
`ri_slot` back.
-/

namespace Rbtrace

open CInt

/-! ## One call after the other -/

/-- The arguments of a call, and what it reads from the system. -/
abbrev Placing := TraceArgs × (Nat → Stamp)

/-- The record of a call. -/
def Placing.entry (p : Placing) : RbtraceEntry := entryOf p.1 (p.2 0)

/-- Whole calls, one after the other. -/
def rbtraceAll (cfg : RingConfig) (sh : Shm) (calls : List Placing) : Shm :=
  calls.foldl (fun sh p ↦ (rbtrace cfg p.2 sh p.1).1) sh

/-- The first slot of the active buffer that has not been handed out. -/
def Shm.freeSlot (sh : Shm) : Nat := (sh.ri.riSlot + 1).toNat

/-- Records that follow each other are records of one piece. -/
theorem bufRecords_add (m : Nat → RbtraceEntry) (off n k : Nat) :
    bufRecords m off (n + k) = bufRecords m off n ++ bufRecords m (off + n) k := by
  rw [bufRecords, List.range_add, List.map_append, List.map_map]
  refine congrArg _ (List.map_congr_left fun i _ ↦ ?_)
  rw [Function.comp_apply, Nat.add_assoc]

/-- Records that are known one by one. -/
theorem bufRecords_eq_map {m : Nat → RbtraceEntry} {off : Nat} {calls : List Placing}
    (h : ∀ j p, calls[j]? = some p → m (off + j) = p.entry) :
    bufRecords m off calls.length = calls.map Placing.entry := by
  refine List.ext_getElem? fun j ↦ ?_
  rw [List.getElem?_map, bufRecords, List.getElem?_map]
  by_cases hj : j < calls.length
  · rw [List.getElem?_range hj, List.getElem?_eq_getElem hj, Option.map_some, Option.map_some,
      h j _ (List.getElem?_eq_getElem hj)]
  · rw [List.getElem?_eq_none (Nat.not_lt.1 hj),
      List.getElem?_eq_none (by simpa using Nat.not_lt.1 hj), Option.map_none, Option.map_none]

section

variable {cfg : RingConfig} {off : Nat} {sh : Shm}

/-- **Calls that find room, one after the other.** -/
theorem rbtraceAll_of_room (hlt : cfg.rcSize < 2 ^ 31) (h : RingOk cfg off sh)
    {calls : List Placing} (hroom : sh.ri.riSlot + calls.length < cfg.rcSize) :
    (rbtraceAll cfg sh calls).ri = { sh.ri with riSlot := sh.ri.riSlot + calls.length } ∧
      (rbtraceAll cfg sh calls).activeRecords = sh.activeRecords ++ calls.map Placing.entry := by
  induction calls generalizing sh with
  | nil =>
      have hslot : sh.ri.riSlot + (([] : List Placing).length : Int) = sh.ri.riSlot := by simp
      rw [hslot]
      exact ⟨rfl, (List.append_nil _).symm⟩
  | cons p calls ih =>
      have hge := h.slot_ge
      have hlen : ((p :: calls).length : Int) = calls.length + 1 := by simp
      rw [hlen] at hroom ⊢
      have hnext : sh.ri.riSlot + 1 < cfg.rcSize := by omega
      have hcall := rbtrace_room hlt h hnext p.2 p.1
      have hok := (h.rbtrace (by omega) hlt p.2 p.1).1
      rw [hcall] at hok
      have hfirst : (sh.ri.riSlot + 1 + 1).toNat = (sh.ri.riSlot + 1).toNat + 1 := by omega
      obtain ⟨hri, hrec⟩ := ih hok (by dsimp only; omega)
      rw [rbtraceAll, List.foldl_cons, hcall, ← rbtraceAll]
      constructor
      · rw [hri]
        dsimp only
        rw [show sh.ri.riSlot + 1 + calls.length = sh.ri.riSlot + (calls.length + 1) by omega]
      · rw [hrec, Shm.activeRecords, hfirst, bufRecords_update_succ, ← Shm.activeRecords,
          List.append_assoc, List.map_cons]
        rfl

end

/-! ## The order of the calls -/

section

variable {τ κ : Type}

/-- The call that fetches its slot with this step. -/
def placed (s : Conc τ κ) : ConcEvent τ κ → List Placing
  | .advance x _ => match s.callers x with
    | some c => if c.pc = .fetch then [(c.args, c.stamps)] else []
    | none => []
  | _ => []

/-- What the call that makes this step returns, if it does. -/
def returned (cfg : RingConfig) (s : Conc τ κ) : ConcEvent τ κ → List Int
  | .advance x leave => match s.callers x with
    | some c => (c.step cfg leave s.sys.toShm).2.getRight?.toList
    | none => []
  | _ => []

/-- A fetch finds room, the daemon is not about to flush the active buffer, and no client
stores to `ri_slot`. -/
def FindsRoom (cfg : RingConfig) (s : Conc τ κ) : ConcEvent τ κ → Prop
  | .advance x _ => s.at x = some .fetch → s.sys.ri.nextSlot < cfg.rcSize
  | .daemon => s.pc.flushing = false
  | .client k => ∀ pc ∈ s.clients k, pc.storesSlot = false
  | _ => True

/-- The call has fetched slot `slot` of the buffer at `off`, and not stored its record. -/
def Call.Holds (off slot : Nat) (c : Call) : Prop := c.pc = .readOff slot ∨ c.pc = .store off slot

/-- Some calls have fetched their slots, starting from the ring `sh`. -/
structure Places (cfg : RingConfig) (sh : Shm) (calls : List Placing) (sh' : Shm)
    (callers : Option τ → Option Call) : Prop where
  cir : sh'.ri.riCirOff = sh.ri.riCirOff
  alt : sh'.ri.riAltOff = sh.ri.riAltOff
  slot : sh'.ri.riSlot = sh.ri.riSlot + calls.length
  room : sh.ri.riSlot + calls.length < cfg.rcSize
  /-- The calls in flight have not fetched a slot, or hold the one they have fetched. -/
  inFlight : ∀ x c, callers x = some c → c.outer = [] ∧ (c.pc = .fetch ∨
    ∃ j, calls[j]? = some (c.args, c.stamps) ∧ c.Holds sh.ri.riCirOff (sh.freeSlot + j))
  kept : bufRecords sh'.reBase sh.ri.riCirOff sh.freeSlot = sh.activeRecords
  /-- The record of a call is in its place, unless the call still holds it. -/
  stored : ∀ j p, calls[j]? = some p →
    sh'.reBase (sh.ri.riCirOff + (sh.freeSlot + j)) = p.entry ∨
      ∃ x c, callers x = some c ∧ c.Holds sh.ri.riCirOff (sh.freeSlot + j)

/-- The same, with the daemon about to write the inactive buffer if any. -/
structure Linear (cfg : RingConfig) (sh : Shm) (calls : List Placing) (s : Conc τ κ) : Prop where
  places : Places cfg sh calls s.sys.toShm s.callers
  selected : ∀ p, s.pc.selected = some p → s.pc.flushing = false →
    p = (sh.ri.riAltOff, cfg.rcSize)
  slotOff : s.pc.slotOff ≠ none → s.pc.flushing = true

variable [DecidableEq τ] [DecidableEq κ] {cfg : RingConfig} {off : Nat} {sh sh' : Shm}
  {calls : List Placing} {callers : Option τ → Option Call} {s t : Conc τ κ}

/-- Two slots that one call holds are one slot. -/
theorem Call.Holds.slot_inj {c : Call} {o k k' : Nat} (h : c.Holds o k) (h' : c.Holds o k') :
    k = k' := by
  rcases h with h | h <;> rcases h' with h' | h' <;> rw [h] at h' <;> cases h' <;> rfl

omit [DecidableEq τ] in
/-- Only the slot, the offsets and the records of the active buffer matter. -/
theorem Places.of_frame (h : Places cfg sh calls sh' callers) {sh'' : Shm}
    (hcir : sh''.ri.riCirOff = sh'.ri.riCirOff) (halt : sh''.ri.riAltOff = sh'.ri.riAltOff)
    (hslot : sh''.ri.riSlot = sh'.ri.riSlot)
    (hmem : ∀ i < cfg.rcSize, sh''.reBase (sh.ri.riCirOff + i) = sh'.reBase (sh.ri.riCirOff + i))
    (hge : -1 ≤ sh.ri.riSlot) : Places cfg sh calls sh'' callers := by
  have hroom := h.room
  refine ⟨hcir.trans h.cir, halt.trans h.alt, hslot.trans h.slot, hroom, h.inFlight, ?_,
    fun j p hp ↦ ?_⟩
  · rw [← h.kept]
    refine List.map_congr_left fun i hi ↦ hmem i ?_
    have hi := List.mem_range.1 hi
    unfold Shm.freeSlot at hi
    omega
  · have hj := (List.getElem?_eq_some_iff.1 hp).1
    rw [hmem _ (by unfold Shm.freeSlot; omega)]
    exact h.stored j p hp

/-- A call is entered. -/
theorem Places.enter (h : Places cfg sh calls sh' callers) {x : Option τ} (hx : callers x = none)
    (st : Nat → Stamp) (a : TraceArgs) :
    Places cfg sh calls sh' (Function.update callers x (some (.enter st a))) := by
  refine ⟨h.cir, h.alt, h.slot, h.room, fun y d hd ↦ ?_, h.kept, fun j p hp ↦ ?_⟩
  · by_cases hy : y = x
    · subst hy
      rw [Function.update_self] at hd
      cases hd
      exact ⟨rfl, .inl rfl⟩
    · rw [Function.update_of_ne hy] at hd
      exact h.inFlight y d hd
  · refine (h.stored j p hp).imp id ?_
    rintro ⟨y, d, hd, hholds⟩
    have hy : y ≠ x := by
      rintro rfl
      rw [hx] at hd
      cases hd
    exact ⟨y, d, by rwa [Function.update_of_ne hy], hholds⟩

/-- A call fetches the next slot. -/
theorem Places.fetch (h : Places cfg sh calls sh' callers) (hge : -1 ≤ sh.ri.riSlot)
    (hlt : cfg.rcSize < 2 ^ 31) {x : Option τ} {c : Call} (hx : callers x = some c)
    (hpc : c.pc = .fetch) (hroom : sh'.ri.nextSlot < cfg.rcSize) :
    Places cfg sh (calls ++ [(c.args, c.stamps)]) (fetchSlot sh').1
      (Function.update callers x (some { c with pc := .readOff sh'.ri.nextSlot })) := by
  have hroom₀ := h.room
  have hslot := h.slot
  have hi : i32 (sh'.ri.riSlot + 1) = sh'.ri.riSlot + 1 := i32_of_range (by omega) (by omega)
  have hu : sh'.ri.nextSlot = sh.freeSlot + calls.length := by
    have hu := u32_of_range (x := sh'.ri.riSlot + 1) (by omega) (by omega)
    unfold RingInfo.nextSlot Shm.freeSlot
    omega
  have hlen : ((calls ++ [(c.args, c.stamps)]).length : Int) = calls.length + 1 := by simp
  refine ⟨h.cir, h.alt, ?_, ?_, fun y d hd ↦ ?_, h.kept, fun j p hp ↦ ?_⟩
  · rw [hlen]
    dsimp only [fetchSlot]
    rw [hi, hslot]
    omega
  · rw [hu, Shm.freeSlot] at hroom
    rw [hlen]
    omega
  · by_cases hy : y = x
    · -- the call that moves has been given the next place
      subst hy
      rw [Function.update_self] at hd
      cases hd
      refine ⟨(h.inFlight y c hx).1, .inr ⟨calls.length, by simp, .inl ?_⟩⟩
      rw [hu]
    · rw [Function.update_of_ne hy] at hd
      obtain ⟨houter, hfetch | ⟨j, hj, hholds⟩⟩ := h.inFlight y d hd
      · exact ⟨houter, .inl hfetch⟩
      · have hjl := (List.getElem?_eq_some_iff.1 hj).1
        exact ⟨houter, .inr ⟨j, by rw [List.getElem?_append_left hjl, hj], hholds⟩⟩
  · by_cases hj : j < calls.length
    · rw [List.getElem?_append_left hj] at hp
      refine (h.stored j p hp).imp id ?_
      rintro ⟨y, d, hd, hholds⟩
      have hy : y ≠ x := by
        rintro rfl
        obtain rfl := Option.some.inj (hx.symm.trans hd)
        rcases hholds with hh | hh <;> rw [hpc] at hh <;> cases hh
      exact ⟨y, d, by rwa [Function.update_of_ne hy], hholds⟩
    · have hjl : j = calls.length := by
        have hlt := (List.getElem?_eq_some_iff.1 hp).1
        rw [List.length_append, List.length_singleton] at hlt
        omega
      subst hjl
      exact .inr ⟨x, _, Function.update_self .., .inl (by rw [hu])⟩

/-- A call that holds a slot reads `ri_cir_off`. -/
theorem Places.read (h : Places cfg sh calls sh' callers) {x : Option τ} {c : Call} {k : Nat}
    (hx : callers x = some c) (hpc : c.pc = .readOff k) :
    Places cfg sh calls sh'
      (Function.update callers x (some { c with pc := .store sh'.ri.riCirOff k })) := by
  obtain ⟨houter, hfetch | ⟨i, hi, hholds⟩⟩ := h.inFlight x c hx
  · rw [hpc] at hfetch
    cases hfetch
  have hk : k = sh.freeSlot + i := Call.Holds.slot_inj (.inl hpc) hholds
  refine ⟨h.cir, h.alt, h.slot, h.room, fun y d hd ↦ ?_, h.kept, fun j p hp ↦ ?_⟩
  · by_cases hy : y = x
    · subst hy
      rw [Function.update_self] at hd
      cases hd
      exact ⟨houter, .inr ⟨i, hi, .inr (by rw [h.cir, hk])⟩⟩
    · rw [Function.update_of_ne hy] at hd
      exact h.inFlight y d hd
  · refine (h.stored j p hp).imp id ?_
    rintro ⟨y, d, hd, hheld⟩
    by_cases hy : y = x
    · subst hy
      obtain rfl := Option.some.inj (hx.symm.trans hd)
      have hkj : k = sh.freeSlot + j := Call.Holds.slot_inj (.inl hpc) hheld
      exact ⟨y, _, Function.update_self .., .inr (by rw [h.cir, hkj])⟩
    · exact ⟨y, d, by rwa [Function.update_of_ne hy], hheld⟩

/-- A call that holds an entry stores its record and returns. -/
theorem Places.store (h : Places cfg sh calls sh' callers) {x : Option τ} {c : Call} {o k : Nat}
    (hx : callers x = some c) (hpc : c.pc = .store o k) :
    Places cfg sh calls
      { sh' with reBase := Function.update sh'.reBase (o + k) (entryOf c.args (c.stamps 0)) }
      (Function.update callers x none) := by
  obtain ⟨houter, hfetch | ⟨i, hi, hholds⟩⟩ := h.inFlight x c hx
  · rw [hpc] at hfetch
    cases hfetch
  obtain ⟨rfl, rfl⟩ : o = sh.ri.riCirOff ∧ k = sh.freeSlot + i := by
    rcases hholds with hh | hh <;> rw [hpc] at hh <;> cases hh
    exact ⟨rfl, rfl⟩
  refine ⟨h.cir, h.alt, h.slot, h.room, fun y d hd ↦ ?_, ?_, fun j p hp ↦ ?_⟩
  · by_cases hy : y = x
    · subst hy
      rw [Function.update_self] at hd
      cases hd
    · rw [Function.update_of_ne hy] at hd
      exact h.inFlight y d hd
  · rw [← h.kept]
    exact bufRecords_update_of_not_mem (.inr (by omega))
  · by_cases hj : j = i
    · subst hj
      obtain rfl := Option.some.inj (hi.symm.trans hp)
      exact .inl (Function.update_self ..)
    · dsimp only
      rw [Function.update_of_ne (by omega)]
      refine (h.stored j p hp).imp id ?_
      rintro ⟨y, d, hd, hheld⟩
      have hy : y ≠ x := by
        rintro rfl
        obtain rfl := Option.some.inj (hx.symm.trans hd)
        have := Call.Holds.slot_inj hholds hheld
        omega
      exact ⟨y, d, by rwa [Function.update_of_ne hy], hheld⟩

/-- Clients leave the records alone. -/
theorem clientStep_reBase (sh : Shm) (pc : ClientPc) : (clientStep sh pc).1.reBase = sh.reBase := by
  cases pc with
  | enter op =>
      cases op with
      | size argp => cases argp <;> rfl
      | _ => rfl
  | _ => rfl

/-- A call takes a step. -/
theorem Linear.advance (h : Linear cfg sh calls s) (hge : -1 ≤ sh.ri.riSlot)
    (hlt : cfg.rcSize < 2 ^ 31) {x : Option τ} {leave : Bool}
    (hroom : FindsRoom cfg s (.advance x leave))
    (ht : (concurrent τ κ cfg).step s (.advance x leave) = some t) :
    Linear cfg sh (calls ++ placed s (.advance x leave)) t ∧
      ∀ rc ∈ returned cfg s (.advance x leave), rc = 0 := by
  obtain ⟨r, hr, rfl⟩ := Option.map_eq_some_iff.1 ht
  obtain ⟨c, hc, rfl⟩ := Thread.advance_eq_some.1 hr
  obtain ⟨houter, hfetch | ⟨j, -, hread | hstore⟩⟩ := h.places.inFlight x c hc
  · have hr : s.sys.ri.nextSlot < cfg.rcSize := hroom (by rw [Conc.at, hc, Option.map_some, hfetch])
    have hstep : (rbtraceCall cfg).step leave s.sys.toShm c =
        ((fetchSlot s.sys.toShm).1, .inl { c with pc := .readOff s.sys.ri.nextSlot }) := by
      have hnext : (fetchSlot s.sys.toShm).2 = s.sys.ri.nextSlot := rfl
      simp only [rbtraceCall, Call.step, hfetch, callStep, Call.next, hnext, if_pos hr]
    have hplaced : placed s (.advance x leave) = [(c.args, c.stamps)] := by
      simp only [placed, hc, hfetch, if_true]
    have hreturned : returned cfg s (.advance x leave) = [] := by
      simp only [returned, hc, show c.step cfg leave s.sys.toShm = _ from hstep]
      rfl
    rw [hstep, hplaced, hreturned]
    exact ⟨⟨h.places.fetch hge hlt hc hfetch hr, h.selected, h.slotOff⟩, by simp⟩
  · have hstep : (rbtraceCall cfg).step leave s.sys.toShm c =
        (s.sys.toShm, .inl { c with pc := .store s.sys.ri.riCirOff (sh.freeSlot + j) }) := by
      simp only [rbtraceCall, Call.step, hread, callStep, Call.next]
    have hplaced : placed s (.advance x leave) = [] := by
      simp only [placed, hc, hread, reduceCtorEq, if_false]
    have hreturned : returned cfg s (.advance x leave) = [] := by
      simp only [returned, hc, show c.step cfg leave s.sys.toShm = _ from hstep]
      rfl
    rw [hstep, hplaced, hreturned, List.append_nil]
    exact ⟨⟨h.places.read hc hread, h.selected, h.slotOff⟩, by simp⟩
  · have hstep : (rbtraceCall cfg).step leave s.sys.toShm c =
        ({ s.sys.toShm with
            reBase := Function.update s.sys.reBase (sh.ri.riCirOff + (sh.freeSlot + j))
              (entryOf c.args (c.stamps 0)) }, .inr 0) := by
      simp only [rbtraceCall, Call.step, hstore, callStep, Call.next, houter, fillEntry_stampEntry]
    have hplaced : placed s (.advance x leave) = [] := by
      simp only [placed, hc, hstore, reduceCtorEq, if_false]
    have hreturned : returned cfg s (.advance x leave) = [0] := by
      simp only [returned, hc, show c.step cfg leave s.sys.toShm = _ from hstep]
      rfl
    rw [hstep, hplaced, hreturned, List.append_nil]
    exact ⟨⟨h.places.store hc hstore, h.selected, h.slotOff⟩, by simp⟩

/-- A daemon that is not about to flush the active buffer has selected the inactive one. -/
theorem Flow.selected_inactive {ri ri' : RingInfo} {pc pc' : DaemonPc}
    (hf : Flow cfg ri pc ri' pc') (hsize : cfg.rcDataSize / sizeofEntry = cfg.rcSize)
    (hnf : pc.flushing = false)
    (hsel : ∀ p, pc.selected = some p → p = (ri.riAltOff, cfg.rcSize))
    (hoff : pc.slotOff ≠ none → pc.flushing = true) :
    (∀ p, pc'.selected = some p → pc'.flushing = false → p = (ri.riAltOff, cfg.rcSize)) ∧
      (pc'.slotOff ≠ none → pc'.flushing = true) := by
  cases hf with
  | @data w pc ri' pc' hf =>
      cases hf with
      | active hd => exact ⟨by simp, fun _ ↦ hd⟩
      | inactive hd =>
          refine ⟨fun p hp _ ↦ ?_, by simp⟩
          rw [← Option.some.inj hp, hsize]
      | slot => exact absurd (hoff (Option.some_ne_none _)) (by rw [hnf]; exact Bool.false_ne_true)
      | wrap => exact ⟨fun p hp _ ↦ hsel p hp, by simp⟩
      | _ => exact ⟨by simp, by simp⟩
  | @dataReturn w pc ri' hf =>
      obtain ⟨c, _ | _⟩ := w <;> exact ⟨by simp [Site.return], by simp [Site.return]⟩
  | _ => exact ⟨by simp, by simp⟩

/-- The daemon takes a step. -/
theorem Linear.daemon (h : Linear cfg sh calls s) (hok : RingOk cfg off sh)
    (hsize : cfg.rcDataSize / sizeofEntry = cfg.rcSize) (hroom : FindsRoom cfg s .daemon)
    (ht : (concurrent τ κ cfg).step s .daemon = some t) : Linear cfg sh calls t := by
  have hnf : s.pc.flushing = false := hroom
  simp only [concurrent, Conc.step, Conc.daemon] at ht
  split at ht
  · cases ht
  rename_i hnone
  split at ht
  · -- the report is a call like any other
    rename_i w lost hpc
    cases ht
    refine ⟨h.places.enter hnone _ _, ?_, ?_⟩ <;> dsimp only [Site.return] <;> split <;> simp
  · obtain ⟨r, hr, rfl⟩ := Option.map_eq_some_iff.1 ht
    have hf := daemonStep_flow hr
    obtain ⟨hcir, halt, hslot, -⟩ := hf.ring
    have hmem : ∀ i < cfg.rcSize,
        r.1.reBase (sh.ri.riCirOff + i) = s.sys.reBase (sh.ri.riCirOff + i) := by
      intro i hi
      cases hw : s.pc.writes with
      | false => rw [daemonStep_reBase hw hr]
      | true =>
          -- the buffer that is cleared is the inactive one
          obtain ⟨w, o, n, upd, hpc⟩ : ∃ w o n upd, s.pc = .data w (.write o n upd) := by
            unfold DaemonPc.writes at hw
            split at hw
            · rename_i hpc
              exact ⟨_, _, _, _, hpc⟩
            · cases hw
          have hsel := h.selected (o, n) (by rw [hpc]; rfl) hnf
          obtain ⟨rfl, rfl⟩ := Prod.mk.inj hsel
          rw [hpc] at hr
          cases hr
          have hb := hok.buffers
          simp only [writeBuffer]
          split
          · exact if_neg (by omega)
          · rfl
    obtain ⟨hsel, hoff⟩ := hf.selected_inactive hsize hnf
      (fun p hp ↦ by rw [h.places.alt]; exact h.selected p hp hnf) h.slotOff
    refine ⟨h.places.of_frame hcir halt hslot hmem hok.slot_ge, fun p hp hnf' ↦ ?_, hoff⟩
    rw [← h.places.alt]
    exact hsel p hp hnf'

/-- **One step**: a call that fetches its slot takes the next place in the order, and a call
that returns returns 0. -/
theorem Linear.step {e : ConcEvent τ κ} (h : Linear cfg sh calls s) (hok : RingOk cfg off sh)
    (hlt : cfg.rcSize < 2 ^ 31) (hsize : cfg.rcDataSize / sizeofEntry = cfg.rcSize)
    (hroom : FindsRoom cfg s e) (ht : (concurrent τ κ cfg).step s e = some t) :
    Linear cfg sh (calls ++ placed s e) t ∧ ∀ rc ∈ returned cfg s e, rc = 0 := by
  have hother : Linear cfg sh calls t →
      Linear cfg sh (calls ++ []) t ∧ ∀ rc ∈ ([] : List Int), rc = 0 := fun ht ↦
    ⟨(List.append_nil calls).symm ▸ ht, fun _ hrc ↦ absurd hrc List.not_mem_nil⟩
  cases e with
  | advance x leave => exact h.advance hok.slot_ge hlt hroom ht
  | call x st a =>
      refine hother ?_
      simp only [concurrent, Conc.step] at ht
      split at ht
      · cases ht
      · rename_i hnone
        cases ht
        exact ⟨h.places.enter hnone st a, h.selected, h.slotOff⟩
  | wake io =>
      refine hother ?_
      simp only [concurrent, Conc.step] at ht
      split at ht
      · cases ht
        exact ⟨h.places, by simp, by simp⟩
      · cases ht
  | daemon => exact hother (h.daemon hok hsize hroom ht)
  | ctrl k op =>
      refine hother ?_
      simp only [concurrent, Conc.step] at ht
      split at ht
      · cases ht
      · cases ht
        exact ⟨h.places, h.selected, h.slotOff⟩
  | client k =>
      obtain ⟨r, hr, rfl⟩ := Option.map_eq_some_iff.1 ht
      obtain ⟨pc, hpc, rfl⟩ := Thread.advance_eq_some.1 hr
      obtain ⟨hcir, halt, hslot, -⟩ := clientStep_ring s.sys.toShm pc
      rw [hroom pc hpc, if_neg Bool.false_ne_true] at hslot
      refine hother ⟨h.places.of_frame hcir halt hslot (fun i _ ↦ ?_) hok.slot_ge, h.selected,
        h.slotOff⟩
      exact congrFun (clientStep_reBase s.sys.toShm pc) _

/-! ## The theorem -/

/-- **Calls that find room are linearizable.**  Take any number of callers, clients and the
daemon, in any order, from a ring in order: as long as every fetch finds room, the active
buffer is not flushed and no file is opened, every call returns 0, and once no call is in
flight the ring is what the calls would have made of it one after the other, in the order of
their fetches. -/
theorem linear_of_run (cfg : ValidRingConfig) {sys : Sys} (hok : RingOk cfg off sys.toShm)
    {evs : List (ConcEvent τ κ)}
    (hroom : (concurrent τ κ cfg).Guarded (FindsRoom cfg) (.start sys) evs)
    (ht : (concurrent τ κ cfg).run (.start sys) evs = some t) :
    (∀ rc ∈ (concurrent τ κ cfg).collect (returned cfg) (.start sys) evs, rc = 0) ∧
    t.sys.ri.riCirOff = (rbtraceAll cfg sys.toShm
      ((concurrent τ κ cfg).collect placed (.start sys) evs)).ri.riCirOff ∧
    t.sys.ri.riSlot = (rbtraceAll cfg sys.toShm
      ((concurrent τ κ cfg).collect placed (.start sys) evs)).ri.riSlot ∧
    ((∀ x, t.callers x = none) → t.sys.activeRecords = (rbtraceAll cfg sys.toShm
      ((concurrent τ κ cfg).collect placed (.start sys) evs)).activeRecords) := by
  have hlt := cfg.rcSize_lt_int
  have hlt₀ := hok.slot_lt
  have hstart : Linear cfg sys.toShm [] (.start sys : Conc τ κ) := by
    refine ⟨⟨rfl, rfl, by simp [Conc.start], by simpa using hlt₀, ?_, rfl, by simp⟩, ?_, ?_⟩
    · intro x c hc
      cases hc
    · intro p hp
      cases hp
    · intro hs
      exact absurd rfl hs
  have hzero : ∀ rc ∈ (concurrent τ κ cfg).collect (returned cfg) (.start sys) evs, rc = 0 := by
    have hstep : ∀ s (h : List Int) e t, ((∃ calls, Linear cfg sys.toShm calls s) ∧
        ∀ rc ∈ h, rc = 0) → FindsRoom cfg s e → (concurrent τ κ cfg).step s e = some t →
        (∃ calls, Linear cfg sys.toShm calls t) ∧ ∀ rc ∈ h ++ returned cfg s e, rc = 0 := by
      rintro s h e t ⟨⟨calls, hl⟩, hz⟩ hroom ht
      obtain ⟨hl', hz'⟩ := hl.step hok hlt cfg.rcDataSize_div hroom ht
      refine ⟨⟨_, hl'⟩, fun rc hrc ↦ ?_⟩
      rcases List.mem_append.1 hrc with hrc | hrc
      · exact hz rc hrc
      · exact hz' rc hrc
    have hinv := hroom.collect_invariant hstep (h := []) ⟨⟨_, hstart⟩, by simp⟩ ht
    simpa using hinv.2
  have hstep : ∀ s calls e t, Linear cfg sys.toShm calls s → FindsRoom cfg s e →
      (concurrent τ κ cfg).step s e = some t →
      Linear cfg sys.toShm (calls ++ placed s e) t :=
    fun s calls e t hs hroom ht ↦ (hs.step hok hlt cfg.rcDataSize_div hroom ht).1
  have hlin := hroom.collect_invariant hstep (h := []) hstart ht
  rw [List.nil_append] at hlin
  generalize (concurrent τ κ cfg).collect placed (.start sys) evs = calls at hlin ⊢
  obtain ⟨hri, hrec⟩ := rbtraceAll_of_room hlt hok hlin.places.room
  refine ⟨hzero, ?_, ?_, fun hnone ↦ ?_⟩
  · rw [hri]
    exact hlin.places.cir
  · rw [hri]
    exact hlin.places.slot
  · have hge := hok.slot_ge
    have hcount : (t.sys.ri.riSlot + 1).toNat = sys.toShm.freeSlot + calls.length := by
      have := hlin.places.slot
      unfold Shm.freeSlot
      omega
    have hdone : ∀ j p, calls[j]? = some p →
        t.sys.reBase (sys.ri.riCirOff + sys.toShm.freeSlot + j) = p.entry := by
      intro j p hp
      rw [Nat.add_assoc]
      obtain hdone | ⟨x, c, hc, -⟩ := hlin.places.stored j p hp
      · exact hdone
      · rw [hnone x] at hc
        cases hc
    rw [hrec, Shm.activeRecords, hcount, hlin.places.cir, bufRecords_add, hlin.places.kept,
      bufRecords_eq_map hdone]

end

instance decidableFindsRoom {τ κ : Type} (cfg : RingConfig) (s : Conc τ κ) :
    ∀ e, Decidable (FindsRoom cfg s e)
  | .advance x _ => inferInstanceAs (Decidable (s.at x = some .fetch → _))
  | .daemon => inferInstanceAs (Decidable (_ = _))
  | .client k => inferInstanceAs (Decidable (∀ pc ∈ s.clients k, _ = _))
  | .call _ _ _ | .wake _ | .ctrl _ _ => .isTrue trivial

/-- A ring of two records on which a file has been asked for. -/
def twoAsked : Sys :=
  let s := rbtraceDaemonInit twoRing fun _ ↦ none
  { s with toShm := (rbtraceCtrl (.open (some [47])) s.toShm).1 }

/-- The first caller fetches a slot; the second one fetches the next, stores its record and
returns while the daemon wakes; then the first one goes on. -/
def overtaken : List (ConcEvent (Fin 2) Unit) :=
  traces 0 1 ++ .wake .smooth :: traces 1 3 ++ [.daemon, .daemon] ++ advances 0 2

theorem linear_of_run_overtaken :
    ∃ t ∈ (concurrent (Fin 2) Unit twoRing).run (.start twoAsked) overtaken,
      t.sys.ri.riSlot = 1 ∧ t.sys.activeRecords = (rbtraceAll twoRing twoAsked.toShm
        ((concurrent (Fin 2) Unit twoRing).collect placed (.start twoAsked) overtaken)).activeRecords := by
  have hok : RingOk twoRing 0 twoAsked.toShm :=
    (RingOk.rbtraceDaemonInit (by decide) _).rbtraceCtrl _
  obtain ⟨t, ht, hslot, hnone, hroom⟩ :
      ∃ t ∈ (concurrent (Fin 2) Unit twoRing).run (.start twoAsked) overtaken,
        t.sys.ri.riSlot = 1 ∧ (∀ x, (t.callers x).isNone) ∧
        (concurrent (Fin 2) Unit twoRing).Guarded (FindsRoom twoRing)
          (.start twoAsked) overtaken := by
    decide
  refine ⟨t, ht, hslot, (linear_of_run twoRing hok hroom ht).2.2.2 fun x ↦ ?_⟩
  exact Option.isNone_iff_eq_none.1 (hnone x)

end Rbtrace
