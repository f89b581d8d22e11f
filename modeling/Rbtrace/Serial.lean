import Rbtrace.Client
import Rbtrace.Course
import Mathlib.Data.List.Permutation

/-!
# A client beside the daemon

One client issues control operations while the daemon makes its passes, and both are cut
into accesses: an update of `ri_flags` is a load and a store, and the other party may come
in between.  Nothing keeps it from storing there, and then one of the two stores is lost.

If the two keep out of each other's way (`Apart`), the outcome is that of some order of the
same operations and passes, each made in one step (`serial_of_apart`).
-/

namespace Rbtrace

open scoped List

/-! ## The machine -/

/-- The system with its daemon, and the point of the client; `none` if it is idle. -/
structure Duo where
  inter : Inter
  client : Option ClientPc

/-- One step of either party. -/
inductive DuoEvent where
  /-- A pass starts. -/
  | wake (io : PassIo)
  /-- An access of the daemon. -/
  | daemon
  /-- A control operation starts. -/
  | begin (op : RbtraceOp)
  /-- An access of the client. -/
  | client

/-- The client's next step. -/
def Duo.clientStep (d : Duo) (p : ClientPc) : Duo :=
  let r := Rbtrace.clientStep d.inter.sys.toShm p
  ⟨{ d.inter with sys := { d.inter.sys with toShm := r.1 } }, r.2.getLeft?⟩

/-- The state after one step; `none` if it cannot be taken, or if the daemon crashes. -/
def Duo.step (cfg : RingConfig) (d : Duo) : DuoEvent → Option Duo
  | .wake io => (d.inter.step cfg (.wake io)).map fun i ↦ { d with inter := i }
  | .daemon => (d.inter.daemon cfg).map fun i ↦ { d with inter := i }
  | .begin op => if d.client.isNone then some { d with client := some (.enter op) } else none
  | .client => d.client.map d.clientStep

/-- One client and the daemon, side by side. -/
def duo (cfg : RingConfig) : Machine Duo DuoEvent := ⟨Duo.step cfg⟩

/-- Both parties are idle. -/
def Duo.start (s : Sys) : Duo := ⟨⟨s, .smooth, .idle⟩, none⟩

/-- The whole step that a step begins. -/
def DuoEvent.begun : DuoEvent → List Event
  | .wake io => [.pass io]
  | .begin op => [.ctrl op]
  | _ => []

/-! ## Keeping apart -/

/-- The client is about to store to shared memory. -/
def ClientPc.stores : ClientPc → Bool
  | .enter (.size argp) => argp.isSome
  | .enter _ | .openLoad | .diskLoad | .closeLoad | .wrapLoad _ | .zapLoad _ => false
  | _ => true

/-- The client has made one of its stores, and has another one to make. -/
def ClientPc.midway : ClientPc → Bool
  | .openFlush | .openLost | .openLoad | .openStore _ | .closeLoad | .closeStore _ => true
  | _ => false

/-- The client has loaded the flags and is about to store them. -/
def ClientPc.holds : ClientPc → Bool
  | .openStore _ | .diskStore _ | .closeStore _ | .wrapStore _ _ | .zapStore _ _ => true
  | _ => false

/-- The client has found the session open, to close it. -/
def ClientPc.foundOpen : ClientPc → Bool
  | .diskLoad => true
  | _ => false

/-- The session is about to be stopped. -/
def DaemonPc.stops : DaemonPc → Bool
  | .data _ (.stopStore _ _) => true
  | _ => false

/-- **The two keep apart.**  The client stores only between passes, and no pass starts
between two stores of one operation; the daemon stores the flags only while the client
holds none, and does not stop a session that the client has found open to close it. -/
def Apart (d : Duo) : DuoEvent → Prop
  | .wake _ => ∀ p ∈ d.client, p.midway = false
  | .daemon => ∀ p ∈ d.client, (d.inter.pc.held ≠ none → p.holds = false) ∧
      (d.inter.pc.stops → p.foundOpen = false)
  | .begin _ => True
  | .client => ∀ p ∈ d.client, p.stores → d.inter.pc = .idle

instance decidableApart (d : Duo) : ∀ e, Decidable (Apart d e)
  | .wake _ => inferInstanceAs (Decidable (∀ p ∈ d.client, p.midway = false))
  | .daemon => inferInstanceAs (Decidable (∀ p ∈ d.client,
      (d.inter.pc.held ≠ none → p.holds = false) ∧ (d.inter.pc.stops → p.foundOpen = false)))
  | .begin _ => inferInstanceAs (Decidable True)
  | .client => inferInstanceAs (Decidable (∀ p ∈ d.client, p.stores → d.inter.pc = .idle))

/-! ## What the client has found out

Up to its first store an operation has only looked, and what it saw has to be true still
when it stores. -/

/-- The operation has got to the point without a store, and would get there again. -/
inductive Ready (sh : Shm) : RbtraceOp → ClientPc → Prop
  | enter (op) : Ready sh op (.enter op)
  | openSlot {path : CStr} (ho : sh.ri.riFlags.doOpen = false) (hd : sh.ri.riFlags.doDisk = false)
      (hp : path.length < RBTRACE_MAX_PATH) : Ready sh (.open (some path)) (.openSlot path)
  | diskLoad (hd : sh.ri.riFlags.doDisk = true) : Ready sh .close .diskLoad
  | diskStore (hd : sh.ri.riFlags.doDisk = true) : Ready sh .close (.diskStore sh.ri.riFlags)
  | wrapLoad {enable} (hz : sh.ri.riFlags.doZap = false) :
      Ready sh (.wrap (some enable)) (.wrapLoad enable)
  | wrapStore {enable} (hz : sh.ri.riFlags.doZap = false) :
      Ready sh (.wrap (some enable)) (.wrapStore enable sh.ri.riFlags)
  | zapLoad {enable} (hw : sh.ri.riFlags.doWrap = false) :
      Ready sh (.zap (some enable)) (.zapLoad enable)
  | zapStore {enable} (hw : sh.ri.riFlags.doWrap = false) :
      Ready sh (.zap (some enable)) (.zapStore enable sh.ri.riFlags)
  | tflagsStore {set tflags} : Ready sh (.tflags (some (set, tflags))) (.tflagsStore
      (if set then sh.ri.riTflags ||| tflags else sh.ri.riTflags &&& ~~~tflags))

section

variable {sh : Shm} {op : RbtraceOp} {p p' : ClientPc}

/-- It would get there again. -/
theorem Ready.solo (h : Ready sh op p) : rbtraceClient.Solo (sh, .inl (.enter op)) (sh, .inl p) := by
  cases h with
  | enter => exact .refl _
  | openSlot ho hd hp =>
      refine solo_client ?_
      simp only [clientStep, enterStep, ho, hd, Bool.false_eq_true, or_self, if_false,
        if_neg (not_le.2 hp)]
      exact .refl _
  | diskLoad hd =>
      refine solo_client ?_
      simp only [clientStep, enterStep, hd, if_true]
      exact .refl _
  | diskStore hd =>
      refine solo_client ?_
      simp only [clientStep, enterStep, hd, if_true]
      exact solo_client (.refl _)
  | wrapLoad hz =>
      refine solo_client ?_
      simp only [clientStep, enterStep, hz, Bool.false_eq_true, if_false]
      exact .refl _
  | wrapStore hz =>
      refine solo_client ?_
      simp only [clientStep, enterStep, hz, Bool.false_eq_true, if_false]
      exact solo_client (.refl _)
  | zapLoad hw =>
      refine solo_client ?_
      simp only [clientStep, enterStep, hw, Bool.false_eq_true, if_false]
      exact .refl _
  | zapStore hw =>
      refine solo_client ?_
      simp only [clientStep, enterStep, hw, Bool.false_eq_true, if_false]
      exact solo_client (.refl _)
  | tflagsStore => exact solo_client (.refl _)

/-- An operation that returns has done what the whole operation does. -/
theorem eq_rbtraceCtrl_of_solo {sh' : Shm} {r : Int}
    (h : rbtraceClient.Solo (sh, .inl (.enter op)) (sh', .inr r)) :
    rbtraceCtrl op sh = (sh', r) := by
  have hend := ((solo_rbtraceCtrl op sh).of_returned h).eq_of_returned
  cases hend
  rfl

/-- A step without a store leaves shared memory alone. -/
theorem clientStep_of_not_stores (hp : p.stores = false) : (clientStep sh p).1 = sh := by
  cases p with
  | enter op =>
      cases op with
      | size argp => cases argp <;> first | rfl | cases hp
      | _ => rfl
  | openLoad | diskLoad | closeLoad | wrapLoad | zapLoad => rfl
  | _ => cases hp

/-- The first step tests the flags and the arguments. -/
theorem Ready.of_enterStep (hstep : (enterStep sh op).2 = .inl p') : Ready sh op p' := by
  cases op with
  | «open» argp =>
      simp only [enterStep] at hstep
      split at hstep
      · cases hstep
      · rename_i hs
        obtain ⟨ho, hd⟩ := not_or.1 hs
        cases argp with
        | none => cases hstep
        | some path =>
            dsimp only at hstep
            split at hstep <;> cases hstep
            rename_i hp
            exact .openSlot (Bool.eq_false_iff.2 ho) (Bool.eq_false_iff.2 hd) (not_le.1 hp)
  | close =>
      simp only [enterStep] at hstep
      split at hstep <;> cases hstep
      exact .diskLoad ‹_›
  | size argp => cases hstep
  | wrap argp =>
      cases argp with
      | none => cases hstep
      | some enable =>
          simp only [enterStep] at hstep
          split at hstep <;> cases hstep
          exact .wrapLoad (Bool.eq_false_iff.2 ‹_›)
  | zap argp =>
      cases argp with
      | none => cases hstep
      | some enable =>
          simp only [enterStep] at hstep
          split at hstep <;> cases hstep
          exact .zapLoad (Bool.eq_false_iff.2 ‹_›)
  | tflags argp =>
      cases argp with
      | none => cases hstep
      | some a =>
          cases hstep
          exact .tflagsStore
  | info argp => cases hstep

/-- Until the first store the client only looks. -/
theorem Ready.step (h : Ready sh op p) (hp : p.stores = false)
    (hstep : (clientStep sh p).2 = .inl p') : Ready sh op p' := by
  cases h with
  | enter => exact .of_enterStep hstep
  | diskLoad hd =>
      cases hstep
      exact .diskStore hd
  | wrapLoad hz =>
      cases hstep
      exact .wrapStore hz
  | zapLoad hw =>
      cases hstep
      exact .zapStore hw
  | _ => cases hp

/-- If it returns without a store, it does so at once. -/
theorem Ready.eq_enter {r : Int} (h : Ready sh op p) (hp : p.stores = false)
    (hstep : (clientStep sh p).2 = .inr r) : p = .enter op := by
  cases h with
  | enter => rfl
  | diskLoad | wrapLoad | zapLoad => cases hstep
  | _ => cases hp

/-- With its first store it either is done or has another one to make. -/
theorem Ready.midway (h : Ready sh op p) (hp : p.stores = true)
    (hstep : (clientStep sh p).2 = .inl p') : p'.midway = true := by
  cases h with
  | enter =>
      cases op with
      | size argp => cases hstep
      | _ => cases hp
  | openSlot | diskStore =>
      cases hstep
      rfl
  | diskLoad | wrapLoad | zapLoad => cases hp
  | wrapStore | zapStore | tflagsStore => cases hstep

/-- And so it goes on. -/
theorem ClientPc.midway_step (h : p.midway = true) (hstep : (clientStep sh p).2 = .inl p') :
    p'.midway = true := by
  cases p with
  | openFlush | openLost | openLoad | closeLoad =>
      cases hstep
      rfl
  | openStore | closeStore => cases hstep
  | _ => cases h

/-- **What the client has found out stays true** while the two keep apart. -/
theorem Ready.daemon {cfg : RingConfig} {f₀ : RiFlags} {s t : Inter}
    (hflush : f₀.doFlush = f₀.doClose) (hc : s.pc.Course f₀ s.sys.ri.riFlags)
    (ht : s.daemon cfg = some t) (hholds : s.pc.held ≠ none → p.holds = false)
    (hstops : s.pc.stops → p.foundOpen = false) (h : Ready s.sys.toShm op p) :
    Ready t.sys.toShm op p := by
  obtain ⟨-, hflags, htflags⟩ := hc.daemon hflush ht
  have hpolicy := s.pc.update_policy s.sys.ri.riFlags
  rw [← hflags] at hpolicy
  -- nothing is stored while the client holds the flags
  have hkeep : p.holds = true → t.sys.ri.riFlags = s.sys.ri.riFlags := by
    intro hp
    have hheld : s.pc.held = none := by
      by_contra hne
      exact Bool.eq_false_iff.1 (hholds hne) hp
    rw [hflags, DaemonPc.update_of_held_eq_none hheld]
  cases h with
  | enter => exact .enter op
  | openSlot ho hd hp =>
      have hidle := hc.update_idle ho hd
      rw [← hflags] at hidle
      exact .openSlot hidle.1 hidle.2 hp
  | diskLoad hd =>
      refine .diskLoad ?_
      rw [hflags]
      refine DaemonPc.update_doDisk hd ?_
      rintro w upd g hpc
      exact nomatch hstops (by rw [hpc]; rfl)
  | diskStore hd =>
      rw [← hkeep rfl] at hd ⊢
      exact .diskStore hd
  | wrapLoad hz => exact .wrapLoad (hpolicy.2.trans hz)
  | wrapStore hz =>
      rw [← hkeep rfl] at hz ⊢
      exact .wrapStore hz
  | zapLoad hw => exact .zapLoad (hpolicy.1.trans hw)
  | zapStore hw =>
      rw [← hkeep rfl] at hw ⊢
      exact .zapStore hw
  | tflagsStore =>
      rw [← htflags]
      exact .tflagsStore

end

/-! ## The whole steps behind a run -/

/-- The daemon between passes, or in a pass from `u`, and the whole steps that are due: the
pass, and the closes that were rejected because it has stopped the session. -/
inductive Passing (cfg : RingConfig) (u : Sys) : Inter → List Event → Prop
  | between {io} : Passing cfg u ⟨u, io, .idle⟩ []
  | within {s io pc k} (h : Alone cfg ⟨u, io, .testClose⟩ ⟨s, io, pc⟩) (hpc : pc ≠ .idle)
      (hk : k = 0 ∨ u.ri.riFlags.doDisk = true ∧ s.ri.riFlags.doDisk = false) :
      Passing cfg u ⟨s, io, pc⟩ (.pass io :: List.replicate k (.ctrl .close))

/-- The client idle, or in an operation that has not stored yet and is due. -/
inductive Looking (sh : Shm) : Option ClientPc → List Event → Prop
  | idle : Looking sh none []
  | ready {op p} (h : Ready sh op p) : Looking sh (some p) [.ctrl op]

/-- **How a state of the two comes about.**  Whole steps lead to `u`, and the steps in the
list are due; a client that has begun to store has the daemon to itself. -/
inductive Behind (cfg : RingConfig) (u : Sys) : Duo → List Event → Prop
  | looking {i c due due'} (hp : Passing cfg u i due) (hc : Looking i.sys.toShm c due') :
      Behind cfg u ⟨i, c⟩ (due ++ due')
  | storing {sh io op p} (hp : p.midway = true)
      (h : rbtraceClient.Solo (u.toShm, .inl (.enter op)) (sh, .inl p)) :
      Behind cfg u ⟨⟨{ u with toShm := sh }, io, .idle⟩, some p⟩ [.ctrl op]

/-- The whole steps that a step completes, and what is due after it. -/
def Follows (cfg : RingConfig) (u : Sys) (due : List Event) (d : Duo) : Prop :=
  ∃ es u' due', (system cfg).run u es = some u' ∧ Behind cfg u' d due' ∧ es ++ due' ~ due

section

variable {cfg : RingConfig} {u : Sys} {due : List Event} {d d' : Duo}

/-- A step that completes nothing. -/
theorem Behind.follows (h : Behind cfg u d due) : Follows cfg u due d :=
  ⟨[], u, due, rfl, h, .refl _⟩

/-- A pass starts. -/
theorem Behind.wake {io : PassIo} (h : Behind cfg u d due) (ha : Apart d (.wake io))
    (hstep : d.step cfg (.wake io) = some d') : Follows cfg u (due ++ [.pass io]) d' := by
  obtain ⟨i, hi, rfl⟩ := Option.map_eq_some_iff.1 hstep
  simp only [Inter.step] at hi
  split at hi <;> cases hi
  rename_i hpc
  cases h with
  | @looking j c due due' hp hc =>
      cases hp with
      | between =>
          refine ⟨[], u, [.pass io] ++ due', rfl, ?_,
            show [Event.pass io] ++ due' ~ due' ++ [.pass io] from List.perm_append_comm⟩
          exact .looking (.within (k := 0) (.refl _) (fun h ↦ by cases h) (.inl rfl)) hc
      | within _ hne => exact absurd hpc hne
  | storing hp => exact absurd hp (Bool.eq_false_iff.1 (ha _ rfl))

/-- An operation starts. -/
theorem Behind.begin {op : RbtraceOp} (h : Behind cfg u d due)
    (hstep : d.step cfg (.begin op) = some d') : Follows cfg u (due ++ [.ctrl op]) d' := by
  simp only [Duo.step] at hstep
  split at hstep <;> cases hstep
  rename_i hnone
  cases h with
  | @looking j c due due' hp hc =>
      cases hc with
      | idle =>
          rw [List.append_nil]
          exact (Behind.looking hp (.ready (.enter op))).follows
      | ready => cases hnone
  | storing => cases hnone

theorem Looking.daemon {f₀ : RiFlags} {i j : Inter} {c : Option ClientPc}
    (hflush : f₀.doFlush = f₀.doClose) (hcourse : i.pc.Course f₀ i.sys.ri.riFlags)
    (hi : i.daemon cfg = some j) (ha : Apart ⟨i, c⟩ .daemon) (h : Looking i.sys.toShm c due) :
    Looking j.sys.toShm c due := by
  cases h with
  | idle => exact .idle
  | ready h => exact .ready (h.daemon hflush hcourse hi (ha _ rfl).1 (ha _ rfl).2)

/-- Closing a session that is not open does nothing, however often. -/
theorem run_replicate_close {s : Sys} (hd : s.ri.riFlags.doDisk = false) (k : ℕ) :
    (system cfg).run s (List.replicate k (.ctrl .close)) = some s := by
  induction k with
  | zero => rfl
  | succ k ih =>
      refine (system cfg).run_cons_eq_some.2 ⟨s, ?_, ih⟩
      simp only [system, Sys.step, rbtraceCtrl, rbtraceCtrlClose, hd, Bool.false_eq_true, if_false]

/-- The daemon moves on; with the last step of a pass the pass is made, and so are the
closes that had to wait for it. -/
theorem Behind.daemon (hok : FlagsOk u.ctl) (h : Behind cfg u d due) (ha : Apart d .daemon)
    (hstep : d.step cfg .daemon = some d') : Follows cfg u due d' := by
  obtain ⟨j, hj, rfl⟩ := Option.map_eq_some_iff.1 hstep
  cases h with
  | storing => cases hj
  | @looking i c due due' hp hc =>
      cases hp with
      | between => cases hj
      | @within s io pc k hal hpc hk =>
          have hcourse := DaemonPc.Course.of_alone hok.flush_eq hal
          obtain ⟨-, hflags, -⟩ := hcourse.daemon hok.flush_eq hj
          have hal' : Alone cfg ⟨u, io, .testClose⟩ j := hal.trans (.head hj (.refl _))
          have hio : j.io = io := hal'.io_eq
          have hc' := hc.daemon hok.flush_eq hcourse hj ha
          have hk' : k = 0 ∨ u.ri.riFlags.doDisk = true ∧ j.sys.ri.riFlags.doDisk = false := by
            refine hk.imp_right ?_
            rintro ⟨hd₀, hd⟩
            refine ⟨hd₀, ?_⟩
            rw [hflags]
            refine hcourse.update_stopped hd₀ (hok.close_of_disk hd₀) ?_ hpc hd
            by_contra ho
            exact Bool.eq_false_iff.1 (hok.disk_of_open (Bool.eq_true_of_not_eq_false ho)) hd₀
          obtain ⟨t, io', pc'⟩ := j
          obtain rfl : io' = io := hio
          by_cases hidle : pc' = .idle
          · subst hidle
            have hpass : (system cfg).step u (.pass io') = some t := alone_pass_iff.1 hal'
            refine ⟨.pass io' :: List.replicate k (.ctrl .close), t, [] ++ due',
              (system cfg).run_cons_eq_some.2 ⟨t, hpass, ?_⟩, .looking .between hc', .refl _⟩
            rcases hk' with rfl | ⟨-, hd⟩
            · rfl
            · exact run_replicate_close hd k
          · exact (Behind.looking (.within hal' hidle hk') hc').follows

/-- An operation that returns without a store would have done so before the pass too, or
it is a close that found the session stopped. -/
theorem rbtraceCtrl_of_returned {sh sh₀ : Shm} {op : RbtraceOp} {r : Int}
    (hr : (enterStep sh op).2 = .inr r) (hstores : (ClientPc.enter op).stores = false)
    (hpolicy : sh.ri.riFlags.doWrap = sh₀.ri.riFlags.doWrap ∧
      sh.ri.riFlags.doZap = sh₀.ri.riFlags.doZap)
    (hsession : sh.ri.riFlags.doOpen ∨ sh.ri.riFlags.doDisk →
      sh₀.ri.riFlags.doOpen ∨ sh₀.ri.riFlags.doDisk) :
    (rbtraceCtrl op sh₀).1 = sh₀ ∨
      op = .close ∧ sh₀.ri.riFlags.doDisk = true ∧ sh.ri.riFlags.doDisk = false := by
  cases op with
  | «open» argp =>
      left
      simp only [rbtraceCtrl, rbtraceCtrlOpen]
      split
      · rfl
      · rename_i hs
        simp only [enterStep, if_neg (fun h ↦ hs (hsession h))] at hr
        cases argp with
        | none => rfl
        | some path =>
            dsimp only at hr ⊢
            split at hr
            · rename_i hp
              rw [if_pos hp]
            · cases hr
  | close =>
      by_cases hd : sh₀.ri.riFlags.doDisk = true
      · right
        refine ⟨rfl, hd, ?_⟩
        by_contra hs
        simp only [enterStep, if_pos (Bool.eq_true_of_not_eq_false hs)] at hr
        cases hr
      · left
        simp only [rbtraceCtrl, rbtraceCtrlClose, if_neg hd]
  | size argp =>
      left
      cases argp with
      | none => rfl
      | some size => cases hstores
  | wrap argp =>
      left
      cases argp with
      | none => rfl
      | some enable =>
          simp only [enterStep] at hr
          split at hr <;> cases hr
          rename_i hz
          simp only [rbtraceCtrl, rbtraceCtrlWrap, ← hpolicy.2, hz, if_true]
  | zap argp =>
      left
      cases argp with
      | none => rfl
      | some enable =>
          simp only [enterStep] at hr
          split at hr <;> cases hr
          rename_i hw
          simp only [rbtraceCtrl, rbtraceCtrlZap, ← hpolicy.1, hw, if_true]
  | tflags argp =>
      left
      cases argp with
      | none => rfl
      | some a => cases hr
  | info argp => exact .inl rfl

/-- An operation that returns without a store is made before the pass it falls into, or
waits for its end. -/
theorem Passing.returned {i : Inter} {op : RbtraceOp} {r : Int}
    (hok : FlagsOk u.ctl) (h : Passing cfg u i due)
    (hr : (enterStep i.sys.toShm op).2 = .inr r) (hstores : (ClientPc.enter op).stores = false) :
    Follows cfg u (due ++ [.ctrl op]) ⟨i, none⟩ := by
  -- an operation that does nothing in `u` comes first
  have hfirst : (rbtraceCtrl op u.toShm).1 = u.toShm →
      Follows cfg u (due ++ [.ctrl op]) ⟨i, none⟩ := by
    intro hu
    have hrun : (system cfg).run u [.ctrl op] = some u := by
      rw [Machine.run_singleton]
      simp only [system, Sys.step, hu]
    refine ⟨[.ctrl op], u, due ++ [], hrun, .looking h .idle, ?_⟩
    rw [List.append_nil]
    exact List.perm_append_comm
  cases h with
  | between =>
      rcases rbtraceCtrl_of_returned hr hstores ⟨rfl, rfl⟩ id with hu | ⟨-, hd, hd'⟩
      · exact hfirst hu
      · exact absurd hd (Bool.eq_false_iff.1 hd')
  | @within s io pc k hal hpc hk =>
      have hcourse := DaemonPc.Course.of_alone hok.flush_eq hal
      rcases rbtraceCtrl_of_returned hr hstores (hcourse.policy hpc) (hcourse.of_session hpc) with
        hu | ⟨rfl, hd⟩
      · exact hfirst hu
      · refine ⟨[], u, .pass io :: List.replicate (k + 1) (.ctrl .close) ++ [], rfl,
          .looking (.within hal hpc (.inr hd)) .idle, ?_⟩
        rw [List.replicate_succ', List.append_nil, List.nil_append]
        exact .refl _

/-- A client that has the daemon to itself stores. -/
theorem Follows.store {sh : Shm} {io : PassIo} {op : RbtraceOp} {p : ClientPc}
    (hsolo : rbtraceClient.Solo (u.toShm, .inl (.enter op)) (clientStep sh p))
    (hmid : ∀ p', (clientStep sh p).2 = .inl p' → p'.midway = true) :
    Follows cfg u [.ctrl op] (Duo.clientStep ⟨⟨{ u with toShm := sh }, io, .idle⟩, some p⟩ p) := by
  rcases hq : clientStep sh p with ⟨sh', q⟩
  rw [hq] at hsolo hmid
  simp only [Duo.clientStep, hq]
  cases q with
  | inl p' => exact (Behind.storing (hmid p' rfl) hsolo).follows
  | inr r =>
      have hop := eq_rbtraceCtrl_of_solo hsolo
      refine ⟨[.ctrl op], { u with toShm := sh' }, [] ++ [], ?_, .looking .between .idle, .refl _⟩
      rw [Machine.run_singleton]
      simp only [system, Sys.step, hop]

/-- The client moves on. -/
theorem Behind.client (hok : FlagsOk u.ctl) (h : Behind cfg u d due) (ha : Apart d .client)
    (hstep : d.step cfg .client = some d') : Follows cfg u due d' := by
  obtain ⟨p, hp, rfl⟩ := Option.map_eq_some_iff.1 hstep
  cases h with
  | storing hmid hsolo =>
      cases hp
      exact .store (hsolo.trans (solo_client (.refl _))) fun p' ↦ p.midway_step hmid
  | @looking i c due due' hpass hc =>
      cases hc with
      | idle => cases hp
      | @ready op p' hr =>
          cases hp
          by_cases hstores : p.stores = true
          · have hidle := ha p rfl hstores
            cases hpass with
            | within _ hpc => exact absurd hidle hpc
            | between =>
                exact .store (hr.solo.trans (solo_client (.refl _))) fun p' ↦ hr.midway hstores
          · have hlook : (clientStep i.sys.toShm p).1 = i.sys.toShm :=
              clientStep_of_not_stores (Bool.eq_false_iff.2 hstores)
            simp only [Duo.clientStep, hlook]
            cases hq : (clientStep i.sys.toShm p).2 with
            | inl p' =>
                exact (Behind.looking hpass (.ready (hr.step (Bool.eq_false_iff.2 hstores) hq))).follows
            | inr r =>
                obtain rfl := hr.eq_enter (Bool.eq_false_iff.2 hstores) hq
                exact hpass.returned hok hq (Bool.eq_false_iff.2 hstores)

/-- **Every step of the two has whole steps behind it.** -/
theorem Behind.step {e : DuoEvent} (hok : FlagsOk u.ctl) (h : Behind cfg u d due) (ha : Apart d e)
    (hstep : (duo cfg).step d e = some d') : Follows cfg u (due ++ e.begun) d' := by
  cases e with
  | wake io => exact h.wake ha hstep
  | begin op => exact h.begin hstep
  | daemon =>
      have hbegun : due ++ DuoEvent.daemon.begun = due := List.append_nil due
      rw [hbegun]
      exact h.daemon hok ha hstep
  | client =>
      have hbegun : due ++ DuoEvent.client.begun = due := List.append_nil due
      rw [hbegun]
      exact h.client hok ha hstep

/-- So has every run. -/
theorem exists_behind_of_run {s₀ : Sys} {evs : List DuoEvent} (hok : FlagsOk s₀.ctl)
    (hapart : (duo cfg).Guarded Apart (.start s₀) evs)
    (hrun : (duo cfg).run (.start s₀) evs = some d) :
    ∃ order u due, (system cfg).run s₀ order = some u ∧ Behind cfg u d due ∧
      order ++ due ~ evs.flatMap DuoEvent.begun := by
  rw [← Machine.collect_labels DuoEvent.begun hrun, ← List.nil_append (Machine.collect _ _ _ _)]
  refine hapart.collect_invariant (P := fun d begun ↦ ∃ order u due,
    (system cfg).run s₀ order = some u ∧ Behind cfg u d due ∧ order ++ due ~ begun) ?_ ?_ hrun
  · rintro d begun e d' ⟨order, u, due, hu, hd, hperm⟩ ha hstep
    have hok' : FlagsOk u.ctl := Machine.run_invariant (P := fun s : Sys ↦ FlagsOk s.ctl)
      (fun _ _ _ hs ht ↦ hs.step ht) hok hu
    obtain ⟨es, u', due', hes, hd', hperm'⟩ := hd.step hok' ha hstep
    refine ⟨order ++ es, u', due', (system cfg).run_append_eq_some.2 ⟨u, hu, hes⟩, hd', ?_⟩
    calc order ++ es ++ due' = order ++ (es ++ due') := List.append_assoc ..
      _ ~ order ++ (due ++ e.begun) := hperm'.append_left order
      _ = order ++ due ++ e.begun := (List.append_assoc ..).symm
      _ ~ begun ++ e.begun := hperm.append_right e.begun
  · exact ⟨[], s₀, [] ++ [], rfl, .looking .between .idle, .refl _⟩

end

/-! ## Requests that are not lost -/

/-- **Apart, no request is lost.**  From any state that whole steps reach, let one client
and the daemon take their accesses in any order in which they keep apart.  When both are
idle, the flags are what some order of the same control operations and passes, each made
in one step, leads to. -/
theorem flags_serial_of_apart (cfg : ValidRingConfig) (disk : Disk) {before : List Event} {s₀ : Sys}
    (hreach : (system cfg).run (rbtraceDaemonInit cfg disk) before = some s₀)
    {evs : List DuoEvent} {d : Duo} (hrun : (duo cfg).run (.start s₀) evs = some d)
    (hapart : (duo cfg).Guarded Apart (.start s₀) evs)
    (hdaemon : d.inter.pc = .idle) (hclient : d.client = none) :
    ∃ order, order ~ evs.flatMap DuoEvent.begun ∧
      ∃ u, (system cfg).run s₀ order = some u ∧ u.ri.riFlags = d.inter.sys.ri.riFlags := by
  have hok : FlagsOk s₀.ctl := Machine.run_invariant (P := fun s : Sys ↦ FlagsOk s.ctl)
    (fun _ _ _ hs ht ↦ hs.step ht) (FlagsOk.rbtraceDaemonInit cfg disk) hreach
  obtain ⟨order, u, due, hu, hd, hperm⟩ := exists_behind_of_run hok hapart hrun
  cases hd with
  | storing => cases hclient
  | looking hp hc =>
      cases hc with
      | ready => cases hclient
      | idle =>
          cases hp with
          | within _ hpc => exact absurd hdaemon hpc
          | between =>
              rw [List.append_nil, List.append_nil] at hperm
              exact ⟨order, hperm, u, hu, rfl⟩

/-- The state in which a session has just been asked for. -/
def sessionAsked : Sys :=
  { rbtraceDaemonInit oneRing (fun _ ↦ none) with
    toShm := (rbtraceCtrl (.open (some [47])) (rbtraceDaemonInit oneRing fun _ ↦ none).toShm).1 }

theorem run_sessionAsked : (system oneRing).run (rbtraceDaemonInit oneRing fun _ ↦ none)
    [.ctrl (.open (some [47]))] = some sessionAsked := rfl

/-- The client tests the flags to turn wrapping on, the daemon opens the session, and only
then does the client load and store. -/
def wrapAround : List DuoEvent :=
  [.wake .smooth, .daemon, .begin (.wrap (some true)), .client] ++ List.replicate 6 .daemon ++
    [.client, .client]

theorem flags_serial_wrapAround : ∃ d,
    (duo oneRing).run (.start sessionAsked) wrapAround = some d ∧
    ∃ order, order ~ wrapAround.flatMap DuoEvent.begun ∧
      ∃ u, (system oneRing).run sessionAsked order = some u ∧
        u.ri.riFlags = d.inter.sys.ri.riFlags := by
  have hrun : ∃ d ∈ (duo oneRing).run (.start sessionAsked) wrapAround,
      d.inter.pc = .idle ∧ d.client.isNone := by decide
  obtain ⟨d, hd, hdaemon, hclient⟩ := hrun
  exact ⟨d, hd, flags_serial_of_apart oneRing _ run_sessionAsked hd (by decide) hdaemon
    (Option.isNone_iff_eq_none.1 hclient)⟩

/-- The client loads the flags before the daemon opens the session, and stores them after. -/
def staleWrap : List DuoEvent :=
  [.begin (.wrap (some true)), .client, .client, .wake .smooth] ++ List.replicate 7 .daemon ++
    [.client]

/-- What the daemon has stored is gone: `RBTRACE_DO_DISK` is off, and the session is asked
for again.  Neither order of the operation and the pass leads there. -/
theorem staleWrap_lost : ∃ d,
    (system oneRing).run (rbtraceDaemonInit oneRing fun _ ↦ none) [.ctrl (.open (some [47]))] =
      some sessionAsked ∧
    (duo oneRing).run (.start sessionAsked) staleWrap = some d ∧
    d.inter.pc = .idle ∧ d.client = none ∧
    ¬ ∃ order, order ~ staleWrap.flatMap DuoEvent.begun ∧
      ∃ u, (system oneRing).run sessionAsked order = some u ∧
        u.ri.riFlags = d.inter.sys.ri.riFlags := by
  have hrun : ∃ d ∈ (duo oneRing).run (.start sessionAsked) staleWrap,
      d.inter.pc = .idle ∧ d.client.isNone ∧ d.inter.sys.ri.riFlags.doDisk = false := by decide
  obtain ⟨d, hd, hdaemon, hclient, hflags⟩ := hrun
  refine ⟨d, run_sessionAsked, hd, hdaemon, Option.isNone_iff_eq_none.1 hclient, ?_⟩
  rintro ⟨order, hperm, u, hu, he⟩
  -- in either order the session ends up open
  have hopen : ∀ v ∈ (system oneRing).run sessionAsked order, v.ri.riFlags.doDisk = true := by
    rcases List.perm_pair.1 hperm with rfl | rfl <;> decide
  exact nomatch (hopen u hu).symm.trans ((congrArg RiFlags.doDisk he).trans hflags)

end Rbtrace
