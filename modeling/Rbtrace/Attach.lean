import Rbtrace.PidFile

/-!
# The names of the shared memory and of the semaphore

A daemon removes what an earlier one has left behind, makes a shared memory and a semaphore
under two fixed names, and takes both names away when it leaves.  A client opens first the
one and then the other, and nothing tells it that they belong together.

Where all daemons use one pid file, and it is only unlinked alone, the names lead to what the
daemon in its loop has made, and they are gone when it has left, however far it came
(`names_of_run`).  So a client that attaches while a daemon serves has the memory and the
semaphore of that daemon (`attached_of_run`).
-/

namespace Rbtrace

/-! ## What the names lead to -/

/-- What a daemon has made of the two names. -/
def Work.Names (shm sem : Option Nat) : Work → Prop
  | .truncate | .write | .shmUnlink | .cleanupSem => True
  | .semUnlink => shm = none
  | .shmOpen => shm = none ∧ sem = none
  | .shmMap s | .semOpen s => shm = some s ∧ sem = none
  | .pthreadCreate s m | .serve s m => shm = some s ∧ sem = some m
  | .cleanupShm => sem = none

/-- The daemon has not come to `rbtrace_daemon_init`. -/
def Work.Early : Work → Prop
  | .truncate | .write | .shmUnlink => True
  | _ => False

section

variable {κ : Type} {w : World κ} {f : CStr} {p : Nat} {s : Server}

/-- All processes use one pid file, and one that runs finds the names as it has left them. -/
structure World.Named (f : CStr) (w : World κ) : Prop where
  one : ∀ p s, w.servers p = some s → s.pidfile = f
  names : ∀ p s fd work, w.servers p = some s → s.pc = .locked fd work →
    work.Names w.shm w.sem

/-- Without a process that runs there are no names, nor while it has not come to its
initialisation. -/
def World.Tidy (w : World κ) : Prop :=
  (∀ p s fd work, w.servers p = some s → s.pc = .locked fd work → work.Early →
    w.shm = none ∧ w.sem = none) ∧
  ((∀ p s fd work, w.servers p = some s → s.pc ≠ .locked fd work) → w.shm = none ∧ w.sem = none)

/-- A process is started with the pid file `f`. -/
def WorldEvent.Names (f : CStr) : WorldEvent κ → Prop
  | .start _ args => (Server.start args).pidfile = f
  | _ => True

/-- The work of a daemon keeps track of the names. -/
theorem Work.step_names {pid : Nat} {terminate ok : Bool} {fd fd' : Nat} {h : Host}
    {work work' : Work} (hnames : work.Names h.shm h.sem)
    (hstep : (work.step pid terminate ok fd h).2 = some (.locked fd' work')) :
    work'.Names (work.step pid terminate ok fd h).1.shm
      (work.step pid terminate ok fd h).1.sem := by
  cases work with
  | truncate =>
      simp only [Work.step] at hstep
      split at hstep <;> cases hstep
      trivial
  | write | shmUnlink =>
      cases hstep
      trivial
  | cleanupShm => cases hstep
  | semUnlink =>
      cases hstep
      exact ⟨hnames, rfl⟩
  | cleanupSem =>
      cases hstep
      exact rfl
  | shmOpen =>
      simp only [Work.step] at hstep ⊢
      split at hstep
      · rename_i hok
        cases hstep
        rw [if_pos hok]
        exact ⟨rfl, hnames.2⟩
      · cases hstep
  | shmMap shm =>
      cases ok <;> cases hstep
      · exact hnames.2
      · exact hnames
  | semOpen shm =>
      simp only [Work.step] at hstep ⊢
      split at hstep
      · rename_i hok
        cases hstep
        rw [if_pos hok]
        exact ⟨hnames.1, rfl⟩
      · rename_i hok
        cases hstep
        rw [if_neg hok]
        exact hnames.2
  | pthreadCreate shm sem =>
      cases ok <;> cases hstep
      · trivial
      · exact hnames
  | serve shm sem =>
      cases terminate <;> cases hstep
      · exact hnames
      · trivial

/-- A daemon that comes to its initialisation finds no names, if there were none at its start. -/
theorem Work.step_early {pid : Nat} {terminate ok : Bool} {fd fd' : Nat} {h : Host}
    {work work' : Work} (hearly : work.Early → h.shm = none ∧ h.sem = none)
    (hstep : (work.step pid terminate ok fd h).2 = some (.locked fd' work')) (hwork : work'.Early) :
    (work.step pid terminate ok fd h).1.shm = none ∧
      (work.step pid terminate ok fd h).1.sem = none := by
  cases work with
  | truncate =>
      simp only [Work.step] at hstep ⊢
      split at hstep
      · rename_i hok
        rw [if_pos hok]
        exact hearly trivial
      · cases hstep
  | write =>
      simp only [Work.step]
      split <;> exact hearly trivial
  | cleanupShm => cases hstep
  | shmUnlink | semUnlink | cleanupSem =>
      cases hstep
      exact hwork.elim
  | shmOpen | semOpen shm =>
      simp only [Work.step] at hstep
      split at hstep <;> cases hstep <;> exact hwork.elim
  | shmMap shm | pthreadCreate shm sem =>
      cases ok <;> cases hstep <;> exact hwork.elim
  | serve shm sem =>
      cases terminate <;> cases hstep <;> exact hwork.elim

/-- A daemon that leaves has taken its names away, however far it came. -/
theorem Work.step_left {pid : Nat} {terminate ok : Bool} {fd : Nat} {h : Host} {work : Work}
    (hnames : work.Names h.shm h.sem) (hearly : work.Early → h.shm = none ∧ h.sem = none)
    (hstep : ∀ fd' work', (work.step pid terminate ok fd h).2 ≠ some (.locked fd' work')) :
    (work.step pid terminate ok fd h).1.shm = none ∧
      (work.step pid terminate ok fd h).1.sem = none := by
  cases work with
  | truncate =>
      simp only [Work.step] at hstep ⊢
      split
      · exact hearly trivial
      · exact hearly trivial
  | shmOpen =>
      simp only [Work.step] at hstep ⊢
      split at hstep
      · exact absurd rfl (hstep _ _)
      · rename_i hok
        rw [if_neg hok]
        exact hnames
  | cleanupShm => exact ⟨rfl, hnames⟩
  | write | shmUnlink | semUnlink | shmMap shm | pthreadCreate shm sem | serve shm sem
  | cleanupSem => exact absurd rfl (hstep _ _)
  | semOpen shm =>
      simp only [Work.step] at hstep
      split at hstep <;> exact absurd rfl (hstep _ _)

/-! ## Steps -/

/-- A process that does not run leaves the names alone, and comes to run at its lock only. -/
theorem Server.step_names (pid : Nat) (ok : Bool) (h : Host)
    (hpc : ∀ fd work, s.pc ≠ .locked fd work) :
    (s.step pid ok h).1.shm = h.shm ∧ (s.step pid ok h).1.sem = h.sem ∧
      ∀ fd work, (s.step pid ok h).2 = some (.locked fd work) →
        work = .truncate ∧ ∃ fd, s.pc = .pidLock fd := by
  cases hs : s.pc with
  | locked fd work => exact absurd hs (hpc fd work)
  | semInit =>
      simp only [Server.step, hs]
      exact ⟨trivial, trivial, fun fd work h ↦ by cases ok <;> cases h⟩
  | pidOpen =>
      simp only [Server.step, hs]
      split
      · split <;> exact ⟨rfl, rfl, fun fd work h ↦ by cases h⟩
      · exact ⟨rfl, rfl, fun fd work h ↦ by cases h⟩
  | pidLock fd =>
      simp only [Server.step, hs]
      split
      · refine ⟨rfl, rfl, fun fd' work h ↦ ?_⟩
        cases h
        exact ⟨rfl, fd, rfl⟩
      · exact ⟨rfl, rfl, fun fd work h ↦ by cases h⟩
  | pidUnlink fd =>
      simp only [Server.step, hs]
      refine ⟨?_, ?_, fun fd work h ↦ by cases h⟩ <;> cases ok <;> rfl
  | leave =>
      simp only [Server.step, hs]
      exact ⟨trivial, trivial, fun fd work h ↦ by cases h⟩

/-- Only one process runs. -/
theorem World.Named.eq_of_locked (hn : w.Named f) (hw : w.PidFiles) {q : Nat} {u : Server}
    {fd fd' : Nat} {work work' : Work} (hs : w.servers p = some s) (hpc : s.pc = .locked fd work)
    (hu : w.servers q = some u) (hpc' : u.pc = .locked fd' work') : q = p :=
  hw.exclusive q p u s f hu hs ⟨hn.one q u hu, by rw [hpc']; trivial⟩
    ⟨hn.one p s hs, by rw [hpc]; trivial⟩

/-- A process comes to its lock, so no other one runs. -/
theorem World.Named.alone_of_put {r : Step} (hn : (w.put p s r).Named f)
    (hw : (w.put p s r).PidFiles) {fd : Nat} {work : Work} (hr : r.2 = some (.locked fd work)) :
    ∀ q u fd work, q ≠ p → w.servers q = some u → u.pc ≠ .locked fd work := by
  intro q u fd' work' hne hu hpc
  have hp : (w.put p s r).servers p = some { s with pc := .locked fd work } := by
    rw [World.put_servers, Function.update_self, hr]
    rfl
  have hq : (w.put p s r).servers q = some u := by
    rw [World.put_servers, Function.update_of_ne hne, hu]
  exact hne (hn.eq_of_locked hw hp rfl hq hpc)

/-- A step of one process, as the others see it. -/
theorem World.Named.put (hn : w.Named f) (hs : w.servers p = some s) {r : Step}
    (hothers : ∀ q u fd work, q ≠ p → w.servers q = some u → u.pc = .locked fd work →
      r.1.shm = w.shm ∧ r.1.sem = w.sem)
    (hown : ∀ fd work, r.2 = some (.locked fd work) → work.Names r.1.shm r.1.sem) :
    (w.put p s r).Named f := by
  refine ⟨fun q u hq ↦ ?_, fun q u fd work hq hpc ↦ ?_⟩
  · rcases World.put_servers_eq_some hq with ⟨-, -, hname⟩ | ⟨-, hu⟩
    · exact hname.trans (hn.one p s hs)
    · exact hn.one q u hu
  · rw [World.put_shm, World.put_sem]
    rcases World.put_servers_eq_some hq with ⟨-, hr, -⟩ | ⟨hne, hu⟩
    · exact hown fd work (hpc ▸ hr)
    · obtain ⟨hshm, hsem⟩ := hothers q u fd work hne hu hpc
      rw [hshm, hsem]
      exact hn.names q u fd work hu hpc

/-- A process in the place of one, that only runs if that one did. -/
theorem World.Named.set (hn : w.Named f) {t : Server} (hname : t.pidfile = f)
    (h : ∀ fd work, t.pc = .locked fd work → ∃ s, w.servers p = some s ∧ s.pc = .locked fd work) :
    World.Named f { w with servers := Function.update w.servers p (some t) } := by
  refine ⟨fun q u hq ↦ ?_, fun q u fd work hq hpc ↦ ?_⟩
  · rcases update_eq_some_iff.1 hq with ⟨-, hu⟩ | ⟨-, hu⟩
    · obtain rfl := Option.some.inj hu
      exact hname
    · exact hn.one q u hu
  · rcases update_eq_some_iff.1 hq with ⟨-, hu⟩ | ⟨-, hu⟩
    · obtain rfl := Option.some.inj hu
      obtain ⟨s, hs, hlocked⟩ := h fd work hpc
      exact hn.names p s fd work hs hlocked
    · exact hn.names q u fd work hu hpc

theorem World.Named.step [DecidableEq κ] {w' : World κ} {e : WorldEvent κ} (hn : w.Named f)
    (hw : w.PidFiles) (he : e.Names f) (hstep : (world κ).step w e = some w') : w'.Named f := by
  cases e with
  | start pid args =>
      simp only [world, World.step] at hstep
      split at hstep
      · cases hstep
      · cases hstep
        exact hn.set he fun fd work h ↦
          absurd h (ServerPc.ne_locked (Server.start_inode args) fd work)
  | server pid ok =>
      obtain ⟨s, hs, rfl⟩ := Option.map_eq_some_iff.1 hstep
      by_cases hpc : ∃ fd work, s.pc = .locked fd work
      · obtain ⟨fd, work, hpc⟩ := hpc
        rw [Server.step_locked hpc]
        refine hn.put hs (fun q u fd' work' hq hu hpc' ↦ ?_) fun fd' work' h ↦
          Work.step_names (hn.names pid s fd work hs hpc) h
        exact absurd (hn.eq_of_locked hw hs hpc hu hpc') hq
      · push Not at hpc
        obtain ⟨hshm, hsem, hlocked⟩ := s.step_names pid ok w.toHost hpc
        refine hn.put hs (fun _ _ _ _ _ _ _ ↦ ⟨hshm, hsem⟩) fun fd work h ↦ ?_
        obtain ⟨rfl, -⟩ := hlocked fd work h
        trivial
  | signal pid =>
      obtain ⟨s, hs, rfl⟩ := Option.map_eq_some_iff.1 hstep
      split
      · exact hn.set (hn.one pid s hs) fun fd work h ↦ ⟨s, hs, h⟩
      · exact hn.put hs (fun _ _ _ _ _ _ _ ↦ ⟨rfl, rfl⟩) fun fd work h ↦ by cases h
  | kill pid =>
      obtain ⟨s, hs, rfl⟩ := Option.map_eq_some_iff.1 hstep
      exact hn.put hs (fun _ _ _ _ _ _ _ ↦ ⟨rfl, rfl⟩) fun fd work h ↦ by cases h
  | init k =>
      simp only [world, World.step] at hstep
      split at hstep
      · cases hstep
      · cases hstep
        exact ⟨hn.one, hn.names⟩
  | client k ok =>
      obtain ⟨pc, -, rfl⟩ := Option.map_eq_some_iff.1 hstep
      exact ⟨hn.one, hn.names⟩
  | exit k =>
      obtain ⟨pc, -, rfl⟩ := Option.map_eq_some_iff.1 hstep
      exact ⟨hn.one, hn.names⟩

/-- Where the only process that could run does not, the names are gone. -/
theorem World.Tidy.idle (ht : w.Tidy) (hs : w.servers p = some s)
    (hpc : ∀ fd work, s.pc ≠ .locked fd work)
    (h : ∀ q u fd work, q ≠ p → w.servers q = some u → u.pc ≠ .locked fd work) :
    w.shm = none ∧ w.sem = none := by
  refine ht.2 fun q u fd work hu ↦ ?_
  rcases eq_or_ne q p with rfl | hne
  · obtain rfl := Option.some.inj (hs.symm.trans hu)
    exact hpc fd work
  · exact h q u fd work hne hu

/-- A step of one process, as the others see it. -/
theorem World.Tidy.put (ht : w.Tidy) {r : Step}
    (hothers : ∀ q u fd work, q ≠ p → w.servers q = some u → u.pc = .locked fd work →
      r.1.shm = w.shm ∧ r.1.sem = w.sem)
    (hown : ∀ fd work, r.2 = some (.locked fd work) → work.Early → r.1.shm = none ∧ r.1.sem = none)
    (hleft : (∀ fd work, r.2 ≠ some (.locked fd work)) →
      (∀ q u fd work, q ≠ p → w.servers q = some u → u.pc ≠ .locked fd work) →
      r.1.shm = none ∧ r.1.sem = none) : (w.put p s r).Tidy := by
  rw [World.Tidy, World.put_shm, World.put_sem]
  refine ⟨fun q u fd work hq hpc hwork ↦ ?_, fun hnone ↦ ?_⟩
  · rcases World.put_servers_eq_some hq with ⟨-, hr, -⟩ | ⟨hne, hu⟩
    · exact hown fd work (hpc ▸ hr) hwork
    · obtain ⟨hshm, hsem⟩ := hothers q u fd work hne hu hpc
      rw [hshm, hsem]
      exact ht.1 q u fd work hu hpc hwork
  · rw [World.put_servers] at hnone
    refine hleft (fun fd work hr ↦ ?_) fun q u fd work hne hu ↦
      hnone q u fd work (update_eq_some_iff.2 (.inr ⟨hne, hu⟩))
    refine hnone p { s with pc := .locked fd work } fd work ?_ rfl
    rw [Function.update_self, hr]
    rfl

/-- A process in the place of one, that runs if and only if that one did. -/
theorem World.Tidy.set (ht : w.Tidy) {t : Server}
    (h : ∀ fd work, t.pc = .locked fd work ↔ ∃ s, w.servers p = some s ∧ s.pc = .locked fd work) :
    World.Tidy { w with servers := Function.update w.servers p (some t) } := by
  refine ⟨fun q u fd work hq hpc hwork ↦ ?_, fun hnone ↦ ht.2 fun q u fd work hu hpc ↦ ?_⟩
  · rcases update_eq_some_iff.1 hq with ⟨-, hu⟩ | ⟨-, hu⟩
    · obtain rfl := Option.some.inj hu
      obtain ⟨s, hs, hlocked⟩ := (h fd work).1 hpc
      exact ht.1 p s fd work hs hlocked hwork
    · exact ht.1 q u fd work hu hpc hwork
  · rcases eq_or_ne q p with rfl | hne
    · exact hnone q t fd work (update_eq_some_iff.2 (.inl ⟨rfl, rfl⟩)) ((h fd work).2 ⟨u, hu, hpc⟩)
    · exact hnone q u fd work (update_eq_some_iff.2 (.inr ⟨hne, hu⟩)) hpc

/-- The next system call of a process. -/
theorem World.Tidy.server (ht : w.Tidy) (hn : w.Named f) (hw : w.PidFiles) (ok : Bool)
    (hw' : (w.put p s (s.step p ok w.toHost)).PidFiles)
    (hn' : (w.put p s (s.step p ok w.toHost)).Named f) (hs : w.servers p = some s) :
    (w.put p s (s.step p ok w.toHost)).Tidy := by
  by_cases hpc : ∃ fd work, s.pc = .locked fd work
  · obtain ⟨fd, work, hpc⟩ := hpc
    have hnames := hn.names p s fd work hs hpc
    have hearly := ht.1 p s fd work hs hpc
    rw [Server.step_locked hpc]
    refine ht.put (fun q u fd' work' hq hu hpc' ↦ ?_) (fun fd' work' h ↦
      Work.step_early hearly h) fun h _ ↦ Work.step_left hnames hearly h
    exact absurd (hn.eq_of_locked hw hs hpc hu hpc') hq
  · push Not at hpc
    obtain ⟨hshm, hsem, -⟩ := s.step_names p ok w.toHost hpc
    refine ht.put (fun _ _ _ _ _ _ _ ↦ ⟨hshm, hsem⟩) (fun fd work h _ ↦ ?_) fun _ h ↦ ?_ <;>
      rw [hshm, hsem]
    · exact ht.idle hs hpc (hn'.alone_of_put hw' h)
    · exact ht.idle hs hpc h

/-- A process that is gone, and had not come to its initialisation. -/
theorem World.Tidy.gone (ht : w.Tidy) (hs : w.servers p = some s)
    (hpc : ∀ fd work, s.pc = .locked fd work → work.Early) : (w.put p s (w.toHost, none)).Tidy := by
  refine ht.put (fun _ _ _ _ _ _ _ ↦ ⟨rfl, rfl⟩) (fun fd work h ↦ by cases h) fun _ h ↦ ?_
  by_cases hlocked : ∃ fd work, s.pc = .locked fd work
  · obtain ⟨fd, work, hlocked⟩ := hlocked
    exact ht.1 p s fd work hs hlocked (hpc fd work hlocked)
  · push Not at hlocked
    exact ht.idle hs hlocked h

theorem World.Tidy.step [DecidableEq κ] {w' : World κ} {e : WorldEvent κ} (ht : w.Tidy)
    (hn : w.Named f) (hw : w.PidFiles) (hw' : w'.PidFiles) (hn' : w'.Named f)
    (he : ∀ pid, e ≠ .kill pid) (hstep : (world κ).step w e = some w') : w'.Tidy := by
  cases e with
  | start pid args =>
      simp only [world, World.step] at hstep
      split at hstep
      · cases hstep
      · rename_i hnone
        cases hstep
        refine ht.set fun fd work ↦ ⟨fun h ↦ ?_, fun h ↦ ?_⟩
        · exact absurd h (ServerPc.ne_locked (Server.start_inode args) fd work)
        · obtain ⟨s, hs, -⟩ := h
          cases hnone.symm.trans hs
  | server pid ok =>
      obtain ⟨s, hs, rfl⟩ := Option.map_eq_some_iff.1 hstep
      exact ht.server hn hw ok hw' hn' hs
  | signal pid =>
      obtain ⟨s, hs, rfl⟩ := Option.map_eq_some_iff.1 hstep
      split
      · refine ht.set fun fd work ↦ ⟨fun h ↦ ⟨s, hs, h⟩, fun h ↦ ?_⟩
        obtain ⟨u, hu, h⟩ := h
        obtain rfl := Option.some.inj (hs.symm.trans hu)
        exact h
      · rename_i hhandles
        -- without the handlers it has not come to its initialisation
        refine ht.gone hs fun fd work hpc ↦ ?_
        rw [hpc] at hhandles
        cases work <;> trivial
  | kill pid => exact absurd rfl (he pid)
  | init k =>
      simp only [world, World.step] at hstep
      split at hstep
      · cases hstep
      · cases hstep
        exact ht
  | client k ok =>
      obtain ⟨pc, -, rfl⟩ := Option.map_eq_some_iff.1 hstep
      exact ht
  | exit k =>
      obtain ⟨pc, -, rfl⟩ := Option.map_eq_some_iff.1 hstep
      exact ht

end

/-! ## Runs -/

section

variable {κ : Type} [DecidableEq κ] {w w' : World κ} {f : CStr} {p fd shm sem : Nat} {s : Server}
  {es es' : List (WorldEvent κ)}

/-- What a run of daemons with one pid file keeps. -/
theorem named_of_run (hw : w.PidFiles ∧ w.Named f)
    (hes : (world κ).Guarded (fun w e ↦ w.UnlinksAlone e ∧ e.Names f) w es)
    (hrun : (world κ).run w es = some w') : w'.PidFiles ∧ w'.Named f :=
  hes.invariant (P := fun w ↦ w.PidFiles ∧ w.Named f)
    (fun _ _ _ h he hstep ↦ ⟨h.1.step he.1 hstep, h.2.step h.1 he.2 hstep⟩) hw hrun

omit [DecidableEq κ] in
theorem fresh_named : (World.fresh κ).PidFiles ∧ (World.fresh κ).Named f :=
  ⟨.fresh, fun _ _ h ↦ absurd h.symm (Option.some_ne_none _),
    fun _ _ _ _ h ↦ absurd h.symm (Option.some_ne_none _)⟩

/-- **The names are those of the daemon.**  Where all processes use one pid file, and it is
only unlinked alone: the two names lead to what the daemon in its loop has made, also if
earlier daemons were killed.  If none was killed, the names are gone whenever no process is
between its lock and its unlink, whichever call of `rbtrace_daemon_init` failed. -/
theorem names_of_run
    (hes : (world κ).Guarded (fun w e ↦ w.UnlinksAlone e ∧ e.Names f) (.fresh κ) es)
    (hrun : (world κ).run (.fresh κ) es = some w) :
    (∀ p s fd shm sem, w.servers p = some s → s.pc = .locked fd (.serve shm sem) →
      w.shm = some shm ∧ w.sem = some sem) ∧
    ((∀ pid, .kill pid ∉ es) → (∀ p s, w.servers p = some s → ¬ s.Runs f) →
      w.shm = none ∧ w.sem = none) := by
  refine ⟨fun p s fd shm sem hs hpc ↦
    (named_of_run fresh_named hes hrun).2.names p s fd _ hs hpc, fun hkill hidle ↦ ?_⟩
  obtain ⟨⟨hw, hn⟩, ht⟩ : (w.PidFiles ∧ w.Named f) ∧ w.Tidy := by
    refine (hes.and_forall (Q := fun e ↦ ∀ pid, e ≠ .kill pid) fun e he pid h ↦
      hkill pid (h ▸ he)).invariant (P := fun w ↦ (w.PidFiles ∧ w.Named f) ∧ w.Tidy)
      (fun w e w' h he hstep ↦ ?_) ⟨fresh_named, ?_⟩ hrun
    · have h' : w'.PidFiles ∧ w'.Named f :=
        ⟨h.1.1.step he.1.1 hstep, h.1.2.step h.1.1 he.1.2 hstep⟩
      exact ⟨h', h.2.step h.1.2 h.1.1 h'.1 h'.2 he.2 hstep⟩
    · exact ⟨fun _ _ _ _ h ↦ absurd h.symm (Option.some_ne_none _), fun _ ↦ ⟨rfl, rfl⟩⟩
  refine ht.2 fun p s fd work hs hpc ↦ hidle p s hs ⟨hn.one p s hs, ?_⟩
  rw [hpc]
  trivial

/-- What a step does to a client. -/
theorem clients_of_step {e : WorldEvent κ} (hstep : (world κ).step w e = some w') {k : κ}
    {pc : InitPc} (hpc : w'.clients k = some pc) :
    w.clients k = some pc ∨ pc = .shmOpen ∨
      ∃ pc' ok, w.clients k = some pc' ∧ pc'.step ok w.toHost = some pc := by
  cases e with
  | start pid args =>
      simp only [world, World.step] at hstep
      split at hstep
      · cases hstep
      · cases hstep
        exact .inl hpc
  | server pid ok =>
      obtain ⟨s, -, rfl⟩ := Option.map_eq_some_iff.1 hstep
      rw [World.put_clients] at hpc
      exact .inl hpc
  | signal pid =>
      obtain ⟨s, -, rfl⟩ := Option.map_eq_some_iff.1 hstep
      split at hpc
      · exact .inl hpc
      · rw [World.put_clients] at hpc
        exact .inl hpc
  | kill pid =>
      obtain ⟨s, -, rfl⟩ := Option.map_eq_some_iff.1 hstep
      rw [World.put_clients] at hpc
      exact .inl hpc
  | init k' =>
      simp only [world, World.step] at hstep
      split at hstep
      · cases hstep
      · cases hstep
        rcases eq_or_ne k k' with rfl | hne
        · exact .inr (.inl (Option.some.inj
            ((Function.update_self k _ w.clients).symm.trans hpc)).symm)
        · exact .inl ((Function.update_of_ne hne _ w.clients).symm.trans hpc)
  | client k' ok =>
      obtain ⟨pc', hpc', rfl⟩ := Option.map_eq_some_iff.1 hstep
      rcases eq_or_ne k k' with rfl | hne
      · exact .inr (.inr ⟨pc', ok, hpc', (Function.update_self k _ w.clients).symm.trans hpc⟩)
      · exact .inl ((Function.update_of_ne hne _ w.clients).symm.trans hpc)
  | exit k' =>
      obtain ⟨pc', -, rfl⟩ := Option.map_eq_some_iff.1 hstep
      rcases eq_or_ne k k' with rfl | hne
      · cases (Function.update_self k _ w.clients).symm.trans hpc
      · exact .inl ((Function.update_of_ne hne _ w.clients).symm.trans hpc)

/-- A daemon serves with these objects. -/
def World.Serves (w : World κ) (shm sem : Nat) : Prop :=
  ∃ p s fd, w.servers p = some s ∧ s.pc = .locked fd (.serve shm sem)

/-- A client has opened nothing but these objects. -/
def InitPc.Of (shm sem : Nat) (pc : InitPc) : Prop :=
  pc = .shmOpen ∨ pc = .mmap shm ∨ pc = .semOpen shm ∨ pc = .attached shm sem

/-- It opens what the names lead to. -/
theorem InitPc.Of.step {h : Host} {ok : Bool} {pc pc' : InitPc} (hpc : pc.Of shm sem)
    (hshm : h.shm = some shm) (hsem : h.sem = some sem) (hstep : pc.step ok h = some pc') :
    pc'.Of shm sem := by
  rcases hpc with rfl | rfl | rfl | rfl
  · cases ok with
    | false => cases hstep
    | true =>
        rw [InitPc.step, if_pos rfl, hshm] at hstep
        exact .inr (.inl (Option.some.inj hstep).symm)
  · cases ok <;> cases hstep
    exact .inr (.inr (.inl rfl))
  · cases ok with
    | false => cases hstep
    | true =>
        rw [InitPc.step, if_pos rfl, hsem] at hstep
        exact .inr (.inr (.inr (Option.some.inj hstep).symm))
  · cases hstep
    exact .inr (.inr (.inr rfl))

/-- **A client gets the daemon that serves.**  Where all processes use one pid file, and it is
only unlinked alone: if a client enters `rbtrace_init` and comes to its end while a daemon
serves, however the steps of the processes are mixed, it has attached the shared memory and
the semaphore of that daemon. -/
theorem attached_of_run {k : κ} {a b : Nat}
    (hes : (world κ).Guarded (fun w e ↦ w.UnlinksAlone e ∧ e.Names f) (.fresh κ) es)
    (hrun : (world κ).run (.fresh κ) es = some w) (hk : w.clients k = none)
    (hes' : (world κ).Guarded (fun w e ↦ (w.UnlinksAlone e ∧ e.Names f) ∧ w.Serves shm sem) w es')
    (hrun' : (world κ).run w es' = some w') (hk' : w'.clients k = some (.attached a b)) :
    a = shm ∧ b = sem := by
  have hclient : ∀ pc, w'.clients k = some pc → pc.Of shm sem := by
    refine (hes'.invariant
      (P := fun w ↦ (w.PidFiles ∧ w.Named f) ∧ ∀ pc, w.clients k = some pc → pc.Of shm sem)
      (fun u e u' h he hstep ↦ ?_) ⟨named_of_run fresh_named hes hrun, ?_⟩ hrun').2
    · refine ⟨⟨h.1.1.step he.1.1 hstep, h.1.2.step h.1.1 he.1.2 hstep⟩, fun pc hpc ↦ ?_⟩
      obtain ⟨p, s, fd, hs, hserve⟩ := he.2
      obtain ⟨hshm, hsem⟩ := h.1.2.names p s fd _ hs hserve
      rcases clients_of_step hstep hpc with hold | rfl | ⟨pc', ok, hold, hnext⟩
      · exact h.2 pc hold
      · exact .inl rfl
      · exact (h.2 pc' hold).step hshm hsem hnext
    · intro pc h
      rw [hk] at h
      cases h
  rcases hclient _ hk' with h | h | h | h
  · cases h
  · cases h
  · cases h
  · cases h
    exact ⟨rfl, rfl⟩

end

/-- A daemon that comes to its loop. -/
def serveOne : List (WorldEvent Unit) := .start 1 [] :: List.replicate 11 (.server 1 true)

theorem serveOne_guarded : (world Unit).Guarded
    (fun w e ↦ w.UnlinksAlone e ∧ e.Names RBTRACED_DFT_PID_FILE) (.fresh Unit) serveOne := by
  refine (unlinksAlone_of_noUnlink (by decide)).and_forall fun e he ↦ ?_
  rcases List.mem_cons.1 he with rfl | he
  · rfl
  · rw [List.eq_of_mem_replicate he]
    trivial

theorem names_of_run_serveOne : ∃ w, (world Unit).run (.fresh Unit) serveOne = some w ∧
    w.shm = some 1 ∧ w.sem = some 2 := by
  obtain ⟨w, hrun, hs⟩ : ∃ w, (world Unit).run (.fresh Unit) serveOne = some w ∧
      w.servers 1 = some ⟨RBTRACED_DFT_PID_FILE, false, .locked 0 (.serve 1 2)⟩ := ⟨_, rfl, rfl⟩
  exact ⟨w, hrun, (names_of_run serveOne_guarded hrun).1 1 _ 0 1 2 hs rfl⟩

/-- A client that attaches to it. -/
def attachOne : List (WorldEvent Unit) := .init () :: List.replicate 3 (.client () true)

theorem attached_of_run_attachOne : ∃ w w' a b, (world Unit).run (.fresh Unit) serveOne = some w ∧
    (world Unit).run w attachOne = some w' ∧ w'.clients () = some (.attached a b) ∧
    a = 1 ∧ b = 2 := by
  obtain ⟨w, w', hrun, hrun', hk, hk', hquiet⟩ : ∃ w w',
      (world Unit).run (.fresh Unit) serveOne = some w ∧
      (world Unit).run w attachOne = some w' ∧ w.clients () = none ∧
      w'.clients () = some (.attached 1 2) ∧
      (world Unit).Guarded (fun w e ↦ w.noUnlink e = true ∧
        w.servers 1 = some ⟨RBTRACED_DFT_PID_FILE, false, .locked 0 (.serve 1 2)⟩) w attachOne :=
    ⟨_, _, rfl, rfl, rfl, rfl, by decide⟩
  have halone := unlinksAlone_of_noUnlink (hquiet.mono fun _ _ h ↦ h.1)
  have hnames : ∀ e ∈ attachOne, e.Names RBTRACED_DFT_PID_FILE := by
    intro e he
    rcases List.mem_cons.1 he with rfl | he
    · trivial
    · rw [List.eq_of_mem_replicate he]
      trivial
  have hserve : (world Unit).Guarded (fun w _ ↦ w.Serves 1 2) w attachOne :=
    hquiet.mono fun _ _ h ↦ ⟨1, _, 0, h.2, rfl⟩
  exact ⟨w, w', 1, 2, hrun, hrun', hk', attached_of_run serveOne_guarded hrun hk
    ((halone.and_forall hnames).and hserve) hrun' hk'⟩

end Rbtrace
