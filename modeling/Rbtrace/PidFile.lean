import Mathlib.Data.Set.Finite.Basic
import Rbtrace.Rbtraced

/-!
# One daemon for a pid file

The lock of a daemon is on the inode of its pid file, and the next daemon opens the name.  As
long as a name is only unlinked while no other process works with the file, the two mean the
same, there is one daemon at most, and its pid file names it (`exclusive_of_run`).

Any other unlink lets in a second daemon (`unlink_safe_iff`).  It takes no more than
`rbtraced -v` while a daemon runs; and a daemon that leaves can do it too, to one that has
opened the file and not come to the lock.
-/

namespace Rbtrace

open Getopt

section

variable {κ : Type}

/-! ## Who works with a pid file -/

/-- The process has the pid file open and has not come to its own unlink. -/
def Server.Uses (s : Server) (f : CStr) : Prop :=
  s.pidfile = f ∧ match s.pc with
    | .pidLock _ | .locked _ _ => True
    | _ => False

/-- The process is between its lock and its unlink. -/
def Server.Runs (s : Server) (f : CStr) : Prop :=
  s.pidfile = f ∧ match s.pc with
    | .locked _ _ => True
    | _ => False

/-- There is at most one daemon for a pid file. -/
def World.Exclusive (w : World κ) : Prop :=
  ∀ p q s t f, w.servers p = some s → w.servers q = some t → s.Runs f → t.Runs f → p = q

/-- A pid file is only unlinked while no other process uses it. -/
def World.UnlinksAlone (w : World κ) : WorldEvent κ → Prop
  | .server pid true => ∀ s fd, w.servers pid = some s → s.pc = .pidUnlink fd →
      ∀ q t, q ≠ pid → w.servers q = some t → ¬ t.Uses s.pidfile
  | _ => True

/-! ## Locks and names -/

/-- The process has come past its lock. -/
def ServerPc.Past : ServerPc → Prop
  | .locked _ _ | .pidUnlink _ | .leave => True
  | _ => False

/-- The inode the process works with. -/
def ServerPc.inode : ServerPc → Option Nat
  | .pidLock fd | .locked fd _ => some fd
  | _ => none

/-- What holds of the pid files as long as they are only unlinked alone. -/
structure World.PidFiles (w : World κ) : Prop where
  old : ∀ f fd, w.files f = some fd → fd < w.next
  inj : ∀ f g fd, w.files f = some fd → w.files g = some fd → f = g
  /-- The inode a process works with is the one that its name leads to. -/
  named : ∀ p s fd, w.servers p = some s → s.pc.inode = some fd → w.files s.pidfile = some fd
  held : ∀ p s fd work, w.servers p = some s → s.pc = .locked fd work → w.locks fd = some p
  owner : ∀ fd p, w.locks fd = some p → fd < w.next ∧ ∃ s, w.servers p = some s ∧ s.pc.Past
  finite : {p | w.servers p ≠ none}.Finite

theorem World.PidFiles.fresh : (World.fresh κ).PidFiles where
  old _ _ h := absurd h.symm (Option.some_ne_none _)
  inj _ _ _ h := absurd h.symm (Option.some_ne_none _)
  named _ _ _ h := absurd h.symm (Option.some_ne_none _)
  held _ _ _ _ h := absurd h.symm (Option.some_ne_none _)
  owner _ _ h := absurd h.symm (Option.some_ne_none _)
  finite := by simp [World.fresh]

/-- The processes after one of them has changed. -/
theorem update_eq_some_iff {p q : Nat} {servers : Nat → Option Server} {o : Option Server}
    {t : Server} :
    Function.update servers p o q = some t ↔ q = p ∧ o = some t ∨ q ≠ p ∧ servers q = some t := by
  by_cases hq : q = p
  · subst hq
    simp
  · simp [hq]

theorem finite_update {servers : Nat → Option Server} (h : {p | servers p ≠ none}.Finite) (p : Nat)
    (o : Option Server) : {q | Function.update servers p o q ≠ none}.Finite := by
  refine (h.insert p).subset fun q hq ↦ ?_
  by_cases hqp : q = p
  · exact .inl hqp
  · rw [Set.mem_ofPred_eq, Function.update_of_ne hqp] at hq
    exact .inr hq

section

variable {w : World κ} {p : Nat} {s t : Server}

theorem ServerPc.ne_locked {pc : ServerPc} (h : pc.inode = none) (fd : Nat) (work : Work) :
    pc ≠ .locked fd work := by
  rintro rfl
  cases h

/-- A process that is started has not come to its pid file. -/
theorem Server.start_inode (args : List CStr) : (Server.start args).pc.inode = none := by
  unfold Server.start
  dsimp only
  split <;> rfl

/-- The step of a process that runs is one of its work. -/
theorem Server.step_locked {fd : Nat} {work : Work} (hpc : s.pc = .locked fd work) (pid : Nat)
    (ok : Bool) (h : Host) : s.step pid ok h = work.step pid s.terminate ok fd h := by
  rw [Server.step, hpc]

theorem World.put_servers (w : World κ) (p : Nat) (s : Server) (r : Step) :
    (w.put p s r).servers =
      Function.update w.servers p (r.2.map fun pc ↦ { s with pc := pc }) := by
  rcases r with ⟨h, _ | pc⟩ <;> rfl

@[simp]
theorem World.put_text (w : World κ) (p : Nat) (s : Server) (r : Step) :
    (w.put p s r).text = r.1.text := by
  rcases r with ⟨h, _ | pc⟩ <;> rfl

@[simp]
theorem World.put_shm (w : World κ) (p : Nat) (s : Server) (r : Step) :
    (w.put p s r).shm = r.1.shm := by
  rcases r with ⟨h, _ | pc⟩ <;> rfl

@[simp]
theorem World.put_sem (w : World κ) (p : Nat) (s : Server) (r : Step) :
    (w.put p s r).sem = r.1.sem := by
  rcases r with ⟨h, _ | pc⟩ <;> rfl

@[simp]
theorem World.put_clients (w : World κ) (p : Nat) (s : Server) (r : Step) :
    (w.put p s r).clients = w.clients := by
  rcases r with ⟨h, _ | pc⟩ <;> rfl

/-- A process after a step of one of them: that one, or another where it was. -/
theorem World.put_servers_eq_some {q : Nat} {u : Server} {r : Step}
    (h : (w.put p s r).servers q = some u) :
    q = p ∧ r.2 = some u.pc ∧ u.pidfile = s.pidfile ∨ q ≠ p ∧ w.servers q = some u := by
  rw [World.put_servers, update_eq_some_iff] at h
  rcases h with ⟨rfl, h⟩ | h
  · obtain ⟨pc, hr, rfl⟩ := Option.map_eq_some_iff.1 h
    exact .inl ⟨rfl, hr, rfl⟩
  · exact .inr h

/-- A process that is gone. -/
theorem World.PidFiles.gone (hw : w.PidFiles) (p : Nat) (text : Nat → CStr) :
    World.PidFiles { w with
      toHost := { w.toHost with text := text }.release p
      servers := Function.update w.servers p none } := by
  have hother : ∀ {q t}, Function.update w.servers p none q = some t →
      q ≠ p ∧ w.servers q = some t := by
    intro q t h
    rcases update_eq_some_iff.1 h with ⟨-, h⟩ | h
    · cases h
    · exact h
  refine ⟨hw.old, hw.inj, fun q t fd h ↦ hw.named q t fd (hother h).2, ?_, ?_,
    finite_update hw.finite p none⟩
  · intro q t fd work h hpc
    obtain ⟨hq, h⟩ := hother h
    have hlock := hw.held q t fd work h hpc
    show (if w.locks fd = some p then none else w.locks fd) = some q
    rw [if_neg (by rw [hlock]; exact fun h ↦ hq (Option.some.inj h)), hlock]
  · intro fd q h
    have h : (if w.locks fd = some p then none else w.locks fd) = some q := h
    split at h
    · cases h
    · rename_i hne
      obtain ⟨hlt, t, ht, hpast⟩ := hw.owner fd q h
      exact ⟨hlt, t, update_eq_some_iff.2 (.inr ⟨fun hq ↦ hne (hq ▸ h), ht⟩), hpast⟩

/-- A process that does nothing to the pid files, and works with the inode of its name or none. -/
theorem World.PidFiles.move (hw : w.PidFiles) (hs : w.servers p = some s) {h : Host}
    (hfiles : h.files = w.files) (hlocks : h.locks = w.locks) (hnext : w.next ≤ h.next)
    (hname : t.pidfile = s.pidfile)
    (hinode : ∀ fd, t.pc.inode = some fd → w.files s.pidfile = some fd)
    (hlocked : ∀ fd work, t.pc = .locked fd work → ∃ work', s.pc = .locked fd work')
    (hpast : s.pc.Past → t.pc.Past) :
    World.PidFiles { w with toHost := h, servers := Function.update w.servers p (some t) } := by
  refine ⟨fun f fd hf ↦ ?_, fun f g fd hf hg ↦ ?_, fun q u fd hq hfd ↦ ?_,
    fun q u fd work hq hpc ↦ ?_, fun fd q hlock ↦ ?_, finite_update hw.finite p _⟩
  · exact (hw.old f fd (hfiles ▸ hf)).trans_le hnext
  · exact hw.inj f g fd (hfiles ▸ hf) (hfiles ▸ hg)
  · show h.files u.pidfile = some fd
    rw [hfiles]
    rcases update_eq_some_iff.1 hq with ⟨rfl, hu⟩ | ⟨-, hu⟩
    · obtain rfl := Option.some.inj hu
      rw [hname]
      exact hinode fd hfd
    · exact hw.named q u fd hu hfd
  · show h.locks fd = some q
    rw [hlocks]
    rcases update_eq_some_iff.1 hq with ⟨rfl, hu⟩ | ⟨-, hu⟩
    · obtain rfl := Option.some.inj hu
      obtain ⟨work', hs'⟩ := hlocked fd work hpc
      exact hw.held q s fd work' hs hs'
    · exact hw.held q u fd work hu hpc
  · obtain ⟨hlt, u, hu, hup⟩ := hw.owner fd q (hlocks ▸ hlock)
    refine ⟨hlt.trans_le hnext, ?_⟩
    by_cases hq : q = p
    · subst hq
      obtain rfl := Option.some.inj (hs.symm.trans hu)
      exact ⟨t, update_eq_some_iff.2 (.inl ⟨rfl, rfl⟩), hpast hup⟩
    · exact ⟨u, update_eq_some_iff.2 (.inr ⟨hq, hu⟩), hup⟩

/-- A pid file that is made. -/
theorem World.PidFiles.create (hw : w.PidFiles) {f : CStr} (hf : w.files f = none)
    (text : Nat → CStr) :
    World.PidFiles { w with
      toHost := { w.toHost with
        files := Function.update w.files f (some w.next)
        text := text
        next := w.next + 1 } } := by
  have hcases : ∀ {g fd}, Function.update w.files f (some w.next) g = some fd →
      g = f ∧ fd = w.next ∨ g ≠ f ∧ w.files g = some fd := by
    intro g fd h
    by_cases hg : g = f
    · rw [hg, Function.update_self] at h
      exact .inl ⟨hg, (Option.some.inj h).symm⟩
    · rw [Function.update_of_ne hg] at h
      exact .inr ⟨hg, h⟩
  refine ⟨fun g fd hg ↦ ?_, fun g g' fd hg hg' ↦ ?_, fun q u fd hu hfd ↦ ?_, hw.held,
    fun fd q h ↦ ?_, hw.finite⟩
  · rcases hcases hg with ⟨-, rfl⟩ | ⟨-, hg⟩
    · exact Nat.lt_succ_self _
    · exact (hw.old g fd hg).trans (Nat.lt_succ_self _)
  · rcases hcases hg with ⟨h, hfd⟩ | ⟨-, h⟩ <;> rcases hcases hg' with ⟨h', hfd'⟩ | ⟨-, h'⟩
    · exact h.trans h'.symm
    · exact absurd (hw.old _ _ h') (hfd ▸ lt_irrefl _)
    · exact absurd (hw.old _ _ h) (hfd' ▸ lt_irrefl _)
    · exact hw.inj g g' fd h h'
  · have hname := hw.named q u fd hu hfd
    have hne : u.pidfile ≠ f := by
      intro h
      rw [h, hf] at hname
      cases hname
    exact (Function.update_of_ne hne _ _).trans hname
  · obtain ⟨hlt, hu⟩ := hw.owner fd q h
    exact ⟨hlt.trans (Nat.lt_succ_self _), hu⟩

/-- A lock that is taken. -/
theorem World.PidFiles.lock (hw : w.PidFiles) (hs : w.servers p = some s) {fd : Nat}
    (hpc : s.pc = .pidLock fd) (hfree : w.locks fd = none) (work : Work) :
    World.PidFiles { w with
      toHost := { w.toHost with locks := Function.update w.locks fd (some p) }
      servers := Function.update w.servers p (some { s with pc := .locked fd work }) } := by
  have hname : w.files s.pidfile = some fd := hw.named p s fd hs (by rw [hpc]; rfl)
  refine ⟨hw.old, hw.inj, fun q u fd' hq hfd ↦ ?_, fun q u fd' work' hq hu ↦ ?_,
    fun fd' q h ↦ ?_, finite_update hw.finite p _⟩
  · rcases update_eq_some_iff.1 hq with ⟨rfl, hu⟩ | ⟨-, hu⟩
    · obtain rfl := Option.some.inj hu
      obtain rfl := Option.some.inj hfd
      exact hname
    · exact hw.named q u fd' hu hfd
  · show Function.update w.locks fd (some p) fd' = some q
    rcases update_eq_some_iff.1 hq with ⟨rfl, hu'⟩ | ⟨-, hu'⟩
    · obtain rfl := Option.some.inj hu'
      cases hu
      exact Function.update_self ..
    · have hlock := hw.held q u fd' work' hu' hu
      have hne : fd' ≠ fd := by
        rintro rfl
        rw [hfree] at hlock
        cases hlock
      rw [Function.update_of_ne hne, hlock]
  · have h : Function.update w.locks fd (some p) fd' = some q := h
    by_cases hfd : fd' = fd
    · subst hfd
      rw [Function.update_self] at h
      obtain rfl := Option.some.inj h
      exact ⟨hw.old _ _ hname, _, update_eq_some_iff.2 (.inl ⟨rfl, rfl⟩), trivial⟩
    · rw [Function.update_of_ne hfd] at h
      obtain ⟨hlt, u, hu, hup⟩ := hw.owner fd' q h
      refine ⟨hlt, ?_⟩
      by_cases hq : q = p
      · exact ⟨_, update_eq_some_iff.2 (.inl ⟨hq, rfl⟩), trivial⟩
      · exact ⟨u, update_eq_some_iff.2 (.inr ⟨hq, hu⟩), hup⟩

/-- A pid file that is unlinked while nobody works with it. -/
theorem World.PidFiles.unlink (hw : w.PidFiles) {f : CStr}
    (halone : ∀ q u, w.servers q = some u → u.pidfile = f → u.pc.inode = none) :
    World.PidFiles { w with
      toHost := { w.toHost with files := Function.update w.files f none } } := by
  have hcases : ∀ {g fd}, Function.update w.files f none g = some fd → w.files g = some fd := by
    intro g fd h
    by_cases hg : g = f
    · rw [hg, Function.update_self] at h
      cases h
    · rwa [Function.update_of_ne hg] at h
  refine ⟨fun g fd hg ↦ hw.old g fd (hcases hg), fun g g' fd hg hg' ↦
    hw.inj g g' fd (hcases hg) (hcases hg'), fun q u fd hu hfd ↦ ?_, hw.held, hw.owner, hw.finite⟩
  have hne : u.pidfile ≠ f := by
    intro h
    rw [halone q u hu h] at hfd
    cases hfd
  exact (Function.update_of_ne hne _ _).trans (hw.named q u fd hu hfd)

/-- A process that is started. -/
theorem World.PidFiles.start (hw : w.PidFiles) (hp : w.servers p = none)
    (hinode : s.pc.inode = none) :
    World.PidFiles { w with servers := Function.update w.servers p (some s) } := by
  refine ⟨hw.old, hw.inj, fun q u fd hq hfd ↦ ?_, fun q u fd work hq hpc ↦ ?_, fun fd q h ↦ ?_,
    finite_update hw.finite p _⟩
  · rcases update_eq_some_iff.1 hq with ⟨-, hu⟩ | ⟨-, hu⟩
    · obtain rfl := Option.some.inj hu
      rw [hinode] at hfd
      cases hfd
    · exact hw.named q u fd hu hfd
  · rcases update_eq_some_iff.1 hq with ⟨-, hu⟩ | ⟨-, hu⟩
    · obtain rfl := Option.some.inj hu
      exact absurd hpc (ServerPc.ne_locked hinode fd work)
    · exact hw.held q u fd work hu hpc
  · obtain ⟨hlt, u, hu, hup⟩ := hw.owner fd q h
    refine ⟨hlt, u, update_eq_some_iff.2 (.inr ⟨?_, hu⟩), hup⟩
    rintro rfl
    rw [hp] at hu
    cases hu

/-- The work of a daemon leaves the pid files and the locks alone. -/
theorem Work.step_files (pid : Nat) (terminate ok : Bool) (fd : Nat) (h : Host) (work : Work) :
    (work.step pid terminate ok fd h).1.files = h.files ∧
      (work.step pid terminate ok fd h).1.locks = h.locks ∧
      h.next ≤ (work.step pid terminate ok fd h).1.next ∧
      ((work.step pid terminate ok fd h).2 = none ∧ (work.step pid terminate ok fd h).1 = h ∨
        (∃ work', (work.step pid terminate ok fd h).2 = some (.locked fd work')) ∨
        (work.step pid terminate ok fd h).2 = some (.pidUnlink (some fd))) := by
  cases work with
  | truncate | shmOpen | semOpen shm | write =>
      simp only [Work.step]
      split <;> simp
  | shmUnlink | semUnlink | shmMap shm | pthreadCreate shm sem | serve shm sem | cleanupSem
  | cleanupShm => simp [Work.step]

/-- A process that stays where it is, or goes on without the pid files. -/
theorem World.PidFiles.server (hw : w.PidFiles) (hs : w.servers p = some s) (ok : Bool)
    (halone : ∀ fd, ok = true → s.pc = .pidUnlink fd →
      ∀ q u, q ≠ p → w.servers q = some u → ¬ u.Uses s.pidfile) :
    (w.put p s (s.step p ok w.toHost)).PidFiles := by
  cases hpc : s.pc with
  | semInit =>
      have hstep : s.step p ok w.toHost =
          (w.toHost, some (if ok then .pidOpen else .pidUnlink none)) := by
        rw [Server.step, hpc]
      rw [hstep]
      cases ok with
      | true =>
          exact hw.move hs rfl rfl le_rfl rfl (fun _ h ↦ by cases h) (fun _ _ h ↦ by cases h)
            (fun h ↦ by rw [hpc] at h; cases h)
      | false =>
          exact hw.move hs rfl rfl le_rfl rfl (fun _ h ↦ by cases h) (fun _ _ h ↦ by cases h)
            (fun _ ↦ trivial)
  | pidOpen =>
      simp only [Server.step, hpc]
      split
      · split
        · rename_i fd hfd
          refine hw.move hs rfl rfl le_rfl rfl (fun fd' h ↦ ?_) (fun _ _ h ↦ by cases h)
            (fun h ↦ by rw [hpc] at h; cases h)
          exact hfd.trans h
        · rename_i hnone
          refine (hw.create hnone _).move hs rfl rfl le_rfl rfl (fun fd' h ↦ ?_)
            (fun _ _ h ↦ by cases h) (fun h ↦ by rw [hpc] at h; cases h)
          exact (Function.update_self ..).trans h
      · exact hw.gone p _
  | pidLock fd =>
      simp only [Server.step, hpc]
      split
      · rename_i hok
        exact hw.lock hs hpc hok.2 _
      · exact hw.gone p _
  | locked fd work =>
      obtain ⟨hfiles, hlocks, hnext, h⟩ := work.step_files p s.terminate ok fd w.toHost
      rw [Server.step_locked hpc]
      rcases hr : work.step p s.terminate ok fd w.toHost with ⟨h', _ | pc⟩
      · rw [hr] at h
        obtain ⟨-, rfl⟩ | ⟨work', h⟩ | h := h
        · exact hw.gone p _
        · cases h
        · cases h
      · rw [hr] at h hfiles hlocks hnext
        refine hw.move hs hfiles hlocks hnext rfl (fun fd' hfd ↦ ?_) (fun fd' work' hpc' ↦ ?_)
          fun _ ↦ ?_
        · refine hw.named p s fd' hs ?_
          obtain ⟨h, -⟩ | ⟨work', h⟩ | h := h
          · cases h
          · obtain rfl := Option.some.inj h
            rw [hpc]
            exact hfd
          · obtain rfl := Option.some.inj h
            cases hfd
        · obtain ⟨h, -⟩ | ⟨work'', h⟩ | h := h
          · cases h
          · obtain rfl := Option.some.inj h
            cases hpc'
            exact ⟨work, hpc⟩
          · obtain rfl := Option.some.inj h
            cases hpc'
        · obtain ⟨h, -⟩ | ⟨work', h⟩ | h := h
          · cases h
          · obtain rfl := Option.some.inj h
            trivial
          · obtain rfl := Option.some.inj h
            trivial
  | pidUnlink fd =>
      simp only [Server.step, hpc]
      split
      · rename_i hok
        refine (hw.unlink fun q u hu hname ↦ ?_).move hs rfl rfl le_rfl rfl (fun _ h ↦ by cases h)
          (fun _ _ h ↦ by cases h) (fun _ ↦ trivial)
        by_cases hq : q = p
        · subst hq
          obtain rfl := Option.some.inj (hs.symm.trans hu)
          rw [hpc]
          rfl
        · have huses := halone fd hok hpc q u hq hu
          cases hpc' : u.pc with
          | pidLock fd' => exact absurd ⟨hname, by rw [hpc']; trivial⟩ huses
          | locked fd' work => exact absurd ⟨hname, by rw [hpc']; trivial⟩ huses
          | semInit => rfl
          | pidOpen => rfl
          | pidUnlink fd' => rfl
          | leave => rfl
      · exact hw.move hs rfl rfl le_rfl rfl (fun _ h ↦ by cases h) (fun _ _ h ↦ by cases h)
          (fun _ ↦ trivial)
  | leave =>
      simp only [Server.step, hpc]
      exact hw.gone p _

/-- **Every step keeps the pid files in order**, if it is no unlink that is not alone. -/
theorem World.PidFiles.step [DecidableEq κ] {w' : World κ} {e : WorldEvent κ} (hw : w.PidFiles)
    (he : w.UnlinksAlone e) (hstep : (world κ).step w e = some w') : w'.PidFiles := by
  cases e with
  | start pid args =>
      simp only [world, World.step] at hstep
      split at hstep
      · cases hstep
      · rename_i hnone
        cases hstep
        exact hw.start hnone (Server.start_inode args)
  | server pid ok =>
      obtain ⟨s, hs, rfl⟩ := Option.map_eq_some_iff.1 hstep
      refine hw.server hs ok fun fd hok hpc ↦ ?_
      subst hok
      exact he s fd hs hpc
  | signal pid =>
      obtain ⟨s, hs, rfl⟩ := Option.map_eq_some_iff.1 hstep
      split
      · exact hw.move hs rfl rfl le_rfl rfl (fun fd h ↦ hw.named pid s fd hs h)
          (fun fd work h ↦ ⟨work, h⟩) id
      · exact hw.gone pid _
  | kill pid =>
      obtain ⟨s, hs, rfl⟩ := Option.map_eq_some_iff.1 hstep
      exact hw.gone pid _
  | init k =>
      simp only [world, World.step] at hstep
      split at hstep
      · cases hstep
      · cases hstep
        exact ⟨hw.old, hw.inj, hw.named, hw.held, hw.owner, hw.finite⟩
  | client k ok =>
      obtain ⟨pc, -, rfl⟩ := Option.map_eq_some_iff.1 hstep
      exact ⟨hw.old, hw.inj, hw.named, hw.held, hw.owner, hw.finite⟩
  | exit k =>
      obtain ⟨pc, -, rfl⟩ := Option.map_eq_some_iff.1 hstep
      exact ⟨hw.old, hw.inj, hw.named, hw.held, hw.owner, hw.finite⟩

/-- What runs has its lock, and the lock of the inode of its pid file. -/
theorem World.PidFiles.exclusive (hw : w.PidFiles) : w.Exclusive := by
  have hlock : ∀ {p s f}, w.servers p = some s → s.Runs f →
      ∃ fd, w.files f = some fd ∧ w.locks fd = some p := by
    rintro p s f hs ⟨rfl, hruns⟩
    cases hpc : s.pc with
    | locked fd work =>
        exact ⟨fd, hw.named p s fd hs (by rw [hpc]; rfl), hw.held p s fd work hs hpc⟩
    | semInit | pidOpen | pidLock fd | pidUnlink fd | leave =>
        rw [hpc] at hruns
        exact hruns.elim
  intro p q s t f hs ht hsf htf
  obtain ⟨fd, hfd, hp⟩ := hlock hs hsf
  obtain ⟨fd', hfd', hq⟩ := hlock ht htf
  obtain rfl := Option.some.inj (hfd.symm.trans hfd')
  exact Option.some.inj (hp.symm.trans hq)

end

/-- The pid files along a run. -/
theorem pidFiles_of_run [DecidableEq κ] {w w' : World κ} {es : List (WorldEvent κ)}
    (hw : w.PidFiles)
    (hes : (world κ).Guarded World.UnlinksAlone w es) (hrun : (world κ).run w es = some w') :
    w'.PidFiles :=
  hes.invariant (P := World.PidFiles) (fun _ _ _ h he hstep ↦ h.step he hstep) hw hrun

/-- A process that is not started is not there. -/
theorem servers_of_run [DecidableEq κ] {w w' : World κ} {q : Nat} {es : List (WorldEvent κ)}
    (hes : ∀ e ∈ es, ∀ args, e ≠ .start q args) (hq : w.servers q = none)
    (hrun : (world κ).run w es = some w') : w'.servers q = none := by
  refine ((world κ).guarded_true w es |>.and_forall hes).invariant
    (P := fun w ↦ w.servers q = none) (fun w e w' hq he hstep ↦ ?_) hq hrun
  have hne : ∀ {p s}, w.servers p = some s → q ≠ p := by
    rintro p s hs rfl
    cases hq.symm.trans hs
  have hput : ∀ p s r, w.servers p = some s → (w.put p s r).servers q = none := by
    intro p s r hs
    rw [World.put_servers, Function.update_of_ne (hne hs), hq]
  cases e with
  | start pid args =>
      simp only [world, World.step] at hstep
      split at hstep
      · cases hstep
      · cases hstep
        refine (Function.update_of_ne ?_ _ _).trans hq
        rintro rfl
        exact he.2 args rfl
  | server pid ok =>
      obtain ⟨s, hs, rfl⟩ := Option.map_eq_some_iff.1 hstep
      exact hput pid s _ hs
  | signal pid =>
      obtain ⟨s, hs, rfl⟩ := Option.map_eq_some_iff.1 hstep
      split
      · exact (Function.update_of_ne (hne hs) _ _).trans hq
      · exact hput pid s _ hs
  | kill pid =>
      obtain ⟨s, hs, rfl⟩ := Option.map_eq_some_iff.1 hstep
      exact hput pid s _ hs
  | init k =>
      simp only [world, World.step] at hstep
      split at hstep
      · cases hstep
      · cases hstep
        exact hq
  | client k ok =>
      obtain ⟨pc, -, rfl⟩ := Option.map_eq_some_iff.1 hstep
      exact hq
  | exit k =>
      obtain ⟨pc, -, rfl⟩ := Option.map_eq_some_iff.1 hstep
      exact hq

/-! ## What the pid file says -/

/-- What a daemon has made of the text of its pid file. -/
def Work.Signed (p : Nat) (text : CStr) : Work → Prop
  | .truncate => True
  | .write => text = []
  | _ => text = [] ∨ text = pidText p

/-- Every pid file that a daemon runs with is empty or names it, once it has been truncated. -/
def World.Signed (w : World κ) : Prop :=
  ∀ p s fd work, w.servers p = some s → s.pc = .locked fd work → work.Signed p (w.text fd)

/-- The work of a daemon changes the text of its own pid file at most. -/
theorem Work.step_text (pid : Nat) (terminate ok : Bool) (fd : Nat) (h : Host) (work : Work) :
    (∀ fd', fd' ≠ fd → (work.step pid terminate ok fd h).1.text fd' = h.text fd') ∧
      ∀ fd' work', work.Signed pid (h.text fd) →
        (work.step pid terminate ok fd h).2 = some (.locked fd' work') →
        fd' = fd ∧ work'.Signed pid ((work.step pid terminate ok fd h).1.text fd) := by
  cases work with
  | truncate =>
      simp only [Work.step]
      split
      · refine ⟨fun fd' hne ↦ Function.update_of_ne hne _ _, fun fd' work' _ h ↦ ?_⟩
        cases h
        exact ⟨rfl, Function.update_self ..⟩
      · exact ⟨fun _ _ ↦ rfl, fun _ _ _ h ↦ by cases h⟩
  | write =>
      simp only [Work.step]
      split
      · refine ⟨fun fd' hne ↦ Function.update_of_ne hne _ _, fun fd' work' _ h ↦ ?_⟩
        cases h
        exact ⟨rfl, .inr (Function.update_self ..)⟩
      · refine ⟨fun _ _ ↦ rfl, fun fd' work' htext h ↦ ?_⟩
        cases h
        exact ⟨rfl, .inl htext⟩
  | shmOpen =>
      simp only [Work.step]
      split
      · refine ⟨fun _ _ ↦ rfl, fun fd' work' htext h ↦ ?_⟩
        cases h
        exact ⟨rfl, htext⟩
      · exact ⟨fun _ _ ↦ rfl, fun _ _ _ h ↦ by cases h⟩
  | semOpen shm =>
      simp only [Work.step]
      split <;> refine ⟨fun _ _ ↦ rfl, fun fd' work' htext h ↦ ?_⟩ <;> cases h <;>
        exact ⟨rfl, htext⟩
  | shmMap shm | pthreadCreate shm sem | serve shm sem =>
      refine ⟨fun _ _ ↦ rfl, fun fd' work' htext h ↦ ?_⟩
      simp only [Work.step] at h
      split at h <;> cases h <;> exact ⟨rfl, htext⟩
  | shmUnlink | semUnlink | cleanupSem =>
      refine ⟨fun _ _ ↦ rfl, fun fd' work' htext h ↦ ?_⟩
      cases h
      exact ⟨rfl, htext⟩
  | cleanupShm => exact ⟨fun _ _ ↦ rfl, fun _ _ _ h ↦ by cases h⟩

section

variable {w : World κ} {p : Nat} {s : Server}

/-- A step of one process, as the others see it. -/
theorem World.Signed.put (hw : w.Signed) {r : Step}
    (hothers : ∀ q u fd work, q ≠ p → w.servers q = some u → u.pc = .locked fd work →
      r.1.text fd = w.text fd)
    (hown : ∀ fd work, r.2 = some (.locked fd work) → work.Signed p (r.1.text fd)) :
    (w.put p s r).Signed := by
  intro q u fd work hq hpc
  rw [World.put_text]
  rcases World.put_servers_eq_some hq with ⟨rfl, hr, -⟩ | ⟨hne, hu⟩
  · exact hown fd work (hpc ▸ hr)
  · rw [hothers q u fd work hne hu hpc]
    exact hw q u fd work hu hpc

/-- A process in the place of one, that only runs if that one did. -/
theorem World.Signed.set (hw : w.Signed) {t : Server}
    (h : ∀ fd work, t.pc = .locked fd work → ∃ s, w.servers p = some s ∧ s.pc = .locked fd work) :
    World.Signed { w with servers := Function.update w.servers p (some t) } := by
  intro q u fd work hq hpc
  rcases update_eq_some_iff.1 hq with ⟨rfl, hu⟩ | ⟨-, hu⟩
  · obtain rfl := Option.some.inj hu
    obtain ⟨s, hs, hlocked⟩ := h fd work hpc
    exact hw q s fd work hs hlocked
  · exact hw q u fd work hu hpc

theorem World.Signed.server (hw : w.Signed) (hfiles : w.PidFiles) (hs : w.servers p = some s)
    (ok : Bool) : (w.put p s (s.step p ok w.toHost)).Signed := by
  cases hpc : s.pc with
  | semInit =>
      refine hw.put (fun _ _ _ _ _ _ _ ↦ ?_) fun fd work h ↦ ?_
      · simp only [Server.step, hpc]
      · simp only [Server.step, hpc] at h
        cases ok <;> cases h
  | pidUnlink fd =>
      simp only [Server.step, hpc]
      refine hw.put (fun _ _ _ _ _ _ _ ↦ ?_) fun fd work h ↦ by cases h
      cases ok <;> rfl
  | leave =>
      refine hw.put (fun _ _ _ _ _ _ _ ↦ ?_) fun fd work h ↦ ?_
      · simp only [Server.step, hpc]
      · simp only [Server.step, hpc] at h
        cases h
  | pidLock fd =>
      simp only [Server.step, hpc]
      split
      · refine hw.put (fun _ _ _ _ _ _ _ ↦ rfl) fun fd work h ↦ ?_
        cases h
        trivial
      · exact hw.put (fun _ _ _ _ _ _ _ ↦ rfl) fun fd work h ↦ by cases h
  | pidOpen =>
      simp only [Server.step, hpc]
      split
      · split
        · exact hw.put (fun _ _ _ _ _ _ _ ↦ rfl) fun fd work h ↦ by cases h
        · refine hw.put (fun q u fd work _ hu hlocked ↦ ?_) fun fd work h ↦ by cases h
          -- the inode of a daemon that runs is an old one
          have hlt := (hfiles.owner fd q (hfiles.held q u fd work hu hlocked)).1
          exact Function.update_of_ne hlt.ne _ _
      · exact hw.put (fun _ _ _ _ _ _ _ ↦ rfl) fun fd work h ↦ by cases h
  | locked fd work =>
      obtain ⟨hothers, hown⟩ := work.step_text p s.terminate ok fd w.toHost
      rw [Server.step_locked hpc]
      refine hw.put (fun q u fd' work' hq hu hlocked ↦ hothers fd' ?_) fun fd' work' h ↦ ?_
      · rintro rfl
        have hheld := hfiles.held p s fd' work hs hpc
        rw [hfiles.held q u fd' work' hu hlocked] at hheld
        exact hq (Option.some.inj hheld)
      · obtain ⟨rfl, hsigned⟩ := hown fd' work' (hw p s fd work hs hpc) h
        exact hsigned

theorem World.Signed.step [DecidableEq κ] {w' : World κ} {e : WorldEvent κ} (hw : w.Signed)
    (hfiles : w.PidFiles) (hstep : (world κ).step w e = some w') : w'.Signed := by
  cases e with
  | start pid args =>
      simp only [world, World.step] at hstep
      split at hstep
      · cases hstep
      · cases hstep
        exact hw.set fun fd work h ↦
          absurd h (ServerPc.ne_locked (Server.start_inode args) fd work)
  | server pid ok =>
      obtain ⟨s, hs, rfl⟩ := Option.map_eq_some_iff.1 hstep
      exact hw.server hfiles hs ok
  | signal pid =>
      obtain ⟨s, hs, rfl⟩ := Option.map_eq_some_iff.1 hstep
      split
      · exact hw.set fun fd work h ↦ ⟨s, hs, h⟩
      · exact hw.put (fun _ _ _ _ _ _ _ ↦ rfl) fun fd work h ↦ by cases h
  | kill pid =>
      obtain ⟨s, hs, rfl⟩ := Option.map_eq_some_iff.1 hstep
      exact hw.put (fun _ _ _ _ _ _ _ ↦ rfl) fun fd work h ↦ by cases h
  | init k =>
      simp only [world, World.step] at hstep
      split at hstep
      · cases hstep
      · cases hstep
        exact hw
  | client k ok =>
      obtain ⟨pc, -, rfl⟩ := Option.map_eq_some_iff.1 hstep
      exact hw
  | exit k =>
      obtain ⟨pc, -, rfl⟩ := Option.map_eq_some_iff.1 hstep
      exact hw

end

/-- **There is one daemon for a pid file.**  However many are started, asked to terminate or
killed, and whatever calls fail: if no process unlinks a pid file that another one has open
before its own unlink, no two processes are between the lock on a pid file and its unlink, and
the pid file of a daemon in its loop is there, and is empty or names it. -/
theorem exclusive_of_run [DecidableEq κ] {w : World κ} {es : List (WorldEvent κ)}
    (hes : (world κ).Guarded World.UnlinksAlone (.fresh κ) es)
    (hrun : (world κ).run (.fresh κ) es = some w) :
    w.Exclusive ∧ ∀ p s fd shm sem, w.servers p = some s → s.pc = .locked fd (.serve shm sem) →
      w.files s.pidfile = some fd ∧ (w.text fd = [] ∨ w.text fd = pidText p) := by
  obtain ⟨hfiles, hsigned⟩ : w.PidFiles ∧ w.Signed := by
    refine hes.invariant (P := fun w ↦ w.PidFiles ∧ w.Signed) (fun w e w' h he hstep ↦ ?_)
      ⟨.fresh, fun _ _ _ _ h ↦ absurd h.symm (Option.some_ne_none _)⟩ hrun
    exact ⟨h.1.step he hstep, h.2.step h.1 hstep⟩
  refine ⟨hfiles.exclusive, fun p s fd shm sem hs hpc ↦ ⟨?_, hsigned p s fd _ hs hpc⟩⟩
  exact hfiles.named p s fd hs (by rw [hpc]; rfl)

/-- A daemon that is started, and has its lock. -/
def startOne : List (WorldEvent Unit) :=
  [.start 1 [], .server 1 true, .server 1 true, .server 1 true]

/-- No process comes to its unlink. -/
def World.noUnlink (w : World Unit) : WorldEvent Unit → Bool
  | .server pid _ =>
      match w.servers pid with
      | some ⟨_, _, .pidUnlink _⟩ => false
      | _ => true
  | _ => true

theorem unlinksAlone_of_noUnlink {w : World Unit} {es : List (WorldEvent Unit)}
    (h : (world Unit).Guarded (fun w e ↦ w.noUnlink e = true) w es) :
    (world Unit).Guarded World.UnlinksAlone w es := by
  refine h.mono fun w e he ↦ ?_
  cases e with
  | server pid ok =>
      cases ok with
      | false => trivial
      | true =>
          rintro ⟨pidfile, terminate, pc⟩ fd hs rfl
          rw [World.noUnlink, hs] at he
          cases he
  | start | signal | kill | init | client | exit => trivial

theorem startOne_unlinksAlone :
    (world Unit).Guarded World.UnlinksAlone (.fresh Unit) startOne :=
  unlinksAlone_of_noUnlink (by decide)

/-- `lockf` refuses a second one, and the first one comes to its loop. -/
def refuseTwo : List (WorldEvent Unit) :=
  startOne ++ .start 2 [] :: List.replicate 3 (.server 2 true) ++ List.replicate 8 (.server 1 true)

/-- It is asked to terminate and comes to its unlink, while a third one is started. -/
def leaveOne : List (WorldEvent Unit) :=
  .signal 1 :: List.replicate 3 (.server 1 true) ++ [.start 3 [], .server 3 true]

/-- It unlinks the pid file, and the third one makes a new one and comes to its loop. -/
def serveThree : List (WorldEvent Unit) :=
  List.replicate 2 (.server 1 true) ++ List.replicate 10 (.server 3 true)

theorem refuseTwo_unlinksAlone :
    (world Unit).Guarded World.UnlinksAlone (.fresh Unit) refuseTwo :=
  unlinksAlone_of_noUnlink (by decide)

/-- When it unlinks the pid file, the third process has not opened it. -/
theorem serveThree_unlinksAlone {w : World Unit}
    (hrun : (world Unit).run (.fresh Unit) (refuseTwo ++ leaveOne) = some w) :
    (world Unit).Guarded World.UnlinksAlone w serveThree := by
  obtain ⟨w₁, hrun₁, htwo, hthree, hrest⟩ : ∃ w₁,
      (world Unit).run (.fresh Unit) (refuseTwo ++ leaveOne) = some w₁ ∧ w₁.servers 2 = none ∧
      w₁.servers 3 = some ⟨RBTRACED_DFT_PID_FILE, false, .pidOpen⟩ ∧
      ∀ w₂, (world Unit).step w₁ (.server 1 true) = some w₂ →
        (world Unit).Guarded (fun w e ↦ w.noUnlink e = true) w₂
          (.server 1 true :: List.replicate 10 (.server 3 true)) := by
    refine ⟨_, rfl, rfl, rfl, fun w₂ h ↦ ?_⟩
    obtain rfl := Option.some.inj h
    decide
  obtain rfl := Option.some.inj (hrun.symm.trans hrun₁)
  refine ⟨fun s fd _ _ q u hq hu huses ↦ ?_, fun w₂ h ↦ unlinksAlone_of_noUnlink (hrest w₂ h)⟩
  by_cases hq₃ : q = 3
  · subst hq₃
    obtain rfl := Option.some.inj (hthree.symm.trans hu)
    exact huses.2
  · have hnone : w.servers q = none := by
      by_cases hq₂ : q = 2
      · rw [hq₂, htwo]
      · refine servers_of_run (fun e he args h ↦ ?_) rfl hrun
        subst h
        have hstart : q = 1 ∨ q = 2 ∨ q = 3 := by
          simp only [refuseTwo, startOne, leaveOne, List.reduceReplicate, List.cons_append,
            List.nil_append, List.mem_cons, WorldEvent.start.injEq, reduceCtorEq,
            List.not_mem_nil, or_self, or_false, false_or] at he
          exact he.imp And.left (Or.imp And.left And.left)
        exact (hstart.resolve_left hq).elim hq₂ hq₃
    cases hnone.symm.trans hu

/-- The first daemon and the third one are each the only one, and the pid file is theirs. -/
theorem exclusive_of_run_refuseTwo : ∃ w w',
    (world Unit).run (.fresh Unit) refuseTwo = some w ∧ w.servers 2 = none ∧
    w.servers 1 = some ⟨RBTRACED_DFT_PID_FILE, false, .locked 0 (.serve 1 2)⟩ ∧
    w.Exclusive ∧ w.files RBTRACED_DFT_PID_FILE = some 0 ∧
    (w.text 0 = [] ∨ w.text 0 = pidText 1) ∧
    (world Unit).run w (leaveOne ++ serveThree) = some w' ∧ w'.servers 1 = none ∧
    w'.servers 3 = some ⟨RBTRACED_DFT_PID_FILE, false, .locked 3 (.serve 4 5)⟩ ∧
    w'.Exclusive ∧ w'.files RBTRACED_DFT_PID_FILE = some 3 ∧
    (w'.text 3 = [] ∨ w'.text 3 = pidText 3) := by
  obtain ⟨w, hrun, htwo, hone⟩ : ∃ w, (world Unit).run (.fresh Unit) refuseTwo = some w ∧
      w.servers 2 = none ∧
      w.servers 1 = some ⟨RBTRACED_DFT_PID_FILE, false, .locked 0 (.serve 1 2)⟩ :=
    ⟨_, rfl, rfl, rfl⟩
  obtain ⟨w₁, w', hrun₁, hrun', hgone, hthree, hleave⟩ : ∃ w₁ w',
      (world Unit).run w leaveOne = some w₁ ∧ (world Unit).run w₁ serveThree = some w' ∧
      w'.servers 1 = none ∧
      w'.servers 3 = some ⟨RBTRACED_DFT_PID_FILE, false, .locked 3 (.serve 4 5)⟩ ∧
      (world Unit).Guarded (fun w e ↦ w.noUnlink e = true) w leaveOne := by
    obtain rfl := Option.some.inj hrun
    exact ⟨_, _, rfl, rfl, rfl, rfl, by decide⟩
  have hall₁ := (world Unit).run_append_eq_some.2 ⟨w, hrun, hrun₁⟩
  have hall := (world Unit).run_append_eq_some.2 ⟨w₁, hall₁, hrun'⟩
  have hguard : (world Unit).Guarded World.UnlinksAlone (.fresh Unit)
      (refuseTwo ++ leaveOne ++ serveThree) :=
    ((world Unit).guarded_append hall₁).2 ⟨((world Unit).guarded_append hrun).2
      ⟨refuseTwo_unlinksAlone, unlinksAlone_of_noUnlink hleave⟩, serveThree_unlinksAlone hall₁⟩
  obtain ⟨hex, hfile⟩ := exclusive_of_run refuseTwo_unlinksAlone hrun
  obtain ⟨hex', hfile'⟩ := exclusive_of_run hguard hall
  obtain ⟨hname, htext⟩ := hfile 1 _ 0 1 2 hone rfl
  obtain ⟨hname', htext'⟩ := hfile' 3 _ 3 4 5 hthree rfl
  exact ⟨w, w', hrun, htwo, hone, hex, hname, htext,
    (world Unit).run_append_eq_some.2 ⟨w₁, hrun₁, hrun'⟩, hgone, hthree, hex', hname', htext'⟩

/-! ## The unlink that is not alone -/

/-- The steps can all be taken, none is an unlink, and two daemons run for one pid file. -/
def World.LetsIn [DecidableEq κ] (w : World κ) : Prop :=
  ∃ es w', (world κ).Guarded World.UnlinksAlone w es ∧ (world κ).run w es = some w' ∧ ¬ w'.Exclusive

theorem World.LetsIn.cons [DecidableEq κ] {w w' : World κ} {e : WorldEvent κ}
    (he : w.UnlinksAlone e) (hstep : (world κ).step w e = some w') (h : w'.LetsIn) : w.LetsIn := by
  obtain ⟨es, w'', hes, hrun, hex⟩ := h
  refine ⟨e :: es, w'', ⟨he, fun t ht ↦ ?_⟩, (world κ).run_cons_eq_some.2 ⟨w', hstep, hrun⟩, hex⟩
  obtain rfl := Option.some.inj (hstep.symm.trans ht)
  exact hes

/-- A step of a process that is not at its unlink. -/
theorem World.LetsIn.server [DecidableEq κ] {w : World κ} {p : Nat} {s : Server} {h : Host}
    {pc : ServerPc} (hs : w.servers p = some s) (hpc : ∀ fd, s.pc ≠ .pidUnlink fd)
    (hstep : s.step p true w.toHost = (h, some pc))
    (hin : World.LetsIn { w with
      toHost := h, servers := Function.update w.servers p (some { s with pc := pc }) }) :
    w.LetsIn := by
  refine hin.cons (e := .server p true) (fun t fd ht hfd ↦ ?_) ?_
  · obtain rfl := Option.some.inj (hs.symm.trans ht)
    exact absurd hfd (hpc fd)
  · show (w.servers p).map _ = _
    rw [hs, Option.map_some, hstep]
    rfl

/-- The arguments that name a pid file. -/
def pidfileArgs (f : CStr) : List CStr := [[45, 112], f]

theorem start_pidfileArgs (f : CStr) : Server.start (pidfileArgs f) = ⟨f, false, .semInit⟩ := by
  have hfound : options rbtracedOptstring (pidfileArgs f) = [.opt 112 (some f)] := by
    simp [pidfileArgs, options, cluster, rbtracedOptstring, takesValue, dash, colon]
  rw [Server.start, hfound]
  rfl

/-- While a daemon runs whose pid file has lost its name, another one can be started. -/
theorem World.LetsIn.of_runs [DecidableEq κ] {w : World κ} {f : CStr} {q n : Nat} {u : Server}
    (hf : w.files f = none) (hlock : w.locks w.next = none) (hn : w.servers n = none)
    (hu : w.servers q = some u) (hruns : u.Runs f) : w.LetsIn := by
  have hqn : q ≠ n := by
    rintro rfl
    rw [hn] at hu
    cases hu
  let opened : Host := { w.toHost with
    files := Function.update w.files f (some w.next)
    text := Function.update w.text w.next []
    next := w.next + 1 }
  let held : Host := { opened with locks := Function.update w.locks w.next (some n) }
  have hopen : (⟨f, false, .pidOpen⟩ : Server).step n true w.toHost =
      (opened, some (.pidLock w.next)) := by
    simp only [Server.step, hf, if_true, opened]
  have hheld : (⟨f, false, .pidLock w.next⟩ : Server).step n true opened =
      (held, some (.locked w.next .truncate)) := by
    simp only [Server.step, opened, hlock, and_self, if_true, held]
  let started : World κ := { w with
    servers := Function.update w.servers n (some ⟨f, false, .semInit⟩) }
  have hstart : (world κ).step w (.start n (pidfileArgs f)) = some started := by
    simp only [world, World.step, hn, start_pidfileArgs, started]
  have hinit : (⟨f, false, .semInit⟩ : Server).step n true w.toHost =
      (w.toHost, some .pidOpen) := rfl
  refine .cons (e := .start n (pidfileArgs f)) trivial hstart ?_
  refine .server (p := n) (s := ⟨f, false, .semInit⟩) (Function.update_self ..)
    (fun _ h ↦ by cases h) hinit ?_
  refine .server (p := n) (s := ⟨f, false, .pidOpen⟩) (Function.update_self ..)
    (fun _ h ↦ by cases h) hopen ?_
  refine .server (p := n) (s := ⟨f, false, .pidLock w.next⟩) (Function.update_self ..)
    (fun _ h ↦ by cases h) hheld ?_
  refine ⟨[], _, trivial, rfl, fun hex ↦ hqn ?_⟩
  refine hex q n u ⟨f, false, .locked w.next .truncate⟩ f ?_ (Function.update_self ..) hruns
    ⟨rfl, trivial⟩
  simp [hqn, hu, started]

/-- A process that has opened the pid file before it lost its name gets the lock when it is
free, and runs. -/
theorem World.LetsIn.of_free [DecidableEq κ] {w : World κ} {f : CStr} {q n fd : Nat} {u : Server}
    (hf : w.files f = none) (hlock : w.locks w.next = none) (hn : w.servers n = none)
    (hu : w.servers q = some u) (hname : u.pidfile = f) (hpc : u.pc = .pidLock fd)
    (hlt : fd < w.next) (hfree : w.locks fd = none) : w.LetsIn := by
  have hqn : n ≠ q := by
    rintro rfl
    rw [hn] at hu
    cases hu
  have hstep : u.step q true w.toHost =
      ({ w.toHost with locks := Function.update w.locks fd (some q) },
        some (.locked fd .truncate)) := by
    simp only [Server.step, hpc, hfree, and_self, if_true]
  refine .server hu (fun fd' h ↦ by rw [hpc] at h; cases h) hstep ?_
  refine .of_runs (n := n) hf ?_ ?_ (Function.update_self ..) ⟨hname, trivial⟩
  · exact (Function.update_of_ne hlt.ne' _ _).trans hlock
  · exact (Function.update_of_ne hqn _ _).trans hn

/-- So does one that another process keeps from the lock, if that one is killed. -/
theorem World.LetsIn.of_uses [DecidableEq κ] {w : World κ} {f : CStr} {q n : Nat} {u : Server}
    (hf : w.files f = none) (hlock : w.locks w.next = none) (hn : w.servers n = none)
    (hu : w.servers q = some u) (huses : u.Uses f) (hlt : ∀ fd, u.pc.inode = some fd → fd < w.next)
    (howner : ∀ fd r, w.locks fd = some r → ∃ v, w.servers r = some v ∧ v.pc.Past) : w.LetsIn := by
  obtain ⟨hname, huses⟩ := huses
  cases hpc : u.pc with
  | locked fd work => exact .of_runs hf hlock hn hu ⟨hname, by rw [hpc]; trivial⟩
  | semInit | pidOpen | pidUnlink fd | leave =>
      rw [hpc] at huses
      exact huses.elim
  | pidLock fd =>
      have hfd : fd < w.next := hlt fd (by rw [hpc]; rfl)
      cases hheld : w.locks fd with
      | none => exact .of_free hf hlock hn hu hname hpc hfd hheld
      | some r =>
          obtain ⟨v, hv, hpast⟩ := howner fd r hheld
          have hqr : q ≠ r := by
            rintro rfl
            obtain rfl := Option.some.inj (hu.symm.trans hv)
            rw [hpc] at hpast
            exact hpast
          have hkill : (world κ).step w (.kill r) = some (w.put r v (w.toHost, none)) := by
            show (w.servers r).map _ = _
            rw [hv]
            rfl
          refine .cons (e := .kill r) trivial hkill
            (.of_free (n := n) (q := q) hf ?_ ?_ ?_ hname hpc hfd ?_)
          · show (if w.locks w.next = some r then none else w.locks w.next) = none
            rw [hlock, ite_self]
          · rcases eq_or_ne n r with rfl | hnr
            · exact Function.update_self ..
            · exact (Function.update_of_ne hnr _ _).trans hn
          · exact (Function.update_of_ne hqr _ _).trans hu
          · exact if_pos hheld

/-- **When an unlink is safe.**  In every state that the processes can get to without an unlink
that is not alone: if the next unlink of a pid file is made by some process, then there stays
at most one daemon for each pid file, whatever steps follow in which pid files are unlinked
alone, exactly if no other process has that pid file open before its own unlink. -/
theorem unlink_safe_iff [DecidableEq κ] {w w₁ : World κ} {es : List (WorldEvent κ)} {p : Nat}
    {s : Server} {fd : Option Nat} (hes : (world κ).Guarded World.UnlinksAlone (.fresh κ) es)
    (hrun : (world κ).run (.fresh κ) es = some w) (hs : w.servers p = some s)
    (hpc : s.pc = .pidUnlink fd) (hw₁ : (world κ).step w (.server p true) = some w₁) :
    (∀ es' w', (world κ).Guarded World.UnlinksAlone w₁ es' → (world κ).run w₁ es' = some w' →
      w'.Exclusive) ↔ ∀ q u, q ≠ p → w.servers q = some u → ¬ u.Uses s.pidfile := by
  have hw := pidFiles_of_run .fresh hes hrun
  constructor
  · intro h q u hq hu huses
    have hstep : w₁ = { w with
        toHost := { w.toHost with files := Function.update w.files s.pidfile none }
        servers := Function.update w.servers p (some { s with pc := .leave }) } := by
      obtain ⟨s', hs', rfl⟩ := Option.map_eq_some_iff.1 hw₁
      obtain rfl := Option.some.inj (hs.symm.trans hs')
      simp only [Server.step, hpc, if_true]
      rfl
    obtain ⟨n, hn⟩ := (hw.finite.insert p).exists_notMem
    have hnp : n ≠ p := fun h ↦ hn (.inl h)
    have hnone : w.servers n = none := not_not.1 fun h ↦ hn (.inr h)
    obtain ⟨es', w', hes', hrun', hex⟩ : w₁.LetsIn := by
      rw [hstep]
      refine .of_uses (f := s.pidfile) (q := q) (n := n) (u := u) (Function.update_self ..) ?_ ?_ ?_
        huses (fun fd hfd ↦ hw.old _ fd (hw.named q u fd hu hfd)) fun fd r hr ↦ ?_
      · show w.locks w.next = none
        cases hlock : w.locks w.next with
        | none => rfl
        | some r => exact absurd (hw.owner _ r hlock).1 (lt_irrefl _)
      · exact (Function.update_of_ne hnp _ _).trans hnone
      · exact (Function.update_of_ne hq _ _).trans hu
      · obtain ⟨-, v, hv, hpast⟩ := hw.owner fd r hr
        rcases eq_or_ne r p with rfl | hrp
        · exact ⟨_, Function.update_self .., trivial⟩
        · exact ⟨v, (Function.update_of_ne hrp _ _).trans hv, hpast⟩
    exact hex (h es' w' hes' hrun')
  · intro h es' w' hes' hrun'
    have he : w.UnlinksAlone (.server p true) := by
      intro s' fd' hs' hpc' q u hq hu
      obtain rfl := Option.some.inj (hs.symm.trans hs')
      exact h q u hq hu
    exact (pidFiles_of_run (hw.step he hw₁) hes' hrun').exclusive

end

/-- While a daemon runs, `rbtraced -v` comes to its unlink. -/
def askVersion : List (WorldEvent Unit) := startOne ++ [.start 2 [[45, 118]]]

/-- That lets in a second daemon. -/
theorem unlink_unsafe_askVersion : ∃ w w₁ es' w',
    (world Unit).run (.fresh Unit) askVersion = some w ∧
    (world Unit).step w (.server 2 true) = some w₁ ∧
    (world Unit).run w₁ es' = some w' ∧ ¬ w'.Exclusive := by
  obtain ⟨w, hrun, hone, htwo⟩ : ∃ w, (world Unit).run (.fresh Unit) askVersion = some w ∧
      w.servers 1 = some ⟨RBTRACED_DFT_PID_FILE, false, .locked 0 .truncate⟩ ∧
      w.servers 2 = some ⟨RBTRACED_DFT_PID_FILE, false, .pidUnlink none⟩ :=
    ⟨_, rfl, rfl, congrArg some (by decide)⟩
  obtain ⟨w₁, hw₁⟩ : ∃ w₁, (world Unit).step w (.server 2 true) = some w₁ :=
    ⟨_, Option.map_eq_some_iff.2 ⟨_, htwo, rfl⟩⟩
  have hes : (world Unit).Guarded World.UnlinksAlone (.fresh Unit) askVersion :=
    ((world Unit).guarded_append rfl).2 ⟨startOne_unlinksAlone, trivial, fun _ _ ↦ trivial⟩
  have hunsafe := (not_congr (unlink_safe_iff hes hrun htwo rfl hw₁)).2 fun h ↦
    h 1 _ (by decide) hone ⟨rfl, trivial⟩
  push Not at hunsafe
  obtain ⟨es', w', -, hrun', hex⟩ := hunsafe
  exact ⟨w, w₁, es', w', hrun, hw₁, hrun', hex⟩

end Rbtrace
