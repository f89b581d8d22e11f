import Rbtrace.Lib.Getopt
import Rbtrace.Lib.Machine
import Rbtrace.Print

/-!
# Daemons that start and stop

`main` and `create_pid_file` of `rbtraced.c`, with what `rbtrace_daemon_init` and
`rbtrace_daemon_exit` do to the names of the shared memory and of the semaphore, and
`rbtrace_init` of a client, each cut into its system calls.  Any number of processes take
turns, and any of them can be killed at any moment.

A daemon locks its pid file, and whoever leaves `main` by its end unlinks the pid file, also
one that was only asked for its version and never had the lock.
-/

namespace Rbtrace

open Getopt

/-! ## One process -/

/-- The work of a daemon that has the lock: what it does next. -/
inductive Work where
  /-- `ftruncate` of the pid file. -/
  | truncate
  /-- `write` of the pid; then the signal handlers are installed. -/
  | write
  /-- `rbtrace_daemon_init`: the names of an earlier run are removed. -/
  | shmUnlink
  | semUnlink
  | shmOpen
  /-- `ftruncate` and `mmap` of the shared memory. -/
  | shmMap (shm : Nat)
  | semOpen (shm : Nat)
  | pthreadCreate (shm sem : Nat)
  /-- The loop of `main`. -/
  | serve (shm sem : Nat)
  /-- `rbtrace_globals_cleanup(true)`: first the semaphore. -/
  | cleanupSem
  | cleanupShm
deriving DecidableEq

/-- Where a process is, with the inode of the pid file it has open. -/
inductive ServerPc where
  | semInit
  | pidOpen
  | pidLock (fd : Nat)
  | locked (fd : Nat) (work : Work)
  /-- The end of `main`. -/
  | pidUnlink (fd : Option Nat)
  | leave
deriving DecidableEq

/-- A `rbtraced` process. -/
structure Server where
  pidfile : CStr
  terminate : Bool
  pc : ServerPc
deriving DecidableEq

/-- `RBTRACED_DFT_PID_FILE`. -/
def RBTRACED_DFT_PID_FILE : CStr :=
  [114, 98, 116, 114, 97, 99, 101, 100, 46, 112, 105, 100]

/-- `"dhp:l:v"`. -/
def rbtracedOptstring : CStr := [100, 104, 112, 58, 108, 58, 118]

/-- The loop over the options, from a pid file: the pid file, and whether `main` goes on. -/
def rbtracedOptions : List Found → CStr → CStr × Bool
  | [], pidfile => (pidfile, true)
  | .opt 112 (some optarg) :: found, _ => rbtracedOptions found optarg
  | .opt 100 none :: found, pidfile => rbtracedOptions found pidfile
  | .opt 108 (some _) :: found, pidfile => rbtracedOptions found pidfile
  | _ :: _, pidfile => (pidfile, false)

/-- A process that has read its options. -/
def Server.start (args : List CStr) : Server :=
  let opts := rbtracedOptions (options rbtracedOptstring args) RBTRACED_DFT_PID_FILE
  ⟨opts.1, false, if opts.2 then .semInit else .pidUnlink none⟩

/-- What the processes share: the pid files by name, with the texts and the locks of their
inodes, and the names of the shared memory and of the semaphore.  What is made gets a new
number. -/
structure Host where
  files : CStr → Option Nat
  text : Nat → CStr
  locks : Nat → Option Nat
  shm : Option Nat
  sem : Option Nat
  next : Nat

/-- `sprintf(buf, "%d\n", getpid())`. -/
def pidText (pid : Nat) : CStr := printfInt 0 pid ++ [10]

/-- Where a process goes after a step; `none` if it is gone. -/
abbrev Step := Host × Option ServerPc

/-- A call of the daemon that has the lock; `ok` is whether it succeeds. -/
def Work.step (pid : Nat) (terminate ok : Bool) (fd : Nat) (h : Host) : Work → Step
  | .truncate =>
      if ok then ({ h with text := Function.update h.text fd [] }, some (.locked fd .write))
      else (h, none)
  | .write =>
      -- what `write` returns is not looked at
      (if ok then { h with text := Function.update h.text fd (pidText pid) } else h,
        some (.locked fd .shmUnlink))
  | .shmUnlink => ({ h with shm := none }, some (.locked fd .semUnlink))
  | .semUnlink => ({ h with sem := none }, some (.locked fd .shmOpen))
  | .shmOpen =>
      if ok ∧ h.shm = none then
        ({ h with shm := some h.next, next := h.next + 1 }, some (.locked fd (.shmMap h.next)))
      else (h, some (.pidUnlink (some fd)))
  | .shmMap shm =>
      (h, some (.locked fd (if ok then .semOpen shm else .cleanupShm)))
  | .semOpen shm =>
      if ok ∧ h.sem = none then
        ({ h with sem := some h.next, next := h.next + 1 },
          some (.locked fd (.pthreadCreate shm h.next)))
      else (h, some (.locked fd .cleanupShm))
  | .pthreadCreate shm sem =>
      (h, some (.locked fd (if ok then .serve shm sem else .cleanupSem)))
  | .serve shm sem => (h, some (.locked fd (if terminate then .cleanupSem else .serve shm sem)))
  | .cleanupSem => ({ h with sem := none }, some (.locked fd .cleanupShm))
  | .cleanupShm => ({ h with shm := none }, some (.pidUnlink (some fd)))

/-- The next system call of a process. -/
def Server.step (pid : Nat) (ok : Bool) (h : Host) (s : Server) : Step :=
  match s.pc with
  | .semInit => (h, some (if ok then .pidOpen else .pidUnlink none))
  | .pidOpen =>
      if ok then
        match h.files s.pidfile with
        | some fd => (h, some (.pidLock fd))
        | none =>
            ({ h with
                files := Function.update h.files s.pidfile (some h.next)
                text := Function.update h.text h.next []
                next := h.next + 1 }, some (.pidLock h.next))
      else (h, none)
  | .pidLock fd =>
      if ok ∧ h.locks fd = none then
        ({ h with locks := Function.update h.locks fd (some pid) }, some (.locked fd .truncate))
      else (h, none)
  | .locked fd work => work.step pid s.terminate ok fd h
  | .pidUnlink _ =>
      (if ok then { h with files := Function.update h.files s.pidfile none } else h, some .leave)
  | .leave => (h, none)

/-- The locks of a process that is gone are free. -/
def Host.release (h : Host) (pid : Nat) : Host :=
  { h with locks := fun fd ↦ if h.locks fd = some pid then none else h.locks fd }

/-- The handlers for `SIGINT`, `SIGTERM` and `SIGQUIT` are installed. -/
def ServerPc.handles : ServerPc → Bool
  | .semInit | .pidOpen | .pidLock _ | .locked _ .truncate | .locked _ .write => false
  | .pidUnlink none => false
  | .locked _ _ | .pidUnlink (some _) | .leave => true

/-- Where a process is in `rbtrace_init`, with what it has opened. -/
inductive InitPc where
  | shmOpen
  | mmap (shm : Nat)
  | semOpen (shm : Nat)
  | attached (shm sem : Nat)
deriving DecidableEq

/-- The next system call of `rbtrace_init`; `none` if it fails. -/
def InitPc.step (ok : Bool) (h : Host) : InitPc → Option InitPc
  | .shmOpen => if ok then h.shm.map .mmap else none
  | .mmap shm => if ok then some (.semOpen shm) else none
  | .semOpen shm => if ok then h.sem.map (.attached shm) else none
  | .attached shm sem => some (.attached shm sem)

/-! ## All processes -/

/-- The daemons, by pid, and the clients. -/
structure World (κ : Type) extends Host where
  servers : Nat → Option Server
  clients : κ → Option InitPc

/-- One step. -/
inductive WorldEvent (κ : Type) where
  /-- `rbtraced` is started. -/
  | start (pid : Nat) (args : List CStr)
  /-- A daemon makes its next system call. -/
  | server (pid : Nat) (ok : Bool)
  /-- A daemon is asked to terminate. -/
  | signal (pid : Nat)
  | kill (pid : Nat)
  /-- A client enters `rbtrace_init`. -/
  | init (k : κ)
  /-- A client makes its next system call. -/
  | client (k : κ) (ok : Bool)
  /-- A client ends. -/
  | exit (k : κ)

section

variable {κ : Type}

/-- A daemon is where a step has taken it. -/
def World.put (w : World κ) (pid : Nat) (s : Server) (r : Step) : World κ :=
  match r with
  | (h, some pc) =>
      { w with toHost := h, servers := Function.update w.servers pid (some { s with pc := pc }) }
  | (h, none) => { w with toHost := h.release pid, servers := Function.update w.servers pid none }

/-- The state after one event; `none` if it cannot happen. -/
def World.step [DecidableEq κ] (w : World κ) : WorldEvent κ → Option (World κ)
  | .start pid args =>
      match w.servers pid with
      | some _ => none
      | none => some { w with servers := Function.update w.servers pid (some (.start args)) }
  | .server pid ok => (w.servers pid).map fun s ↦ w.put pid s (s.step pid ok w.toHost)
  | .signal pid => (w.servers pid).map fun s ↦
      if s.pc.handles then
        { w with servers := Function.update w.servers pid (some { s with terminate := true }) }
      else w.put pid s (w.toHost, none)
  | .kill pid => (w.servers pid).map fun s ↦ w.put pid s (w.toHost, none)
  | .init k =>
      match w.clients k with
      | some _ => none
      | none => some { w with clients := Function.update w.clients k (some .shmOpen) }
  | .client k ok => (w.clients k).map fun pc ↦
      { w with clients := Function.update w.clients k (pc.step ok w.toHost) }
  | .exit k => (w.clients k).map fun _ ↦ { w with clients := Function.update w.clients k none }

/-- Daemons and clients on one host. -/
def world (κ : Type) [DecidableEq κ] : Machine (World κ) (WorldEvent κ) := ⟨World.step⟩

/-- A host on which nothing runs and nothing has been left behind. -/
def World.fresh (κ : Type) : World κ :=
  ⟨⟨fun _ ↦ none, fun _ ↦ [], fun _ ↦ none, none, none, 0⟩, fun _ ↦ none, fun _ ↦ none⟩

end

end Rbtrace
