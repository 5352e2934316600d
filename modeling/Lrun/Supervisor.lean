import Lrun.Kernel
import Lrun.CheckConfig

/-!
# The supervisor

`main` from the moment `create_cgroup` has made the cgroup: it takes the
cgroup lock, runs `setup_cgroup`, and `run_command` spawns the child, installs
the signal handlers and watches the child. Each iteration of the monitoring
loop checks `signal_triggered`, tries to reap the child, samples the CPU time,
the clock and the memory peak against their limits, looks for a zombie,
samples the output, asks whether the group is empty and sleeps. After the loop
the final samples are clamped to the limits they reached, the record is
formatted, the two times with `%.3f`, and written to fd 3, and `clean_cg_exit`
destroys or empties the cgroup and exits.

Every statement is one step of lrun. Between any two of them the child and
the kernel may move (`EnvStep`) and a signal may be delivered, so the runs of
`Step` are all the interleavings. A signal the handlers catch only sets
`signal_triggered` once they are installed, and ends lrun before; any other
signal whose default action ends a process ends lrun on the spot, handlers or
not. The kernel's answers to `setup_cgroup`, `fcntl` and `cg.spawn` are the
arguments of their steps.
-/

namespace Lrun

/-- The limits `exceeded_limit` can name: `CPU_TIME`, `REAL_TIME`, `MEMORY` and
`OUTPUT`. The record's `Option Limit` is `none` for an empty one. -/
inductive Limit
  | cpuTime | realTime | memory | output
  deriving DecidableEq, Repr

/-- The values of a status record: `MEMORY`, `CPUTIME`, `REALTIME`,
`SIGNALED`, `EXITCODE`, `TERMSIG` and `EXCEED`. -/
structure Record where
  memory : ℤ
  cputime : ℚ
  realtime : ℚ
  signaled : ℕ
  exitcode : ℕ
  termsig : ℕ
  exceed : Option Limit
  deriving DecidableEq, Repr

/-- Where lrun is, from the cgroup lock to its exit. -/
inductive Pc
  | lock | setup | cloexec | spawn | handlers | start
  | checkSignal | reap | checkCpu | checkReal | checkMemory | probe | reapZombie
  | checkOutput | checkEmpty | sleep
  | collectMemory | collectCpu | collectOutput | collectReal | report
  | cleanup (code : ℤ)
  | exited (code : ℤ)
  | killed (sig : ℕ)
  deriving DecidableEq, Repr

/-- lrun's own state: the program counter, `signal_triggered`, whether the
handlers are installed, and the locals of `run_command`. -/
structure Sup where
  pc : Pc
  signal : ℕ
  handlers : Bool
  pid : ℤ
  stat : ℕ
  exceeded : Option Limit
  running : Bool
  startTime : ℚ
  deadline : ℚ
  memoryUsage : ℤ
  cpuTimeUsage : ℚ
  realTimeUsage : ℚ
  /-- What lrun wrote to fd 3, the times as `%.3f` printed them. -/
  record : Option Record

structure Sys where
  sup : Sup
  world : World

/-- lrun as `create_cgroup` leaves it. -/
def initSup : Sup where
  pc := .lock
  signal := 0
  handlers := false
  pid := 0
  stat := 0
  exceeded := none
  running := true
  startTime := 0
  deadline := 0
  memoryUsage := 0
  cpuTimeUsage := 0
  realTimeUsage := 0
  record := none

def Sys.goto (s : Sys) (pc : Pc) : Sys := { s with sup.pc := pc }

@[simp] theorem Sys.goto_pc (s : Sys) (pc : Pc) : (s.goto pc).sup.pc = pc := rfl

/-- Which writes of `setup_cgroup` the kernel refuses. -/
structure SetupAnswers where
  devices : Bool
  memory : Bool
  option : Bool
  reset : Bool

/-- The writes of `setup_cgroup()` before its `cg.killall()`: the exit code of
the first refused one. -/
def setupWrites (cfg : Config) (a : SetupAnswers) : Option ℤ :=
  if cfg.enableDevicesWhitelist ∧ a.devices then some 1
  else if cfg.memoryLimit > 0 ∧ a.memory then some 2
  else if cfg.cgroupOptions ≠ [] ∧ a.option then some 7
  else none

/-- `setup_cgroup()`: after its writes it kills whatever the group holds and
resets the CPU and memory counters. -/
def setupStep (cfg : Config) (a : SetupAnswers) (s : Sys) : Sys :=
  match setupWrites cfg a with
  | some code => s.goto (.cleanup code)
  | none =>
    if a.reset then { s with world := killall s.world, sup.pc := .cleanup 4 }
    else { s with world := { killall s.world with cpu := 0, memoryPeak := 0 }, sup.pc := .cloexec }

theorem setupStep_accepted_pc (cfg : Config) (s : Sys) :
    (setupStep cfg ⟨false, false, false, false⟩ s).sup.pc = .cloexec := by
  simp [setupStep, setupWrites]

/-- `fcntl(3, F_SETFD, FD_CLOEXEC)`, refused with an error other than `EBADF`. -/
def cloexecStep (refused : Bool) (s : Sys) : Sys :=
  if refused then s.goto (.cleanup 5) else s.goto .spawn

/-- `pid = cg.spawn(config.arg)`. -/
def spawnStep (pid : ℤ) (s : Sys) : Sys :=
  if pid ≤ 0 then s.goto (.cleanup (10 - pid))
  else { s with sup.pid := pid, sup.pc := .handlers, world.child := .running }

/-- A limit test of the loop: on a hit, name the limit and break. -/
def limitCheck (hit : Prop) [Decidable hit] (l : Limit) (next : Pc) (s : Sys) : Sys :=
  if hit then { s with sup.exceeded := some l, sup.pc := .collectMemory } else s.goto next

/-- The values `run_command` formats into `status_report`: `memory_usage`,
`cpu_time_usage`, `real_time_usage`, the three fields of `stat` and
`exceeded_limit`. -/
def Sup.collected (p : Sup) : Record where
  memory := p.memoryUsage
  cputime := p.cpuTimeUsage
  realtime := p.realTimeUsage
  signaled := if wifsignaled p.stat then 1 else 0
  exitcode := wexitstatus p.stat
  termsig := wtermsig p.stat
  exceed := p.exceeded

/-- What `snprintf` writes of a record: `%lld`, `%d` and `%s` print their
values as they are, `%.3f` rounds the two times to thousandths. -/
def Record.printed (r : Record) : Record :=
  { r with cputime := fixed3 r.cputime, realtime := fixed3 r.realtime }

/-- The record `run_command` writes to fd 3. -/
def Sup.report (p : Sup) : Record := p.collected.printed

@[simp] theorem Sup.report_signaled (p : Sup) :
    p.report.signaled = if wifsignaled p.stat then 1 else 0 := rfl
@[simp] theorem Sup.report_exitcode (p : Sup) : p.report.exitcode = wexitstatus p.stat := rfl
@[simp] theorem Sup.report_termsig (p : Sup) : p.report.termsig = wtermsig p.stat := rfl
/-- `clean_cg_exit(cg, code)` before its `exit(code)`: destroy a cgroup lrun
named itself, only kill the tasks of one given with `--cgname`. -/
def cleanCgExit (cfg : Config) (w : World) : World :=
  if cfg.cgname = "" then destroy w else killall w

theorem cleanCgExit_counters (cfg : Config) (w : World) :
    (cleanCgExit cfg w).cpu = w.cpu ∧ (cleanCgExit cfg w).memoryPeak = w.memoryPeak ∧
      (cleanCgExit cfg w).output = w.output ∧ (cleanCgExit cfg w).clock = w.clock := by
  unfold cleanCgExit
  split <;> exact killall_counters w

/-- One statement of `main`, `run_command` or `clean_cg_exit`. -/
def exec (cfg : Config) (s : Sys) : Sys :=
  match s.sup.pc with
  | .lock => s.goto .setup
  | .handlers => { s with sup.handlers := true, sup.pc := .start }
  | .start =>
      { s with sup.startTime := s.world.clock,
               sup.deadline :=
                 if cfg.realTimeLimit > 0 then s.world.clock + cfg.realTimeLimit else -1,
               sup.pc := .checkSignal }
  | .checkSignal => if s.sup.signal ≠ 0 then s.goto (.cleanup 4) else s.goto .reap
  | .reap =>
      let r := waitpid s.world s.sup.pid s.sup.stat
      if r.1 = s.sup.pid ∧ (wifexited r.2.1 ∨ wifsignaled r.2.1) then
        { s with sup.stat := r.2.1, world := r.2.2, sup.pc := .collectMemory }
      else { s with sup.stat := 0, world := r.2.2, sup.pc := .checkCpu }
  | .checkCpu =>
      limitCheck (cfg.cpuTimeLimit > 0 ∧ s.world.cpu ≥ cfg.cpuTimeLimit) .cpuTime .checkReal s
  | .checkReal =>
      limitCheck (s.sup.deadline > 0 ∧ s.world.clock ≥ s.sup.deadline) .realTime .checkMemory s
  | .checkMemory =>
      limitCheck (s.world.memoryPeak ≥ cfg.memoryLimit ∧ cfg.memoryLimit > 0) .memory .probe s
  | .probe =>
      if getProcessState s.world = 'Z' then { s with sup.running := false, sup.pc := .reapZombie }
      else s.goto .checkOutput
  | .reapZombie =>
      let r := waitpid s.world s.sup.pid s.sup.stat
      if r.1 = -1 then { s with sup.stat := r.2.1, world := r.2.2, sup.pc := .cleanup 6 }
      else { s with sup.stat := r.2.1, world := r.2.2, sup.pc := .checkOutput }
  | .checkOutput =>
      if cfg.outputLimit > 0 then
        limitCheck (s.world.output > cfg.outputLimit) .output .checkEmpty s
      else s.goto .checkEmpty
  | .checkEmpty =>
      if cgEmpty s.world then { s with sup.running := false, sup.pc := .sleep }
      else s.goto .sleep
  | .sleep => if s.sup.running then s.goto .checkSignal else s.goto .collectMemory
  | .collectMemory =>
      if cfg.memoryLimit > 0 ∧ s.world.memoryPeak ≥ cfg.memoryLimit then
        { s with sup.memoryUsage := cfg.memoryLimit, sup.exceeded := some .memory,
                 sup.pc := .collectCpu }
      else { s with sup.memoryUsage := s.world.memoryPeak, sup.pc := .collectCpu }
  | .collectCpu =>
      if (wifsignaled s.sup.stat ∧ wtermsig s.sup.stat = sigxcpu) ∨
          (cfg.cpuTimeLimit > 0 ∧ s.world.cpu ≥ cfg.cpuTimeLimit) then
        { s with sup.cpuTimeUsage := cfg.cpuTimeLimit, sup.exceeded := some .cpuTime,
                 sup.pc := .collectOutput }
      else { s with sup.cpuTimeUsage := s.world.cpu, sup.pc := .collectOutput }
  | .collectOutput =>
      if wifsignaled s.sup.stat ∧ wtermsig s.sup.stat = sigxfsz then
        { s with sup.exceeded := some .output, sup.pc := .collectReal }
      else s.goto .collectReal
  | .collectReal =>
      if cfg.realTimeLimit > 0 ∧ s.world.clock - s.sup.startTime ≥ cfg.realTimeLimit then
        { s with sup.realTimeUsage := cfg.realTimeLimit, sup.exceeded := some .realTime,
                 sup.pc := .report }
      else { s with sup.realTimeUsage := s.world.clock - s.sup.startTime, sup.pc := .report }
  | .report =>
      { s with sup.record := some s.sup.report,
               sup.pc := .cleanup (if cfg.passExitcode then wexitstatus s.sup.stat else 0) }
  | .cleanup code => { s with world := cleanCgExit cfg s.world, sup.pc := .exited code }
  | .setup | .cloexec | .spawn | .exited _ | .killed _ => s

/-- `exec` leaves the world alone, except through `waitpid` and `clean_cg_exit`. -/
theorem exec_world (cfg : Config) (s : Sys) :
    (exec cfg s).world = s.world ∨ (exec cfg s).world = (waitpid s.world s.sup.pid s.sup.stat).2.2 ∨
      (exec cfg s).world = cleanCgExit cfg s.world := by
  cases hpc : s.sup.pc <;> simp only [exec, hpc, limitCheck, apply_ite Sys.world, Sys.goto, ite_self,
    true_or, or_true]

/-- The counters and the clock are the kernel's: no statement of lrun moves them. -/
theorem exec_counters (cfg : Config) (s : Sys) :
    (exec cfg s).world.cpu = s.world.cpu ∧ (exec cfg s).world.memoryPeak = s.world.memoryPeak ∧
      (exec cfg s).world.output = s.world.output ∧ (exec cfg s).world.clock = s.world.clock := by
  rcases exec_world cfg s with h | h | h <;> rw [h]
  · exact ⟨rfl, rfl, rfl, rfl⟩
  · obtain ⟨c, hc⟩ := waitpid_world s.world s.sup.pid s.sup.stat
    rw [hc]
    exact ⟨rfl, rfl, rfl, rfl⟩
  · exact cleanCgExit_counters cfg s.world

/-- Only `start` sets the deadline. -/
theorem exec_deadline (cfg : Config) {s : Sys} (h : s.sup.pc ≠ .start) :
    (exec cfg s).sup.deadline = s.sup.deadline := by
  cases hpc : s.sup.pc <;> first
    | exact absurd hpc h
    | simp only [exec, hpc, limitCheck, apply_ite Sys.sup, apply_ite Sup.deadline, Sys.goto, ite_self]

/-- The control flow of lrun: the statements `exec` may pass to from each one.
It leaves the kernel's answers (`setup`, `cloexec`, `spawn`) and the ends where
they are. -/
def Pc.flow : Pc → Pc → Prop
  | .lock, p => p = .setup
  | .handlers, p => p = .start
  | .start, p => p = .checkSignal
  | .checkSignal, p => p = .cleanup 4 ∨ p = .reap
  | .reap, p => p = .collectMemory ∨ p = .checkCpu
  | .checkCpu, p => p = .collectMemory ∨ p = .checkReal
  | .checkReal, p => p = .collectMemory ∨ p = .checkMemory
  | .checkMemory, p => p = .collectMemory ∨ p = .probe
  | .probe, p => p = .reapZombie ∨ p = .checkOutput
  | .reapZombie, p => p = .cleanup 6 ∨ p = .checkOutput
  | .checkOutput, p => p = .collectMemory ∨ p = .checkEmpty
  | .checkEmpty, p => p = .sleep
  | .sleep, p => p = .checkSignal ∨ p = .collectMemory
  | .collectMemory, p => p = .collectCpu
  | .collectCpu, p => p = .collectOutput
  | .collectOutput, p => p = .collectReal
  | .collectReal, p => p = .report
  | .report, p => ∃ code, p = .cleanup code
  | .cleanup code, p => p = .exited code
  | .setup, p => p = .setup
  | .cloexec, p => p = .cloexec
  | .spawn, p => p = .spawn
  | .exited code, p => p = .exited code
  | .killed sig, p => p = .killed sig

/-- Only `report` writes the record. -/
theorem exec_record (cfg : Config) {s : Sys} (h : s.sup.pc ≠ .report) :
    (exec cfg s).sup.record = s.sup.record := by
  cases hpc : s.sup.pc <;> first
    | exact absurd hpc h
    | simp only [exec, hpc, limitCheck, apply_ite Sys.sup, apply_ite Sup.record, Sys.goto, ite_self]

theorem exec_flow (cfg : Config) (s : Sys) : s.sup.pc.flow (exec cfg s).sup.pc := by
  cases hpc : s.sup.pc <;>
    simp only [exec, hpc, limitCheck, apply_ite Sys.sup, apply_ite Sup.pc, Sys.goto] <;>
    (try split) <;> (try split) <;> first | exact .inl rfl | exact .inr rfl | exact ⟨_, rfl⟩ | rfl

/-- The signals `setup_signal_handlers` catches; the default action of each ends lrun. -/
def Terminating (sig : ℕ) : Prop :=
  sig = sighup ∨ sig = sigint ∨ sig = sigterm ∨ sig = sigabrt ∨ sig = sigquit ∨ sig = sigfpe ∨
    sig = sigill ∨ sig = sigtrap

/-- The signals whose default action ends a process on Linux: 1 to 16,
SIGXCPU to SIGPROF, SIGIO to SIGSYS and the real-time signals. -/
def DefaultFatal (sig : ℕ) : Prop :=
  1 ≤ sig ∧ sig ≤ 16 ∨ 24 ≤ sig ∧ sig ≤ 27 ∨ 29 ≤ sig ∧ sig ≤ 31 ∨ 34 ≤ sig ∧ sig ≤ 64

/-- A signal that ends lrun on the spot: its default action ends a process,
`setup_signal_handlers` does not catch it, and once the handlers are installed
it is not one of the two they ignore, SIGPIPE and SIGALRM. SIGKILL, SIGUSR1,
SIGSEGV and SIGXCPU are such signals. -/
def Kills (handlers : Bool) (sig : ℕ) : Prop :=
  DefaultFatal sig ∧ ¬Terminating sig ∧ (handlers = true → sig ≠ sigpipe ∧ sig ≠ sigalrm)

def Pc.live : Pc → Bool
  | .exited _ | .killed _ => false
  | _ => true

/-- The statements `exec` runs; the others wait for the kernel's answer. -/
def Pc.byExec : Pc → Bool
  | .setup | .cloexec | .spawn | .exited _ | .killed _ => false
  | _ => true

/-- A signal `setup_signal_handlers` catches, delivered to lrun:
`signal_handler` records it once the handlers are installed; before, the
default action ends lrun. -/
def deliver (sig : ℕ) (s : Sys) : Sys :=
  if s.sup.handlers then { s with sup.signal := sig } else s.goto (.killed sig)

/-- One step of lrun, the kernel or a signal. -/
inductive Step (cfg : Config) : Sys → Sys → Prop
  | exec {s : Sys} : s.sup.pc.byExec → Step cfg s (exec cfg s)
  | setup {s : Sys} (a : SetupAnswers) : s.sup.pc = .setup → Step cfg s (setupStep cfg a s)
  | cloexec {s : Sys} (refused : Bool) : s.sup.pc = .cloexec → Step cfg s (cloexecStep refused s)
  | spawn {s : Sys} (pid : ℤ) : s.sup.pc = .spawn → Step cfg s (spawnStep pid s)
  | env {s : Sys} {w : World} : EnvStep s.world w → Step cfg s { s with world := w }
  | signal {s : Sys} (sig : ℕ) : Terminating sig → s.sup.pc.live → Step cfg s (deliver sig s)
  /-- A signal no handler catches ends lrun without `clean_cg_exit`. -/
  | kill {s : Sys} (sig : ℕ) : Kills s.sup.handlers sig → s.sup.pc.live →
      Step cfg s (s.goto (.killed sig))

def Reachable (cfg : Config) (s₀ s : Sys) : Prop := Relation.ReflTransGen (Step cfg) s₀ s

/-- `main` up to `create_cgroup`: `parse_cli_options` returns `cfg` for `argv`
and `check_config` lets it through, for a caller with real uid `uid` and real
gid `gid`. -/
def Launches (pf : Platform) (sc : Strconv) (fs : Fs) (uid gid : ℕ) (argv : List String)
    (cfg : Config) : Prop :=
  parseCliOptions pf sc argv (initDefaultConfig uid gid) = .ok cfg ∧ checkConfig fs uid gid cfg = .ok ()

/-- What `lrun ls` runs with, for a caller with uid and gid 1000. -/
def runConfig : Config := (initDefaultConfig 1000 1000).withCommand 1 2

/-- The start of a run in which every write of `setup_cgroup` succeeds and the
child gets pid 1: lrun is about to install its handlers. -/
theorem reachable_spawned (cfg : Config) (w : World) :
    Reachable cfg ⟨initSup, w⟩
      (spawnStep 1 (cloexecStep false (setupStep cfg ⟨false, false, false, false⟩
        (exec cfg ⟨initSup, w⟩)))) :=
  (((Relation.ReflTransGen.single (.exec rfl)).tail (.setup _ rfl)).tail
    (.cloexec _ (setupStep_accepted_pc _ _))).tail (.spawn _ (by
      rw [cloexecStep, if_neg Bool.false_ne_true]; rfl))

/-- `n` statements of lrun with nothing else happening in between. -/
def execN (cfg : Config) : ℕ → Sys → Sys
  | 0, s => s
  | n + 1, s => execN cfg n (exec cfg s)

theorem reachable_execN (cfg : Config) (s : Sys) :
    ∀ n, (∀ k < n, (execN cfg k s).sup.pc.byExec) → Reachable cfg s (execN cfg n s)
  | 0, _ => .refl
  | n + 1, h =>
    have hs : Step cfg s (exec cfg s) := .exec (h 0 n.succ_pos)
    .head hs (reachable_execN cfg (exec cfg s) n fun k hk => h (k + 1) (by omega))

end Lrun
