import Lrun.Platform

/-!
# The child, its cgroup and the kernel

What the supervisor observes of the world: the child process, the other tasks
of the cgroup, the cgroup's accounting counters and the clock. The child runs,
terminates with a wait status and stays a zombie until lrun reaps it. A zombie
is no longer a task of the cgroup, and `/proc/<pid>/status` may or may not show
it as `Z` when lrun looks. The child's main thread may also exit while other
threads of the child run on: `/proc/<pid>/status` then reads `Z` for the
thread-group leader, while `waitpid` does not report the process, which is
still running. The counters and the clock only grow.

`Cgroup` lives in `cgroup.cc`, which is not part of the source. `killall` and
`destroy` are modelled from the specification: killall sends SIGKILL to every
task until the group is empty; destroy kills all tasks and removes the group.
-/

namespace Lrun

/-- The child lrun spawns. -/
inductive Child
  | unborn
  | running
  | zombie (stat : ℕ)
  | reaped (stat : ℕ)
  deriving DecidableEq, Repr

/-- What the kernel holds for lrun. -/
structure World where
  child : Child
  /-- Tasks of the cgroup other than the child. -/
  others : Bool
  /-- Whether `/proc/<pid>/status` reads `Z` for a terminated child. -/
  showsZombie : Bool
  /-- The child's main thread has exited while other threads of the child run. -/
  leaderExited : Bool
  /-- `cpuacct.usage`, in seconds. -/
  cpu : ℚ
  /-- `memory.max_usage_in_bytes`. -/
  memoryPeak : ℤ
  /-- The bytes the cgroup's tasks wrote, as `update_output_count` sums them. -/
  output : ℤ
  /-- `now()`. -/
  clock : ℚ
  /-- The group's directories exist. -/
  cgroup : Bool

/-- A status `waitpid` reports for a terminated child. -/
def Terminated (stat : ℕ) : Prop := wifexited stat = true ∨ wifsignaled stat = true

/-- The world after `create_cgroup`: no child yet, an empty group that exists,
counters and clock not negative. -/
def World.Initial (w : World) : Prop :=
  w.child = .unborn ∧ w.others = false ∧ w.cgroup = true ∧ 0 ≤ w.cpu ∧ 0 ≤ w.memoryPeak ∧
    0 ≤ w.output ∧ 0 ≤ w.clock

/-- A world as `create_cgroup` leaves it, every counter and the clock at zero. -/
def World.fresh : World := ⟨.unborn, false, false, false, 0, 0, 0, 0, true⟩

theorem World.fresh_initial : World.fresh.Initial := ⟨rfl, rfl, rfl, le_rfl, le_rfl, le_rfl, le_rfl⟩

/-- What happens outside lrun between two of its steps. -/
inductive EnvStep : World → World → Prop
  /-- The child terminates with wait status `stat`. -/
  | exit {w : World} (stat : ℕ) : w.child = .running → Terminated stat →
      EnvStep w { w with child := .zombie stat }
  /-- The child starts other tasks in the group. -/
  | fork {w : World} : w.child = .running → EnvStep w { w with others := true }
  /-- The other tasks exit. -/
  | othersExit {w : World} : EnvStep w { w with others := false }
  /-- `/proc` shows a zombie as `Z`, or not. -/
  | proc {w : World} (b : Bool) : EnvStep w { w with showsZombie := b }
  /-- The child's main thread exits while its other threads run on. -/
  | leaderExit {w : World} : w.child = .running → EnvStep w { w with leaderExited := true }
  /-- Time passes and the counters grow. -/
  | tick {w w' : World} : w'.child = w.child → w'.others = w.others →
      w'.showsZombie = w.showsZombie → w'.leaderExited = w.leaderExited → w'.cgroup = w.cgroup →
      w.cpu ≤ w'.cpu → w.memoryPeak ≤ w'.memoryPeak → w.output ≤ w'.output →
      w.clock ≤ w'.clock → EnvStep w w'

/-- `waitpid(pid, &stat, WNOHANG)`: the value returned, the status stored and
the world after. A zombie is reaped; a running child gives 0 and leaves the
status alone; otherwise -1 with `ECHILD`. -/
def waitpid (w : World) (pid : ℤ) (stat : ℕ) : ℤ × ℕ × World :=
  match w.child with
  | .zombie st => (pid, st, { w with child := .reaped st })
  | .running => (0, stat, w)
  | _ => (-1, stat, w)

/-- `get_process_state(pid)`: the `State:` letter of `/proc/<pid>/status`, or 0
when the file cannot be read. A running child whose main thread has exited
reads `Z`, the state of its thread-group leader. -/
def getProcessState (w : World) : Char :=
  match w.child with
  | .running => if w.leaderExited then 'Z' else 'R'
  | .zombie _ => if w.showsZombie then 'Z' else Char.ofNat 0
  | _ => Char.ofNat 0

/-- `cg.empty()`: no task left in the group. -/
def cgEmpty (w : World) : Bool := w.child ≠ .running && !w.others

/-- Modelled from the spec: `Cgroup::killall` (in `cgroup.cc`, not part of the
source) sends SIGKILL to every task until the group is empty. -/
def killall (w : World) : World :=
  { w with child := if w.child = .running then .zombie sigkill else w.child, others := false }

/-- Modelled from the spec: `Cgroup::destroy` kills all tasks, then removes the
group's directory in every subsystem. -/
def destroy (w : World) : World := { killall w with cgroup := false }

/-- The counters and the clock only grow. -/
theorem EnvStep.mono {w w' : World} (h : EnvStep w w') :
    w.cpu ≤ w'.cpu ∧ w.memoryPeak ≤ w'.memoryPeak ∧ w.output ≤ w'.output ∧ w.clock ≤ w'.clock := by
  cases h <;> simp_all

/-- The tasks of the group use CPU time. -/
theorem EnvStep.useCpu {w : World} {t : ℚ} (h : w.cpu ≤ t) : EnvStep w { w with cpu := t } :=
  .tick rfl rfl rfl rfl rfl h le_rfl le_rfl le_rfl

/-- `waitpid` touches only the child. -/
theorem waitpid_world (w : World) (pid : ℤ) (stat : ℕ) :
    ∃ c, (waitpid w pid stat).2.2 = { w with child := c } := by
  unfold waitpid
  split
  · exact ⟨_, rfl⟩
  all_goals exact ⟨w.child, rfl⟩

/-- `waitpid` leaves a running child running and any other child not running. -/
@[simp] theorem waitpid_running (w : World) (pid : ℤ) (stat : ℕ) :
    (waitpid w pid stat).2.2.child = .running ↔ w.child = .running := by
  unfold waitpid
  split <;> simp_all

@[simp] theorem waitpid_others (w : World) (pid : ℤ) (stat : ℕ) :
    (waitpid w pid stat).2.2.others = w.others := by
  unfold waitpid
  split <;> rfl

/-- `killall` and `destroy` touch only the tasks and the directories. -/
theorem killall_counters (w : World) :
    (killall w).cpu = w.cpu ∧ (killall w).memoryPeak = w.memoryPeak ∧
      (killall w).output = w.output ∧ (killall w).clock = w.clock := ⟨rfl, rfl, rfl, rfl⟩

end Lrun
