import Lrun.Platform

/-!
# The configuration

The process-wide `config` record of `lrun.cc` and the `Cgroup::spawn_arg` it
holds, with the defaults of `init_default_config`. Pointers become indices:
`arg.args` is the offset of the command in `argv`. Maps become association
lists in insertion order; `std::set` becomes a list.
-/

namespace Lrun

/-- `seccomp::action_t`. -/
inductive SyscallAction
  | defaultEperm
  | othersEperm
  deriving DecidableEq, Repr

/-- The `RLIMIT_*` resources lrun sets. -/
inductive Rlimit
  | nofile | nproc | rtprio | core | fsize | nice | stack | cpu
  deriving DecidableEq, Repr

/-- The `uts` overrides of `spawn_arg`. -/
structure Uts where
  nodename : String := ""
  domainname : String := ""
  sysname : String := ""
  release : String := ""
  version : String := ""
  deriving DecidableEq, Repr

/-- `Cgroup::spawn_arg`. -/
structure SpawnArg where
  args : ℕ
  argc : ℤ
  nice : ℤ
  uid : ℕ
  gid : ℕ
  umask : ℕ
  chrootPath : String
  chdirPath : String
  remountDev : Bool
  resetEnv : Bool
  noNewPrivs : Bool
  cloneFlags : ℕ
  rlimits : Rlimit → Option ℕ
  syscallAction : SyscallAction
  syscallList : String
  uts : Uts
  remountList : List (String × ℕ)
  bindfsList : List (String × String)
  bindfsDestSet : List String
  tmpfsList : List (String × ℤ)
  envList : List (String × String)
  keepFds : List ℤ
  cmdList : List String

/-- The static `config` record (without `active_cgroup`, set by `create_cgroup`). -/
structure Config where
  arg : SpawnArg
  cpuTimeLimit : ℚ
  realTimeLimit : ℚ
  memoryLimit : ℤ
  outputLimit : ℤ
  enableDevicesWhitelist : Bool
  enableNetwork : Bool
  enablePidns : Bool
  passExitcode : Bool
  interval : ℕ
  cgname : String
  groups : List ℕ
  cgroupOptions : List ((ℤ × String) × String)

def cloneNewuts : ℕ := 0x04000000
def msRdonly : ℕ := 1

/-- `map[key] = value` on an association list. -/
def assign {K V : Type} [DecidableEq K] (m : List (K × V)) (key : K) (value : V) : List (K × V) :=
  if m.any (·.1 = key) then m.map fun p => if p.1 = key then (key, value) else p
  else m ++ [(key, value)]

/-- `map[key] |= flags`, a missing key starting from 0. -/
def orFlags (m : List (String × ℕ)) (key : String) (flags : ℕ) : List (String × ℕ) :=
  assign m key (((m.find? (·.1 = key)).map (·.2)).getD 0 ||| flags)

/-- `set.insert(x)`. -/
def insertSet {α : Type} [DecidableEq α] (s : List α) (x : α) : List α :=
  if x ∈ s then s else s ++ [x]

/-- `init_default_config()`, for the real uid and gid of the caller. -/
def initDefaultConfig (uid gid : ℕ) : Config where
  arg :=
    { args := 0, argc := 0, nice := 0, uid := uid, gid := gid, umask := 0o22
      chrootPath := "", chdirPath := "", remountDev := false, resetEnv := false
      noNewPrivs := true, cloneFlags := 0
      rlimits := fun
        | .nofile => some 256 | .nproc => some 2048 | .rtprio => some 0 | .core => some 0
        | _ => none
      syscallAction := .othersEperm, syscallList := "", uts := {}
      remountList := [], bindfsList := [], bindfsDestSet := [], tmpfsList := []
      envList := [], keepFds := [], cmdList := [] }
  cpuTimeLimit := -1
  realTimeLimit := -1
  memoryLimit := -1
  outputLimit := -1
  enableDevicesWhitelist := false
  enableNetwork := true
  enablePidns := true
  passExitcode := false
  interval := 20000
  cgname := ""
  groups := []
  cgroupOptions := []

end Lrun
