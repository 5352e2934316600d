import Lrun.Config

/-!
# Command-line parsing

`parse_cli_options` walks `argv` from index 1. A token that does not start
with `--` ends the options and starts the command; a bare `--` ends them and
the command starts after it. Every other token names an option: `REQUIRE_NARGV`
checks that its values are there, the `NEXT_*_ARG` macros read them, and the
option's branch stores them in the configuration. `--help`, `--help-syscalls`
and `--version` print and exit; an unknown option or a missing value exits
with status 1.

The offset and count of the command are written in three places: before the
loop, at the head of each iteration, and inside `REQUIRE_NARGV`. The branches
of the `if` chain all have one shape, so they are one table: the name tested,
the count `REQUIRE_NARGV` asks for, and what is stored.
-/

namespace Lrun

/-- The options of the `if` chain that take values (or, for `--debug` and
`--status`, none) and return to the loop. -/
inductive Opt
  | maxCpuTime | maxRealTime | maxMemory | maxOutput | maxNprocess | minNice | maxRtprio
  | maxNfile | maxStack | isolateProcess | basicDevices | remountDev | resetEnv | network
  | passExitcode | chroot | chdir | nice | umask | uid | gid | noNewPrivs | syscalls | group
  | interval | cgname | hostname | domainname | ostype | osrelease | osversion | remountRo
  | bindfs | bindfsRo | tmpfs | cgroupOption | env | fd | cmd | debug | status
  deriving DecidableEq, Repr

namespace Opt

/-- The name the branch compares `option` with. -/
def name : Opt → String
  | maxCpuTime => "max-cpu-time" | maxRealTime => "max-real-time" | maxMemory => "max-memory"
  | maxOutput => "max-output" | maxNprocess => "max-nprocess" | minNice => "min-nice"
  | maxRtprio => "max-rtprio" | maxNfile => "max-nfile" | maxStack => "max-stack"
  | isolateProcess => "isolate-process" | basicDevices => "basic-devices"
  | remountDev => "remount-dev" | resetEnv => "reset-env" | network => "network"
  | passExitcode => "pass-exitcode" | chroot => "chroot" | chdir => "chdir" | nice => "nice"
  | umask => "umask" | uid => "uid" | gid => "gid" | noNewPrivs => "no-new-privs"
  | syscalls => "syscalls" | group => "group" | interval => "interval" | cgname => "cgname"
  | hostname => "hostname" | domainname => "domainname" | ostype => "ostype"
  | osrelease => "osrelease" | osversion => "osversion" | remountRo => "remount-ro"
  | bindfs => "bindfs" | bindfsRo => "bindfs-ro" | tmpfs => "tmpfs"
  | cgroupOption => "cgroup-option" | env => "env" | fd => "fd" | cmd => "cmd"
  | debug => "debug" | status => "status"

/-- `--syscalls` is tested only with `seccomp::supported()`; `--debug` and
`--status` exist only without `NDEBUG`. -/
def available (pf : Platform) : Opt → Bool
  | syscalls => pf.seccompSupported
  | debug | status => pf.debug
  | _ => true

/-- The `n` of the branch's `REQUIRE_NARGV(n)`; the branch reads exactly `n` values. -/
def nargv : Opt → ℕ
  | bindfs | bindfsRo | tmpfs | env => 2
  | cgroupOption => 3
  | debug | status => 0
  | _ => 1

/-- The branches in source order. -/
def all : List Opt :=
  [maxCpuTime, maxRealTime, maxMemory, maxOutput, maxNprocess, minNice, maxRtprio, maxNfile,
    maxStack, isolateProcess, basicDevices, remountDev, resetEnv, network, passExitcode, chroot,
    chdir, nice, umask, uid, gid, noNewPrivs, syscalls, group, interval, cgname, hostname,
    domainname, ostype, osrelease, osversion, remountRo, bindfs, bindfsRo, tmpfs, cgroupOption,
    env, fd, cmd, debug, status]

/-- The branch the `if` chain takes for `option`, if any. -/
def ofName (pf : Platform) (option : String) : Option Opt :=
  all.find? fun o => o.name = option && o.available pf

/-- `--syscalls`: a leading `!` or `-` selects `OTHERS_EPERM`, a leading `=` or
`+` is dropped, anything else (the empty string included) is the list. -/
def syscallFilter (syscalls : String) : SyscallAction × String :=
  match syscalls.data with
  | '!' :: rest | '-' :: rest => (.othersEperm, ⟨rest⟩)
  | '=' :: rest | '+' :: rest => (.defaultEperm, ⟨rest⟩)
  | _ => (.defaultEperm, syscalls)

/-- `max-memory`: a positive value under `MIN_MEMORY_LIMIT` is raised to it. -/
def memoryLimitOf (maxMemory : ℤ) : ℤ :=
  if maxMemory > 0 ∧ maxMemory < 500000 then 500000 else maxMemory

/-- What the branch stores, given the values `NEXT_*_ARG` read, in order. -/
def apply (sc : Strconv) (pf : Platform) (o : Opt) (vals : List String) (c : Config) : Config :=
  let v := vals.getD 0 ""
  match o with
  | maxCpuTime => { c with cpuTimeLimit := sc.toDouble v }
  | maxRealTime => { c with realTimeLimit := sc.toDouble v }
  | maxMemory => { c with memoryLimit := memoryLimitOf (sc.toBytes v) }
  | maxOutput =>
      { c with outputLimit := sc.toBytes v,
               arg.rlimits := Function.update c.arg.rlimits .fsize (some (toRlim (sc.toBytes v))) }
  | maxNprocess =>
      { c with arg.rlimits := Function.update c.arg.rlimits .nproc (some (toRlim (sc.toLonglong v))) }
  | minNice =>
      { c with arg.rlimits :=
          Function.update c.arg.rlimits .nice (some (toRlim (20 - sc.toLonglong v))) }
  | maxRtprio =>
      { c with arg.rlimits := Function.update c.arg.rlimits .rtprio (some (toRlim (sc.toLonglong v))) }
  | maxNfile =>
      { c with arg.rlimits := Function.update c.arg.rlimits .nofile (some (toRlim (sc.toLonglong v))) }
  | maxStack =>
      { c with arg.rlimits := Function.update c.arg.rlimits .stack (some (toRlim (sc.toLonglong v))) }
  | isolateProcess => { c with enablePidns := sc.toBool v }
  | basicDevices => { c with enableDevicesWhitelist := sc.toBool v }
  | remountDev => { c with arg.remountDev := sc.toBool v }
  | resetEnv => { c with arg.resetEnv := sc.toBool v }
  | network => { c with enableNetwork := sc.toBool v }
  | passExitcode => { c with passExitcode := sc.toBool v }
  | chroot => { c with arg.chrootPath := v }
  | chdir => { c with arg.chdirPath := v }
  | nice => { c with arg.nice := toInt32 (sc.toLonglong v) }
  | umask => { c with arg.umask := toUint32 (sc.toLonglong v) }
  | uid => { c with arg.uid := toUint32 (sc.toLonglong v) }
  | gid => { c with arg.gid := toUint32 (sc.toLonglong v) }
  | noNewPrivs => { c with arg.noNewPrivs := sc.toBool v }
  | syscalls =>
      { c with arg.syscallAction := (syscallFilter v).1, arg.syscallList := (syscallFilter v).2 }
  | group =>
      if toUint32 (sc.toLonglong v) ≠ 0 then
        { c with groups := c.groups ++ [toUint32 (sc.toLonglong v)] }
      else c
  | interval =>
      if toUint32 (truncate (sc.toDouble v * 1000000)) > 0 then
        { c with interval := toUint32 (truncate (sc.toDouble v * 1000000)) }
      else c
  | cgname => { c with cgname := v }
  | hostname =>
      { c with arg.uts.nodename := v, arg.cloneFlags := c.arg.cloneFlags ||| cloneNewuts }
  | domainname =>
      { c with arg.uts.domainname := v, arg.cloneFlags := c.arg.cloneFlags ||| cloneNewuts }
  | ostype => { c with arg.uts.sysname := v, arg.cloneFlags := c.arg.cloneFlags ||| cloneNewuts }
  | osrelease =>
      { c with arg.uts.release := v, arg.cloneFlags := c.arg.cloneFlags ||| cloneNewuts }
  | osversion =>
      { c with arg.uts.version := v, arg.cloneFlags := c.arg.cloneFlags ||| cloneNewuts }
  | remountRo => { c with arg.remountList := orFlags c.arg.remountList v msRdonly }
  | bindfs =>
      { c with arg.bindfsList := c.arg.bindfsList ++ [(v, vals.getD 1 "")],
               arg.bindfsDestSet := insertSet c.arg.bindfsDestSet v }
  | bindfsRo =>
      { c with arg.bindfsList := c.arg.bindfsList ++ [(v, vals.getD 1 "")],
               arg.bindfsDestSet := insertSet c.arg.bindfsDestSet v,
               arg.remountList := orFlags c.arg.remountList v msRdonly }
  | tmpfs => { c with arg.tmpfsList := c.arg.tmpfsList ++ [(v, sc.toBytes (vals.getD 1 ""))] }
  | cgroupOption =>
      if pf.subsysIdFromName v ≥ 0 then
        { c with cgroupOptions :=
            assign c.cgroupOptions (pf.subsysIdFromName v, vals.getD 1 "") (vals.getD 2 "") }
      else c
  | env => { c with arg.envList := c.arg.envList ++ [(v, vals.getD 1 "")] }
  | fd => { c with arg.keepFds := insertSet c.arg.keepFds (toInt32 (sc.toLonglong v)) }
  | cmd => { c with arg.cmdList := c.arg.cmdList ++ [v] }
  | debug | status => c

end Opt

/-- How `parse_cli_options` leaves instead of returning. -/
inductive Exit
  | usage (message : String)
  | help (submodule : String)
  | version
  | outOfRange
  deriving DecidableEq, Repr

/-- The message of `REQUIRE_NARGV(n)`. -/
def requireMessage (option : String) (n : ℕ) : String :=
  "Option '" ++ option ++ "' requires " ++ toString n ++ " argument" ++
    (if n > 1 then "s" else "") ++ ".\n"

def unknownMessage (option : String) : String :=
  "Unknown option: `--" ++ option ++ "`\nUse --help for information.\n"

/-- `argv[i + 1]`, ..., `argv[i + n]`, read as `NEXT_*_ARG` reads them: `argv[++i]`.
A read past the end of `argv` fails. -/
def nextArgs (argv : List String) : ℕ → ℕ → Option (List String)
  | _, 0 => some []
  | i, n + 1 => do
      let v ← argv.get? (i + 1)
      let vs ← nextArgs argv (i + 1) n
      pure (v :: vs)

/-- `config.arg.args = argv + start; config.arg.argc = argc - start;` -/
def Config.withCommand (c : Config) (start n : ℕ) : Config :=
  { c with arg.args := start, arg.argc := (n : ℤ) - start }

/-- `config.arg.argc -= k; config.arg.args += k;` in `REQUIRE_NARGV(k)`. -/
def Config.shiftCommand (c : Config) (k : ℕ) : Config :=
  { c with arg.argc := c.arg.argc - k, arg.args := c.arg.args + k }

/-- `strncmp("--", s, 2) == 0`. -/
def isOption (s : String) : Bool := "--".data.isPrefixOf s.data

/-- The loop of `parse_cli_options` from index `i`. The fuel is `argc`; every
iteration advances `i`, so it never runs out before `i` reaches `argc`. -/
def parseLoop (pf : Platform) (sc : Strconv) (argv : List String) :
    ℕ → ℕ → Config → Except Exit Config
  | 0, _, cfg => .ok cfg
  | fuel + 1, i, cfg =>
      if i < argv.length then
        match argv.get? i with
        | none => .error .outOfRange
        | some a =>
            if !isOption a then
              .ok (cfg.withCommand i argv.length)
            else
              let cfg := cfg.withCommand (i + 1) argv.length
              let option : String := ⟨a.data.drop 2⟩
              if option = "help" then .error (.help "")
              else if option = "help-syscalls" ∧ pf.seccompSupported then .error (.help "syscalls")
              else if option = "version" then .error .version
              else if option = "" then .ok cfg
              else match Opt.ofName pf option with
                | none => .error (.usage (unknownMessage option))
                | some o =>
                    if i + o.nargv ≥ argv.length then .error (.usage (requireMessage option o.nargv))
                    else
                      let cfg := cfg.shiftCommand o.nargv
                      match nextArgs argv i o.nargv with
                      | none => .error .outOfRange
                      | some vals => parseLoop pf sc argv fuel (i + o.nargv + 1) (o.apply sc pf vals cfg)
      else .ok cfg

/-- `parse_cli_options(argc, argv)` on the configuration `init_default_config` left. -/
def parseCliOptions (pf : Platform) (sc : Strconv) (argv : List String) (cfg : Config) :
    Except Exit Config :=
  parseLoop pf sc argv argv.length 1 (cfg.withCommand 1 argv.length)

end Lrun
