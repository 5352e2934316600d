import Lrun.OptionScan

/-!
# Configuration checks

`check_config` collects every problem of the parsed configuration into a list
of messages and exits with status 1 when the list is not empty. A non-root
caller may run only as itself, without `--cmd` or `--group`, with
`--no-new-privs` left on and a non-negative `--nice`, and may remount
read-only only what it bound itself. Its bind sources, `--chroot` and `--chdir`
paths must be absolute and readable once earlier binds are followed.
-/

namespace Lrun

def rOk : ℕ := 4
def wOk : ℕ := 2
def xOk : ℕ := 1

/-- `access_mode_to_str(mode)`. -/
def accessModeToStr (mode : ℕ) : String :=
  (if mode &&& rOk ≠ 0 then "r" else "") ++ (if mode &&& wOk ≠ 0 then "w" else "") ++
    (if mode &&& xOk ≠ 0 then "x" else "")

/-- The messages `check_path_permission(path, error_messages, mode)` appends. -/
def checkPathPermission (fs : Fs) (path : String) (mode : ℕ := rOk) : List String :=
  if !fs.isAbsolute path then
    ["Relative paths are forbidden for non-root users.\nPlease change: " ++ path]
  else
    let mode := if fs.isDir path then mode ||| xOk else mode
    if !fs.isAccessible path mode then
      ["You do not have `" ++ accessModeToStr mode ++ "` permission on " ++ path]
    else []

/-- The loop of `follow_binds` over the binds from the last one back: the first
destination `d` with `d + "/"` in front of the path replaces it by its source. -/
def followBindsLoop : List (String × String) → List Char → List Char
  | [], result => result
  | (dest, src) :: earlier, result =>
      if result.take (dest.data ++ ['/']).length = dest.data ++ ['/'] then
        src.data ++ result.drop ((dest.data ++ ['/']).length - 1)
      else followBindsLoop earlier result

/-- `follow_binds(binds, path)`. -/
def followBinds (fs : Fs) (binds : List (String × String)) (path : String) : String :=
  if !fs.isAbsolute path then path else ⟨followBindsLoop binds.reverse (fs.expand path).data⟩

/-- The `--bindfs` loop of `check_config`: from the binds built so far, the
messages for each source and the binds it builds, each source followed
through the binds before it. -/
def checkBindfs (fs : Fs) (binds : List (String × String)) :
    List (String × String) → List String × List (String × String)
  | [] => ([], binds)
  | (dest, src) :: rest =>
      let r := checkBindfs fs
        (binds ++ [(fs.expand dest, followBinds fs binds (fs.expand src))]) rest
      (checkPathPermission fs (followBinds fs binds src) ++ r.1, r.2)

def uidZeroMessage : String :=
  "For security reason, running commands with uid = 0 is not allowed.\n" ++
    "Please specify a user ID using `--uid`."
def uidOtherMessage : String := "For security reason, setting uid to other user requires root."
def gidZeroMessage : String :=
  "For security reason, running commands with gid = 0 is not allowed.\n" ++
    "Please specify a group ID using `--gid`."
def gidOtherMessage : String := "For security reason, setting gid to other group requires root."
def emptyCommandMessage : String :=
  "command_args can not be empty.\nUse `--help` to see full options."
def cmdMessage : String := "For security reason, `--cmd` requires root."
def groupMessage : String := "For security reason, `--group` requires root."
def remountMessage : String :=
  "For security reason, `--remount-ro A` is only allowed if there is a `--bindfs A B`."
def noNewPrivsMessage : String :=
  "For security remount, `--no-new-privs false` is forbidden for non-root users."
def niceMessage : String := "Non-root users cannot set a negative value of `--nice`"
def syscallsMessage : String := "Syscall filter forbids all syscalls, which is not allowed."

/-- The checks made only for a non-root caller. -/
def nonRootErrors (fs : Fs) (cfg : Config) : List String :=
  let a := cfg.arg
  let binds := checkBindfs fs [] a.bindfsList
  (if a.cmdList.length > 0 then [cmdMessage] else []) ++
  (if cfg.groups.length > 0 then [groupMessage] else []) ++
  binds.1 ++
  (if a.chrootPath ≠ "" then checkPathPermission fs (followBinds fs binds.2 a.chrootPath) else []) ++
  (if a.chdirPath ≠ "" then
    checkPathPermission fs (followBinds fs binds.2 (fs.join a.chrootPath a.chdirPath))
  else []) ++
  (a.remountList.filter fun p => p.1 ∉ a.bindfsDestSet).map (fun _ => remountMessage) ++
  (if a.noNewPrivs = false then [noNewPrivsMessage] else []) ++
  (if a.nice < 0 then [niceMessage] else [])

/-- The `error_messages` of `check_config`, for a caller with real uid `uid`
and real gid `gid`. -/
def checkConfigErrors (fs : Fs) (uid gid : ℕ) (cfg : Config) : List String :=
  let isRoot := uid = 0
  let a := cfg.arg
  (if a.uid = 0 then [uidZeroMessage] else if ¬isRoot ∧ a.uid ≠ uid then [uidOtherMessage] else []) ++
  (if a.gid = 0 then [gidZeroMessage] else if ¬isRoot ∧ a.gid ≠ gid then [gidOtherMessage] else []) ++
  (if a.argc ≤ 0 then [emptyCommandMessage] else []) ++
  (if ¬isRoot then nonRootErrors fs cfg else []) ++
  (if a.syscallList = "" ∧ a.syscallAction = .defaultEperm then [syscallsMessage] else [])

/-- `check_config()`: every message followed by a blank line, then the closing
line, and exit status 1. -/
def checkConfig (fs : Fs) (uid gid : ℕ) (cfg : Config) : Except Exit Unit :=
  let errors := checkConfigErrors fs uid gid cfg
  if errors = [] then .ok ()
  else .error (.usage (String.join (errors.map (· ++ "\n\n")) ++
    "Please fix these errors and try again.\n"))

end Lrun

namespace Lrun

section NonRoot
variable {fs : Fs} {sc : Strconv} {pf : Platform} {uid gid : ℕ} {c cfg : Config}

/-- What `check_config` lets a non-root caller run. -/
def NonRootAccepted (uid gid : ℕ) (cfg : Config) : Prop :=
  0 < cfg.arg.argc ∧ cfg.arg.uid = uid ∧ cfg.arg.gid = gid ∧ cfg.arg.cmdList = [] ∧
    cfg.groups = [] ∧ cfg.arg.noNewPrivs = true ∧ 0 ≤ cfg.arg.nice ∧
    ∀ p ∈ cfg.arg.remountList, p.1 ∈ cfg.arg.bindfsDestSet

theorem checkConfig_ok_iff : checkConfig fs uid gid cfg = .ok () ↔ checkConfigErrors fs uid gid cfg = [] := by
  simp only [checkConfig]
  split_ifs <;> simp_all

theorem nonRootAccepted_of_checkConfig (hu : uid ≠ 0) (h : checkConfig fs uid gid cfg = .ok ()) :
    NonRootAccepted uid gid cfg := by
  rw [checkConfig_ok_iff] at h
  simp [checkConfigErrors, nonRootErrors, hu] at h
  obtain ⟨hu', hg', hargc, hcmd, hgroups, -, -, -, hremount, hnnp, hnice, -⟩ := h
  refine ⟨hargc, ?_, ?_, hcmd, hgroups, hnnp, hnice, fun p hp => hremount p.1 p.2 hp⟩
  · split_ifs at hu' with h₀ h₁
    exact h₁
  · split_ifs at hg' with h₀ h₁
    exact h₁

/-- The values of the last request of `o`: an option that overwrites its field
leaves the value of its last occurrence. -/
def lastValues (o : Opt) : List (Opt × List String) → Option (List String)
  | [] => none
  | r :: rest => (lastValues o rest).or (if r.1 = o then some r.2 else none)

/-- A request that adds nothing a non-root caller may not have: a `--group`
that truncates to 0 (the code drops it), and no `--cmd`, `--remount-ro`, bind,
`--chroot` or `--chdir`. -/
def addsNothing (sc : Strconv) : Opt × List String → Bool
  | (.group, vals) => toUint32 (sc.toLonglong (vals.getD 0 "")) = 0
  | (.cmd, _) | (.remountRo, _) | (.bindfs, _) | (.bindfsRo, _) | (.chroot, _) | (.chdir, _) =>
      false
  | _ => true

/-- The requests of a command line a non-root caller may make, the last
occurrence of each option that overwrites its field deciding: the last `--uid`
and `--gid` name the caller after truncation, the last `--no-new-privs` is
true, the last `--nice` is not negative as an `int`, the last `--syscalls`
leaves no empty whitelist; and no request adds anything. -/
structure NonRootRequests (sc : Strconv) (uid gid : ℕ) (reqs : List (Opt × List String)) :
    Prop where
  uid : ∀ vals ∈ lastValues .uid reqs, toUint32 (sc.toLonglong (vals.getD 0 "")) = uid
  gid : ∀ vals ∈ lastValues .gid reqs, toUint32 (sc.toLonglong (vals.getD 0 "")) = gid
  noNewPrivs : ∀ vals ∈ lastValues .noNewPrivs reqs, sc.toBool (vals.getD 0 "") = true
  nice : ∀ vals ∈ lastValues .nice reqs, 0 ≤ toInt32 (sc.toLonglong (vals.getD 0 ""))
  syscalls : ∀ vals ∈ lastValues .syscalls reqs,
    ¬((Opt.syscallFilter (vals.getD 0 "")).2 = "" ∧
      (Opt.syscallFilter (vals.getD 0 "")).1 = .defaultEperm)
  added : ∀ r ∈ reqs, addsNothing sc r

/-- The fields `check_config` examines for a non-root caller, with values it accepts. -/
def NonRootFields (uid gid : ℕ) (c : Config) : Prop :=
  c.arg.uid = uid ∧ c.arg.gid = gid ∧ c.arg.cmdList = [] ∧ c.groups = [] ∧
    c.arg.noNewPrivs = true ∧ 0 ≤ c.arg.nice ∧ c.arg.remountList = [] ∧ c.arg.bindfsList = [] ∧
    c.arg.chrootPath = "" ∧ c.arg.chdirPath = "" ∧
    ¬(c.arg.syscallList = "" ∧ c.arg.syscallAction = .defaultEperm)

/-- The fields only one option sets: every other branch leaves them alone. -/
theorem Opt.apply_overwrites (o : Opt) (vals : List String) (c : Config) :
    (o ≠ .uid → (o.apply sc pf vals c).arg.uid = c.arg.uid) ∧
    (o ≠ .gid → (o.apply sc pf vals c).arg.gid = c.arg.gid) ∧
    (o ≠ .noNewPrivs → (o.apply sc pf vals c).arg.noNewPrivs = c.arg.noNewPrivs) ∧
    (o ≠ .nice → (o.apply sc pf vals c).arg.nice = c.arg.nice) ∧
    (o ≠ .syscalls → ((o.apply sc pf vals c).arg.syscallList,
      (o.apply sc pf vals c).arg.syscallAction) = (c.arg.syscallList, c.arg.syscallAction)) := by
  cases o <;> dsimp only [Opt.apply] <;> (try split_ifs) <;>
    refine ⟨fun h => ?_, fun h => ?_, fun h => ?_, fun h => ?_, fun h => ?_⟩ <;>
    first | rfl | exact absurd rfl h

/-- A field that only `o` sets ends as the last occurrence of `o` left it. -/
theorem applyAll_last {α : Type} (f : Config → α) (o : Opt) (g : List String → α)
    (hset : ∀ vals c, f (o.apply sc pf vals c) = g vals)
    (hkeep : ∀ o', o' ≠ o → ∀ vals c, f (o'.apply sc pf vals c) = f c)
    (reqs : List (Opt × List String)) (c : Config) :
    f (applyAll sc pf reqs c) = ((lastValues o reqs).map g).getD (f c) := by
  induction reqs generalizing c with
  | nil => rfl
  | cons r rest ih =>
    show f (applyAll sc pf rest (r.1.apply sc pf r.2 c)) = _
    rw [ih, lastValues]
    by_cases h : r.1 = o
    · cases lastValues o rest <;> simp [h, hset]
    · simp [h, hkeep _ h]

/-- What holds of the value every occurrence of `o` could leave, and of the
value before, holds after all the requests. -/
theorem applyAll_last_of {α : Type} (f : Config → α) (o : Opt) {g : List String → α}
    (P : α → Prop) (hset : ∀ vals c, f (o.apply sc pf vals c) = g vals)
    (hkeep : ∀ o', o' ≠ o → ∀ vals c, f (o'.apply sc pf vals c) = f c)
    {reqs : List (Opt × List String)} (h0 : P (f c))
    (hlast : ∀ vals ∈ lastValues o reqs, P (g vals)) : P (f (applyAll sc pf reqs c)) := by
  rw [applyAll_last f o g hset hkeep]
  cases h : lastValues o reqs with
  | none => exact h0
  | some vals => exact hlast vals (Option.mem_def.2 h)

/-- The lists and paths a non-root caller may not fill stay empty. -/
def NothingAdded (c : Config) : Prop :=
  c.arg.cmdList = [] ∧ c.groups = [] ∧ c.arg.remountList = [] ∧ c.arg.bindfsList = [] ∧
    c.arg.chrootPath = "" ∧ c.arg.chdirPath = ""

theorem NothingAdded.apply (h : NothingAdded c) {o : Opt} {vals : List String}
    (hr : addsNothing sc (o, vals)) : NothingAdded (o.apply sc pf vals c) := by
  cases o <;> dsimp only [Opt.apply] <;> (try split_ifs) <;>
    first
    | exact h
    | cases hr
    | (simp only [addsNothing, decide_eq_true_eq] at hr
       simp_all only [NothingAdded, true_and, and_true, ne_eq, not_true_eq_false])

theorem NothingAdded.applyAll (h : NothingAdded c) {reqs : List (Opt × List String)}
    (hr : ∀ r ∈ reqs, addsNothing sc r) : NothingAdded (applyAll sc pf reqs c) := by
  induction reqs generalizing c with
  | nil => exact h
  | cons r reqs ih =>
    exact ih (h.apply (hr r (List.mem_cons_self _ _))) fun r' hr' => hr r' (List.mem_cons_of_mem _ hr')

/-- The requests of a non-root command line leave fields `check_config` accepts. -/
theorem nonRootFields_applyAll {reqs : List (Opt × List String)}
    (h : NonRootRequests sc uid gid reqs) :
    NonRootFields uid gid (applyAll sc pf reqs (initDefaultConfig uid gid)) := by
  have hn : NothingAdded (applyAll sc pf reqs (initDefaultConfig uid gid)) :=
    NothingAdded.applyAll ⟨rfl, rfl, rfl, rfl, rfl, rfl⟩ h.added
  obtain ⟨hc, hgr, hrm, hb, hch, hcd⟩ := hn
  refine ⟨applyAll_last_of (·.arg.uid) .uid (· = uid) (fun _ _ => rfl)
      (fun o h vals c => (Opt.apply_overwrites o vals c).1 h) rfl h.uid,
    applyAll_last_of (·.arg.gid) .gid (· = gid) (fun _ _ => rfl)
      (fun o h vals c => (Opt.apply_overwrites o vals c).2.1 h) rfl h.gid, hc, hgr,
    applyAll_last_of (·.arg.noNewPrivs) .noNewPrivs (· = true) (fun _ _ => rfl)
      (fun o h vals c => (Opt.apply_overwrites o vals c).2.2.1 h) rfl h.noNewPrivs,
    applyAll_last_of (·.arg.nice) .nice (0 ≤ ·) (fun _ _ => rfl)
      (fun o h vals c => (Opt.apply_overwrites o vals c).2.2.2.1 h) le_rfl h.nice,
    hrm, hb, hch, hcd, ?_⟩
  exact applyAll_last_of (fun c => (c.arg.syscallList, c.arg.syscallAction)) .syscalls
    (fun p => ¬(p.1 = "" ∧ p.2 = .defaultEperm))
    (fun vals _ => show _ = ((Opt.syscallFilter (vals.getD 0 "")).2,
      (Opt.syscallFilter (vals.getD 0 "")).1) from rfl)
    (fun o h vals c => (Opt.apply_overwrites o vals c).2.2.2.2 h) (by simp [initDefaultConfig])
    h.syscalls

theorem checkConfigErrors_of_fields (hu : uid ≠ 0) (hg : gid ≠ 0) (h : NonRootFields uid gid cfg)
    (hargc : 0 < cfg.arg.argc) : checkConfigErrors fs uid gid cfg = [] := by
  obtain ⟨h1, h2, h3, h4, h5, h6, h7, h8, h9, h10, h11⟩ := h
  simp [checkConfigErrors, nonRootErrors, checkBindfs, hu, hg, h1, h2, h3, h4, h5, h7, h8, h9, h10,
    h11, hargc, h6]

/-- For a non-root caller, parsing followed by `check_config` returns only for
a configuration a non-root caller may run; and it returns for every command
line with a command whose requests, the last occurrence of each option
deciding, ask for nothing reserved to root. -/
theorem checkConfig_nonRoot (hu : uid ≠ 0) (hg : gid ≠ 0) (argv : List String) :
    (∀ cfg, parseCliOptions pf sc argv (initDefaultConfig uid gid) = .ok cfg →
      checkConfig fs uid gid cfg = .ok () → NonRootAccepted uid gid cfg) ∧
    (scanEnd 1 0 (argv.drop 1) < argv.length →
      NonRootRequests sc uid gid (requests pf 0 (argv.drop 1)) →
      ∀ cfg, parseCliOptions pf sc argv (initDefaultConfig uid gid) = .ok cfg →
        checkConfig fs uid gid cfg = .ok ()) := by
  refine ⟨fun cfg _ h => nonRootAccepted_of_checkConfig hu h, fun hcmd hr cfg hp => ?_⟩
  rw [checkConfig_ok_iff, parseCliOptions_eq pf sc argv hp]
  exact checkConfigErrors_of_fields hu hg (nonRootFields_applyAll hr)
    (sub_pos.2 (Nat.cast_lt.2 hcmd))

end NonRoot

/-- `--uid 0 --uid 1000 --nice -1 --nice 0 ls` from uid and gid 1000: the last
`--uid` and `--nice` decide, `check_config` lets the command through, and what
it lets through runs as the caller. -/
theorem checkConfig_nonRoot_override :
    let pf : Platform := ⟨true, false, fun _ => 0⟩
    let sc : Strconv :=
      ⟨fun s => if s = "1000" then 1000 else if s = "-1" then -1 else 0, fun _ => 0,
        fun s => s = "true", fun _ => 0⟩
    let fs : Fs := ⟨fun _ => true, id, (· ++ ·), fun _ => false, fun _ _ => true⟩
    let argv := ["lrun", "--uid", "0", "--uid", "1000", "--nice", "-1", "--nice", "0", "ls"]
    (1000 : ℕ) ≠ 0 ∧ scanEnd 1 0 (argv.drop 1) < argv.length ∧
      NonRootRequests sc 1000 1000 (requests pf 0 (argv.drop 1)) ∧
      ∃ cfg, parseCliOptions pf sc argv (initDefaultConfig 1000 1000) = .ok cfg ∧
        checkConfig fs 1000 1000 cfg = .ok () ∧ NonRootAccepted 1000 1000 cfg := by
  intro pf sc fs argv
  have hr : NonRootRequests sc 1000 1000 (requests pf 0 (argv.drop 1)) :=
    ⟨by decide, by decide, by decide, by decide, by decide, by decide⟩
  have hc : ∀ cfg, parseCliOptions pf sc argv (initDefaultConfig 1000 1000) = .ok cfg →
      checkConfig fs 1000 1000 cfg = .ok () :=
    (checkConfig_nonRoot (by decide) (by decide) argv).2 (by decide) hr
  exact ⟨by decide, by decide, hr, _, rfl, hc _ rfl,
    (checkConfig_nonRoot (by decide) (by decide) argv).1 _ rfl (hc _ rfl)⟩

end Lrun
