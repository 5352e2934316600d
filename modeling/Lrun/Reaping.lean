import Lrun.Signals

/-!
# Reaping the child

Each iteration of the monitoring loop calls `waitpid` once and, when that
does not reap the child, sets `stat` to 0. Later in the same iteration the
loop may stop without another `waitpid`: `cg.empty()` holds as soon as the
child has exited, because a zombie is no longer a task of the group. A child
that exits in that window is never reaped, and the record reports the 0 in
`stat`.

What does hold in every run: once the child is reaped, `stat` is its wait
status for good, and before that `stat` is 0. So the record carries the
child's status exactly when lrun has reaped it. And a record without a tag is
written only for a child that is no longer running, or whose main thread has
exited: the loop ends untagged only after a reaping `waitpid`, a zombie check
that read `Z`, or a `cg.empty()` that found the group without the child. The
zombie check reads `Z` also for a child whose main thread exited while its
other threads run, and then the loop ends with the child still running.
-/

namespace Lrun

/-- The statements between the zombie check and the end of an iteration. -/
def Pc.drained : Pc → Bool
  | .checkOutput | .checkEmpty | .sleep => true
  | _ => false

def Pc.beforeSpawn : Pc → Bool
  | .lock | .setup | .cloexec | .spawn => true
  | _ => false

/-- A move of the program counter, with `running` kept, after which a reaped
child is still past every `waitpid` of the loop. -/
def Pc.keepsStat (pc pc' : Pc) : Bool :=
  (!pc'.untagged || pc.untagged && (!pc.drained || pc'.drained)) && pc' != .reapZombie &&
    (!pc'.beforeSpawn || pc.beforeSpawn)

/-- Where `stat` stands against the child. -/
structure ReapInv (s : Sys) : Prop where
  fresh : s.sup.pc.beforeSpawn → s.world.child = .unborn
  zombie : ∀ st, s.world.child = .zombie st → Terminated st
  unreaped : (∀ st, s.world.child ≠ .reaped st) → s.sup.stat = 0
  reaped : ∀ st, s.world.child = .reaped st → s.sup.stat = st ∧
    (s.sup.pc.untagged → s.sup.running = false ∧ s.sup.pc.drained)
  probed : s.sup.pc = .reapZombie → s.sup.running = false

section
variable {cfg : Config} {s s' : Sys}

theorem terminated_sigkill : Terminated sigkill := .inr rfl

/-- A step that leaves the child and `stat` alone. -/
theorem ReapInv.frame (h : ReapInv s) (hc : s'.world.child = s.world.child)
    (hst : s'.sup.stat = s.sup.stat)
    (hloop : (s.sup.pc.untagged → s.sup.running = false ∧ s.sup.pc.drained) →
      s'.sup.pc.untagged → s'.sup.running = false ∧ s'.sup.pc.drained)
    (hprobe : s'.sup.pc = .reapZombie → s'.sup.running = false)
    (hfresh : s'.sup.pc.beforeSpawn → s.sup.pc.beforeSpawn) : ReapInv s' := by
  refine ⟨fun hb => hc ▸ h.fresh (hfresh hb), fun st hz => h.zombie st (hc ▸ hz),
    fun hu => hst ▸ h.unreaped (hc ▸ hu), fun st hr => ?_, hprobe⟩
  obtain ⟨hs, hl⟩ := h.reaped st (hc ▸ hr)
  exact ⟨hst ▸ hs, hloop hl⟩

/-- A step that leaves the child, `stat` and `running` alone and moves the
program counter along `Pc.keepsStat`. -/
theorem ReapInv.move (h : ReapInv s) (hc : s'.world.child = s.world.child)
    (hst : s'.sup.stat = s.sup.stat) (hrun : s'.sup.running = s.sup.running)
    (hpc : s.sup.pc.keepsStat s'.sup.pc) : ReapInv s' := by
  simp only [Pc.keepsStat, Bool.and_eq_true, Bool.or_eq_true, Bool.not_eq_true', bne_iff_ne,
    ne_eq] at hpc
  obtain ⟨⟨hu, hz⟩, hb⟩ := hpc
  refine h.frame hc hst (fun hl hu' => ?_) (fun hz' => absurd hz' hz)
    fun hb' => hb.resolve_left (by simp [hb'])
  obtain hu | ⟨hu0, hd⟩ := hu
  · simp [hu] at hu'
  · obtain ⟨hr, hd0⟩ := hl hu0
    exact ⟨hrun ▸ hr, hd.resolve_left (by simp [hd0])⟩

theorem ReapInv.init {w : World} (hw : w.Initial) : ReapInv ⟨initSup, w⟩ := by
  obtain ⟨hc, -⟩ := hw
  exact ⟨fun _ => hc, fun st h => by simp [hc] at h, fun _ => rfl, fun st h => by simp [hc] at h,
    fun h => by simp [initSup] at h⟩

theorem ReapInv.env (h : ReapInv s) {w : World} (he : EnvStep s.world w) :
    ReapInv { s with world := w } := by
  cases he with
  | exit st hr ht =>
    refine ⟨fun hb => absurd (h.fresh hb) (by simp [hr]), fun st' hz => ?_,
      fun _ => h.unreaped (by simp [hr]), fun st' hz => by simp at hz, h.probed⟩
    cases hz; exact ht
  | fork | othersExit | proc | leaderExit => exact h.frame rfl rfl id h.probed id
  | tick hc => exact h.frame hc rfl id h.probed id

theorem ReapInv.signal (h : ReapInv s) (sig : ℕ) : ReapInv (deliver sig s) := by
  unfold deliver
  split_ifs
  · exact h.frame rfl rfl id h.probed id
  · exact h.move rfl rfl rfl rfl

/-- A reaped child is never waited for again. -/
theorem ReapInv.not_reaped (h : ReapInv s) (hpc : s.sup.pc.untagged)
    (hd : s.sup.pc.drained = false) (st : ℕ) : s.world.child ≠ .reaped st := fun hc => by
  have := (h.reaped st hc).2 hpc
  simp [hd] at this

/-- The iteration's `waitpid`: a zombie is reaped and its status lands in
`stat`; otherwise `stat` becomes, or stays, 0. -/
theorem ReapInv.reap (h : ReapInv s) (hpc : s.sup.pc = .reap) : ReapInv (exec cfg s) := by
  have hnr := h.not_reaped (by simp [hpc, Pc.untagged, Pc.inLoop]) (by simp [hpc, Pc.drained])
  cases hc : s.world.child with
  | zombie st =>
    simp only [Lrun.exec, hpc, Lrun.waitpid, hc]
    rw [if_pos (by simpa [Terminated] using h.zombie st hc)]
    exact ⟨fun hb => by simp [Pc.beforeSpawn] at hb, fun _ hz => by simp at hz,
      fun hu => absurd rfl (hu st), fun _ hr => by cases hr; simp [Pc.untagged, Pc.inLoop],
      fun hp => by simp at hp⟩
  | reaped st => exact absurd hc (hnr st)
  | running | unborn =>
    have h0 := h.unreaped (by simp [hc])
    simp only [Lrun.exec, hpc, Lrun.waitpid, hc]
    split_ifs <;> exact ⟨fun hb => by simp [Pc.beforeSpawn] at hb, fun _ hz => by simp [hc] at hz,
      fun _ => by simp [h0], fun _ hr => by simp [hc] at hr, fun hp => by simp at hp⟩

/-- `waitpid` after the zombie check. -/
theorem ReapInv.reapZombie (h : ReapInv s) (hpc : s.sup.pc = .reapZombie) :
    ReapInv (exec cfg s) := by
  have hnr := h.not_reaped (by simp [hpc, Pc.untagged, Pc.inLoop]) (by simp [hpc, Pc.drained])
  have hrun := h.probed hpc
  cases hc : s.world.child with
  | zombie st =>
    simp only [Lrun.exec, hpc, Lrun.waitpid, hc]
    split_ifs <;> exact ⟨fun hb => by simp [Pc.beforeSpawn] at hb, fun _ hz => by simp at hz,
      fun hu => absurd rfl (hu st),
      fun _ hr => by cases hr; simp [Pc.untagged, Pc.inLoop, Pc.drained, hrun],
      fun hp => by simp at hp⟩
  | reaped st => exact absurd hc (hnr st)
  | running | unborn =>
    have h0 := h.unreaped (by simp [hc])
    simp only [Lrun.exec, hpc, Lrun.waitpid, hc]
    split_ifs <;> exact ⟨fun hb => by simp [Pc.beforeSpawn] at hb, fun _ hz => by simp [hc] at hz,
      fun _ => h0, fun _ hr => by simp [hc] at hr, fun hp => by simp at hp⟩

theorem ReapInv.cleanup (h : ReapInv s) {code : ℤ} (hpc : s.sup.pc = .cleanup code) :
    ReapInv (exec cfg s) := by
  have hk : (cleanCgExit cfg s.world).child = (killall s.world).child := by
    unfold cleanCgExit; split_ifs <;> rfl
  simp only [Lrun.exec, hpc]
  refine ⟨fun hb => by simp [Pc.beforeSpawn] at hb, fun st hz => ?_, fun hu => h.unreaped ?_,
    fun st hr => ⟨(h.reaped st ?_).1, fun hl => by simp [Pc.untagged, Pc.inLoop] at hl⟩,
    fun hp => by simp at hp⟩
  · rw [hk, killall] at hz
    split_ifs at hz
    · cases hz; exact terminated_sigkill
    · exact h.zombie st hz
  · intro st hr
    refine hu st ?_
    rw [hk, killall, if_neg (by simp [hr]), hr]
  · rw [hk, killall] at hr
    split_ifs at hr
    exact hr

/-- Every statement of lrun keeps `stat` in step with the child. -/
theorem ReapInv.exec (h : ReapInv s) : ReapInv (exec cfg s) := by
  cases hpc : s.sup.pc with
  | reap => exact h.reap hpc
  | reapZombie => exact h.reapZombie hpc
  | cleanup code => exact h.cleanup hpc
  | setup | cloexec | spawn | exited | killed => simpa only [Lrun.exec, hpc] using h
  | probe =>
    simp only [Lrun.exec, hpc]
    split_ifs
    · exact h.frame rfl rfl (fun hl _ => by simp [hpc, Pc.untagged, Pc.inLoop, Pc.drained] at hl)
        (fun _ => rfl) (by simp [Pc.beforeSpawn])
    · exact h.move rfl rfl rfl (by rw [hpc]; rfl)
  | checkEmpty =>
    simp only [Lrun.exec, hpc]
    split_ifs
    · exact h.frame rfl rfl (fun _ _ => ⟨rfl, rfl⟩) (by simp) (by simp [Pc.beforeSpawn])
    · exact h.move rfl rfl rfl (by rw [hpc]; rfl)
  | sleep =>
    simp only [Lrun.exec, hpc]
    split_ifs with hr
    · exact h.frame rfl rfl (fun hl _ => by simp [hpc, hr, Pc.untagged, Pc.inLoop] at hl)
        (by simp) (by simp [Pc.beforeSpawn])
    · exact h.move rfl rfl rfl (by rw [hpc]; rfl)
  | _ =>
    simp only [Lrun.exec, hpc, limitCheck]
    (try split_ifs) <;> exact h.move rfl rfl rfl (by rw [hpc]; rfl)

theorem ReapInv.step (h : ReapInv s) (hs : Step cfg s s') : ReapInv s' := by
  cases hs with
  | exec => exact h.exec
  | env he => exact h.env he
  | signal sig => exact h.signal sig
  | kill => exact h.move rfl rfl rfl rfl
  | setup a hpc =>
    have hk : (killall s.world).child = s.world.child := by
      simp [killall, h.fresh (by simp [hpc, Pc.beforeSpawn])]
    unfold setupStep
    split
    · exact h.move rfl rfl rfl (by rw [hpc]; rfl)
    split_ifs <;> exact h.move hk rfl rfl (by rw [hpc]; rfl)
  | cloexec b hpc =>
    unfold cloexecStep
    split <;> exact h.move rfl rfl rfl (by rw [hpc]; rfl)
  | spawn pid hpc =>
    have hu := h.fresh (by simp [hpc, Pc.beforeSpawn])
    unfold spawnStep
    split
    · exact h.move rfl rfl rfl (by rw [hpc]; rfl)
    · exact ⟨fun hb => by simp [Pc.beforeSpawn] at hb, fun _ hz => by simp at hz,
        fun _ => h.unreaped (by simp [hu]), fun _ hr => by simp at hr, fun hp => by simp at hp⟩

theorem reapInv_reachable {w : World} (hw : w.Initial) (hr : Reachable cfg ⟨initSup, w⟩ s) :
    ReapInv s := by
  induction hr with
  | refl => exact .init hw
  | tail _ hs ih => exact ih.step hs

end

/-- What the record `r`, read in state `s`, says of the child's wait status. -/
structure StatusOk (cfg : Config) (s : Sys) (r : Record) : Prop where
  reaped : ∀ st, s.world.child = .reaped st →
    r.signaled = (if wifsignaled st then 1 else 0) ∧ r.exitcode = wexitstatus st ∧
      r.termsig = wtermsig st
  unreaped : (∀ st, s.world.child ≠ .reaped st) → r.signaled = 0 ∧ r.exitcode = 0 ∧ r.termsig = 0
  exit : ∀ c, s.sup.pc = .exited c → c = if cfg.passExitcode then (r.exitcode : ℤ) else 0

/-- In every run, the record's `SIGNALED`, `EXITCODE` and `TERMSIG` are those
of the child's wait status when lrun has reaped the child, and those of 0 when
it has not; lrun's exit code after the record follows `EXITCODE`. -/
theorem record_status {cfg : Config} {s : Sys} {w : World} (hw : w.Initial)
    (hr : Reachable cfg ⟨initSup, w⟩ s) {r : Record} (hrec : s.sup.record = some r) :
    StatusOk cfg s r := by
  have h := reapInv_reachable hw hr
  obtain ⟨-, rfl⟩ := (reportInv_reachable hw hr).written r hrec
  refine ⟨fun st hc => ?_, fun hu => ?_, fun _ hx => exitCode_of_record hw hr hrec hx⟩
  · simp [(h.reaped st hc).1]
  · simp [h.unreaped hu]; decide

theorem record_status_sigxcpu_run :
    ∃ s r, Reachable runConfig ⟨initSup, .fresh⟩ s ∧ s.sup.record = some r ∧
      StatusOk runConfig s r := by
  obtain ⟨s, hs, hv, -⟩ := sigxcpu_run
  obtain ⟨r, hr, -⟩ := Option.map_eq_some'.1 hv
  exact ⟨s, r, hs, hr, record_status World.fresh_initial hs hr⟩

/-- What `lrun --pass-exitcode true ls` runs with, for a caller with uid and gid 1000. -/
def passExitcodeConfig : Config :=
  { (initDefaultConfig 1000 1000).withCommand 3 4 with passExitcode := true }

/-- With `--pass-exitcode true`, the child exits with status 1 after the
iteration's `waitpid` and before its `cg.empty()`. The loop stops on
`running = false` without reaping it: the record says `EXITCODE 0` and lrun
exits with 0, while the child is a zombie holding exit status 1. -/
theorem exit_status_lost :
    (∀ pf sc fs, sc.toBool "true" = true →
      Launches pf sc fs 1000 1000 ["lrun", "--pass-exitcode", "true", "ls"] passExitcodeConfig) ∧
    wexitstatus (exitedStatus 1) = 1 ∧
    ∃ s, Reachable passExitcodeConfig ⟨initSup, .fresh⟩ s ∧
      s.world.child = .zombie (exitedStatus 1) ∧ s.sup.pc = .exited 0 ∧
      ∃ r, s.sup.record = some r ∧ r.exceed = none ∧ r.signaled = 0 ∧ r.exitcode = 0 := by
  let cfg := passExitcodeConfig
  let s₁ := spawnStep 1 (cloexecStep false (setupStep cfg ⟨false, false, false, false⟩
    (exec cfg ⟨initSup, .fresh⟩)))
  let s₂ : Sys := { execN cfg 8 s₁ with world.child := .zombie (exitedStatus 1) }
  have h₂ : Reachable cfg ⟨initSup, .fresh⟩ s₂ :=
    ((reachable_spawned cfg .fresh).trans (reachable_execN cfg s₁ 8 (by decide))).tail
      (.env (.exit _ (by decide) (.inl rfl)))
  have hv : (execN cfg 9 s₂).sup.record.map (fun r => (r.exceed, r.signaled, r.exitcode)) =
      some (none, 0, 0) := by decide
  obtain ⟨r, hr, hv⟩ := Option.map_eq_some'.1 hv
  simp only [Prod.mk.injEq] at hv
  refine ⟨fun pf sc fs h1 => ⟨?_, rfl⟩, rfl, _, h₂.trans (reachable_execN cfg s₂ 9 (by decide)),
    by decide, by decide, r, hr, hv⟩
  have hp : parseCliOptions pf sc ["lrun", "--pass-exitcode", "true", "ls"]
      (initDefaultConfig 1000 1000) = .ok { passExitcodeConfig with passExitcode := sc.toBool "true" } :=
    rfl
  rw [hp, h1]
  rfl

/-- A move of the program counter that keeps the invariant of an untagged exit
when the child, `pid`, `running`, the tag and the record stay. -/
def Pc.keepsEnded (pc pc' : Pc) : Bool :=
  (!pc'.untagged || pc.untagged && (!pc.inLoop || pc'.inLoop) && (pc'.beforeSpawn || !pc.beforeSpawn)) &&
    (pc'.untagged || !pc'.started || !pc.untagged && pc.started)

/-- What lets the loop stop without a tag: the child is no longer running, or
its main thread has exited, so that `/proc` shows its leader as `Z`. -/
def Ended (w : World) : Prop := w.child ≠ .running ∨ w.leaderExited = true

/-- The invariant behind an untagged record: the child has its pid from the
spawn on, `running` is cleared only once the child has `Ended`, and after the
loop an empty tag means the child has `Ended`. -/
structure EndedInv (s : Sys) : Prop where
  pid : s.sup.pc.untagged → s.sup.pc.beforeSpawn = false → 0 < s.sup.pid
  idle : s.sup.pc.untagged → s.sup.running = false → s.sup.pc.inLoop ∧ Ended s.world
  done : (s.sup.pc.untagged = false ∧ s.sup.pc.started) ∨ s.sup.record.isSome →
    s.sup.exceeded = none → Ended s.world

section
variable {cfg : Config} {s s' : Sys}

theorem Pc.keepsEnded_self (pc : Pc) : pc.keepsEnded pc := by
  cases pc <;> rfl

theorem Pc.keepsEnded_killed (pc : Pc) (sig : ℕ) : pc.keepsEnded (.killed sig) := by
  cases pc <;> rfl

/-- `waitpid` answers with the child's pid only when it reaps a zombie. -/
theorem waitpid_pid_ended {w : World} {pid : ℤ} {stat : ℕ} (hp : 0 < pid)
    (h : (waitpid w pid stat).1 = pid) : (waitpid w pid stat).2.2.child ≠ .running := by
  unfold waitpid at h ⊢
  split at h <;> simp_all

/-- The zombie check reads `Z` for a child that has ended, or whose main thread has. -/
theorem getProcessState_ended {w : World} (h : getProcessState w = 'Z') : Ended w := by
  unfold getProcessState at h
  split at h
  · exact .inr (by simpa using h)
  all_goals exact .inl (by simp_all)

theorem cgEmpty_ended {w : World} (h : cgEmpty w = true) : Ended w := by
  simp only [cgEmpty, Bool.and_eq_true, decide_eq_true_eq] at h
  exact .inl h.1

/-- Nothing but `cg.spawn` starts the child, and a main thread that exited stays gone. -/
theorem EnvStep.ended {w w' : World} (he : EnvStep w w') (h : Ended w) : Ended w' := by
  cases he with
  | exit => exact .inl nofun
  | leaderExit => exact .inr rfl
  | tick hc _ _ hl =>
    unfold Ended
    rw [hc, hl]
    exact h
  | fork | othersExit | proc => exact h

theorem Ended.waitpid {w : World} (h : Ended w) (pid : ℤ) (stat : ℕ) :
    Ended (waitpid w pid stat).2.2 := by
  obtain ⟨c, hc⟩ := waitpid_world w pid stat
  rcases h with h | h
  · exact .inl fun h' => h ((waitpid_running w pid stat).mp h')
  · exact .inr (by rw [hc]; exact h)

/-- `killall` leaves no child running. -/
theorem killall_not_running (w : World) : (killall w).child ≠ .running := by
  unfold killall
  split_ifs with h
  · nofun
  · exact h

/-- A step that starts no child and keeps `pid`, `running`, the tag and the record. -/
theorem EndedInv.move (h : EndedInv s) (hw : Ended s.world → Ended s'.world)
    (hpid : s'.sup.pid = s.sup.pid) (hrun : s'.sup.running = s.sup.running)
    (hex : s'.sup.exceeded = s.sup.exceeded) (hrec : s'.sup.record = s.sup.record)
    (hpc : s.sup.pc.keepsEnded s'.sup.pc) : EndedInv s' := by
  simp only [Pc.keepsEnded, Bool.and_eq_true, Bool.or_eq_true, Bool.not_eq_true'] at hpc
  obtain ⟨hu, hd⟩ := hpc
  refine ⟨fun hu' hb => ?_, fun hu' hr => ?_, fun hs he => ?_⟩
  · obtain hu | ⟨⟨hu0, -⟩, hb0⟩ := hu
    · simp [hu] at hu'
    · exact hpid ▸ h.pid hu0 (hb0.resolve_left (by simp [hb]))
  · obtain hu | ⟨⟨hu0, hl⟩, -⟩ := hu
    · simp [hu] at hu'
    · obtain ⟨hl0, hc0⟩ := h.idle hu0 (hrun ▸ hr)
      exact ⟨hl.resolve_left (by simp [hl0]), hw hc0⟩
  · have hs0 : (s.sup.pc.untagged = false ∧ s.sup.pc.started) ∨ s.sup.record.isSome := by
      rw [hrec] at hs
      refine hs.imp_left fun ⟨hu', hs'⟩ => ?_
      obtain (hd | hd) | hd := hd
      · simp [hd] at hu'
      · simp [hd] at hs'
      · exact hd
    exact hw (h.done hs0 (hex ▸ he))

/-- Past the loop with a tag, nothing is asked of the child. -/
theorem EndedInv.of_tagged (hu : s.sup.pc.untagged = false) (he : s.sup.exceeded ≠ none) :
    EndedInv s :=
  ⟨fun h => absurd h (by simp [hu]), fun h => absurd h (by simp [hu]), fun _ h => absurd h he⟩

theorem EndedInv.init {w : World} : EndedInv ⟨initSup, w⟩ :=
  ⟨fun _ => nofun, fun _ => nofun, fun h => by rcases h with ⟨h, -⟩ | h <;> cases h⟩

/-- Every statement of lrun keeps the invariant: the loop clears `running` after
the zombie check or `cg.empty()`, and leaves untagged after a reaping `waitpid`
or with `running` cleared. -/
theorem EndedInv.exec (h : EndedInv s) : EndedInv (exec cfg s) := by
  cases hpc : s.sup.pc with
  | reap =>
    have hp := h.pid (by rw [hpc]; rfl) (by rw [hpc]; rfl)
    simp only [Lrun.exec, hpc]
    split_ifs with hr
    · -- `waitpid` answered with the pid: the child is reaped
      exact ⟨nofun, nofun, fun _ _ => .inl (waitpid_pid_ended hp hr.1)⟩
    · exact h.move (·.waitpid _ _) rfl rfl rfl rfl (by rw [hpc]; rfl)
  | probe =>
    simp only [Lrun.exec, hpc]
    split_ifs with hz
    · exact ⟨fun _ _ => h.pid (by rw [hpc]; rfl) (by rw [hpc]; rfl),
        fun _ _ => ⟨rfl, getProcessState_ended hz⟩, fun hd => h.done (.inr (hd.resolve_left nofun))⟩
    · exact h.move id rfl rfl rfl rfl (by rw [hpc]; rfl)
  | checkEmpty =>
    simp only [Lrun.exec, hpc]
    split_ifs with he
    · exact ⟨fun _ _ => h.pid (by rw [hpc]; rfl) (by rw [hpc]; rfl),
        fun _ _ => ⟨rfl, cgEmpty_ended he⟩, fun hd => h.done (.inr (hd.resolve_left nofun))⟩
    · exact h.move id rfl rfl rfl rfl (by rw [hpc]; rfl)
  | sleep =>
    simp only [Lrun.exec, hpc]
    split_ifs with hr
    · exact h.move id rfl rfl rfl rfl (by rw [hpc]; rfl)
    · -- the loop ends with `running` cleared
      exact ⟨nofun, nofun, fun _ _ => (h.idle (by rw [hpc]; rfl) (by simpa using hr)).2⟩
  | report =>
    simp only [Lrun.exec, hpc]
    exact ⟨nofun, nofun, fun _ he => h.done (.inl ⟨by rw [hpc]; rfl, by rw [hpc]; rfl⟩) he⟩
  | cleanup code =>
    simp only [Lrun.exec, hpc]
    refine h.move (fun _ => .inl ?_) rfl rfl rfl rfl (by rw [hpc]; rfl)
    unfold cleanCgExit
    split_ifs <;> exact killall_not_running _
  | checkCpu | checkReal | checkMemory | checkOutput | collectMemory | collectCpu | collectOutput
  | collectReal =>
    simp only [Lrun.exec, hpc, limitCheck]
    split_ifs <;> first
      | exact h.move id rfl rfl rfl rfl (by rw [hpc]; rfl)
      | exact .of_tagged rfl (by simp)
  | reapZombie =>
    simp only [Lrun.exec, hpc]
    split_ifs <;> exact h.move (·.waitpid _ _) rfl rfl rfl rfl (by rw [hpc]; rfl)
  | lock | handlers | start | checkSignal =>
    simp only [Lrun.exec, hpc]
    (try split_ifs) <;> exact h.move id rfl rfl rfl rfl (by rw [hpc]; rfl)
  | setup | cloexec | spawn | exited | killed => simpa only [Lrun.exec, hpc] using h

theorem EndedInv.step (hR : ReportInv cfg s) (h : EndedInv s) (hs : Step cfg s s') :
    EndedInv s' := by
  cases hs with
  | exec => exact h.exec
  | env he => exact h.move he.ended rfl rfl rfl rfl (Pc.keepsEnded_self _)
  | signal sig =>
    unfold deliver
    split_ifs
    · exact h.move id rfl rfl rfl rfl (Pc.keepsEnded_self _)
    · exact h.move id rfl rfl rfl rfl (Pc.keepsEnded_killed _ _)
  | kill sig => exact h.move id rfl rfl rfl rfl (Pc.keepsEnded_killed _ _)
  | setup a hpc =>
    unfold setupStep
    split
    · exact h.move id rfl rfl rfl rfl (by rw [hpc]; rfl)
    · split_ifs <;>
        exact h.move (fun _ => .inl (killall_not_running _)) rfl rfl rfl rfl (by rw [hpc]; rfl)
  | cloexec b hpc =>
    unfold cloexecStep
    split_ifs <;> exact h.move id rfl rfl rfl rfl (by rw [hpc]; rfl)
  | spawn pid hpc =>
    unfold spawnStep
    split_ifs with hp
    · exact h.move id rfl rfl rfl rfl (by rw [hpc]; rfl)
    · -- the child starts: `running` is still set and nothing is written yet
      have hn := hR.record_none (by rw [hpc]; rfl)
      refine ⟨fun _ _ => not_le.mp hp, fun _ hr => ?_, fun hd => ?_⟩
      · exact absurd (h.idle (by rw [hpc]; rfl) hr).1 (by rw [hpc]; decide)
      · rcases hd with ⟨hu, -⟩ | hd
        · cases hu
        · simp [hn] at hd

theorem endedInv_reachable {w : World} (hw : w.Initial) (hr : Reachable cfg ⟨initSup, w⟩ s) :
    EndedInv s := by
  induction hr with
  | refl => exact .init
  | tail hr' hs ih => exact ih.step (reportInv_reachable hw hr') hs

end

/-- In every run, a record without an `EXCEED` tag is written only for a child
that is no longer running, or whose main thread has exited. The loop ends
untagged only after `waitpid` has reaped the child, the zombie check has read
`Z`, or `cg.empty()` has found the group without the child; the samples after
the loop may add a tag but never remove one, and `clean_cg_exit` kills what is
left only after the record. -/
theorem untagged_record_child_ended {cfg : Config} {s : Sys} {w : World} (hw : w.Initial)
    (hr : Reachable cfg ⟨initSup, w⟩ s) {r : Record} (hrec : s.sup.record = some r)
    (he : r.exceed = none) : s.world.child ≠ .running ∨ s.world.leaderExited = true := by
  obtain ⟨-, rfl⟩ := (reportInv_reachable hw hr).written r hrec
  exact (endedInv_reachable hw hr).done (.inr (by simp [hrec])) he

/-- `lrun ls` whose child's main thread exits as the loop starts, its other
threads running on: the zombie check reads `Z`, `waitpid` reports nothing, and
the record is written untagged with the child still running. -/
theorem untagged_record_leader_exited :
    ∃ s r, Reachable runConfig ⟨initSup, .fresh⟩ s ∧ s.sup.record = some r ∧
      r.exceed = none ∧ s.world.child = .running ∧
      (s.world.child ≠ .running ∨ s.world.leaderExited = true) := by
  let s₄ := spawnStep 1 (cloexecStep false (setupStep runConfig ⟨false, false, false, false⟩
    (exec runConfig ⟨initSup, .fresh⟩)))
  let s₅ : Sys := { execN runConfig 2 s₄ with world.leaderExited := true }
  have h₅ : Reachable runConfig ⟨initSup, .fresh⟩ s₅ :=
    ((reachable_spawned runConfig .fresh).trans (reachable_execN runConfig s₄ 2 (by decide))).tail
      (.env (.leaderExit rfl))
  have hs := h₅.trans (reachable_execN runConfig s₅ 15 (by decide))
  have hv : (execN runConfig 15 s₅).sup.record.map Record.exceed = some none := by decide
  obtain ⟨r, hr, he⟩ := Option.map_eq_some'.1 hv
  exact ⟨_, r, hs, hr, he, by decide, untagged_record_child_ended World.fresh_initial hs hr he⟩

end Lrun
