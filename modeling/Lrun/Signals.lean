import Lrun.Report

/-!
# Signals and the ways out

`main` installs nothing before `run_command` has spawned the child: the
handlers that turn SIGHUP, SIGINT, SIGTERM, SIGQUIT, SIGABRT, SIGFPE, SIGILL
and SIGTRAP into `signal_triggered` come only after `cg.spawn` returns. A
signal delivered while lrun waits for the cgroup lock, runs `setup_cgroup` or
spawns the child takes its default action and ends lrun on the spot, with the
cgroup it made still there and, after the spawn, the child still running. A
caught signal delivered after the loop's last check is never looked at. Any
signal the handlers do not catch, SIGKILL among them, ends lrun at any point
without `clean_cg_exit`.

Once the record is written, `clean_cg_exit` gets what `run_command` returns:
the child's exit status under `--pass-exitcode`, and 0 without.
-/

namespace Lrun

/-- After the record, the code `clean_cg_exit` gets is what `run_command` returns. -/
def ExitCodeInv (cfg : Config) (s : Sys) : Prop :=
  s.sup.record.isSome → ∀ c, (s.sup.pc = .cleanup c ∨ s.sup.pc = .exited c) →
    c = if cfg.passExitcode then (wexitstatus s.sup.stat : ℤ) else 0

section
variable {cfg : Config} {s s' : Sys}

theorem ExitCodeInv.of_none (h : s.sup.record = none) : ExitCodeInv cfg s := fun hs => by
  simp [h] at hs

/-- Ended by a signal, lrun passes no code on. -/
theorem ExitCodeInv.killed (sig : ℕ) : ExitCodeInv cfg (s.goto (.killed sig)) := fun _ c hc => by
  rcases hc with hc | hc <;> cases hc

/-- `report` hands `run_command`'s return value to `clean_cg_exit`, which
passes it on to `exit`. -/
theorem ExitCodeInv.exec (hR : ReportInv cfg s) (h : ExitCodeInv cfg s) :
    ExitCodeInv cfg (exec cfg s) := by
  cases hpc : s.sup.pc with
  | report =>
    intro _ c hc
    simp only [Lrun.exec, hpc] at hc ⊢
    rcases hc with hc | hc <;> cases hc
    rfl
  | cleanup code =>
    intro hs c hc
    simp only [Lrun.exec, hpc] at hc hs ⊢
    rcases hc with hc | hc <;> cases hc
    exact h hs code (.inl hpc)
  | exited | killed => simpa only [Lrun.exec, hpc] using h
  | _ => exact .of_none ((exec_record cfg (by rw [hpc]; nofun)).trans
      (hR.record_none (by rw [hpc]; rfl)))

theorem ExitCodeInv.step (hR : ReportInv cfg s) (h : ExitCodeInv cfg s) (hs : Step cfg s s') :
    ExitCodeInv cfg s' := by
  cases hs with
  | exec => exact h.exec hR
  | env => exact h
  | signal sig =>
    unfold deliver
    split
    · exact h
    · exact .killed sig
  | kill sig => exact .killed sig
  | setup a hpc =>
    refine .of_none ?_
    unfold setupStep
    split <;> (try split_ifs) <;> exact hR.record_none (by rw [hpc]; rfl)
  | cloexec b hpc =>
    refine .of_none ?_
    unfold cloexecStep
    split <;> exact hR.record_none (by rw [hpc]; rfl)
  | spawn pid hpc =>
    refine .of_none ?_
    unfold spawnStep
    split <;> exact hR.record_none (by rw [hpc]; rfl)

theorem exitCodeInv_reachable {w : World} (hw : w.Initial) (hr : Reachable cfg ⟨initSup, w⟩ s) :
    ExitCodeInv cfg s := by
  induction hr with
  | refl => exact .of_none rfl
  | tail hr' hs ih => exact ih.step (reportInv_reachable hw hr') hs

/-- After the record, lrun exits with the child's exit status under
`--pass-exitcode`, and with 0 without. -/
theorem exitCode_of_record {w : World} (hw : w.Initial) (hr : Reachable cfg ⟨initSup, w⟩ s)
    {r : Record} {c : ℤ} (hrec : s.sup.record = some r) (hx : s.sup.pc = .exited c) :
    c = if cfg.passExitcode then (r.exitcode : ℤ) else 0 := by
  rw [exitCodeInv_reachable hw hr (by simp [hrec]) c (.inr hx),
    ((reportInv_reachable hw hr).written r hrec).2, Sup.report_exitcode]

end

/-- `lrun ls` in which the child exits during the first iteration and SIGTERM
arrives after the loop's last check. -/
theorem late_signal_run :
    ∃ s, Reachable runConfig ⟨initSup, .fresh⟩ s ∧ s.sup.signal = sigterm ∧
      s.sup.pc = .exited 0 ∧ s.sup.record.isSome := by
  let s₁ := spawnStep 1 (cloexecStep false (setupStep runConfig ⟨false, false, false, false⟩
    (exec runConfig ⟨initSup, .fresh⟩)))
  let s₂ : Sys := { execN runConfig 8 s₁ with world.child := .zombie 0 }
  let s₃ : Sys := deliver sigterm (execN runConfig 2 s₂)
  have h₂ : Reachable runConfig ⟨initSup, .fresh⟩ s₂ :=
    ((reachable_spawned runConfig .fresh).trans (reachable_execN runConfig s₁ 8 (by decide))).tail
      (.env (.exit 0 (by decide) (.inl rfl)))
  have h₃ : Reachable runConfig ⟨initSup, .fresh⟩ s₃ :=
    (h₂.trans (reachable_execN runConfig s₂ 2 (by decide))).tail
      (.signal sigterm (.inr (.inr (.inl rfl))) (by decide))
  exact ⟨_, h₃.trans (reachable_execN runConfig s₃ 7 (by decide)), by decide, by decide, by decide⟩

/-- `lrun ls`, which `check_config` lets through for a caller with uid and gid
1000, owns its cgroup. SIGTERM right after `cg.spawn`, before the handlers are
installed, kills lrun with the child running and the group still there; SIGTERM
after the loop's last check is never seen: lrun writes its record and exits
with 0. -/
theorem signal_escapes_cleanup :
    (∀ pf sc fs, Launches pf sc fs 1000 1000 ["lrun", "ls"] runConfig) ∧ runConfig.cgname = "" ∧
    (∃ s, Reachable runConfig ⟨initSup, .fresh⟩ s ∧ s.sup.pc = .killed sigterm ∧
      s.world.child = .running ∧ s.world.cgroup = true) ∧
    (∃ s, Reachable runConfig ⟨initSup, .fresh⟩ s ∧ s.sup.signal = sigterm ∧
      s.sup.pc = .exited 0 ∧ s.sup.record.isSome) :=
  ⟨fun _ _ _ => ⟨rfl, rfl⟩, rfl, ⟨_, (reachable_spawned _ _).tail
    (.signal sigterm (.inr (.inr (.inl rfl))) rfl), rfl, rfl, rfl⟩, late_signal_run⟩

end Lrun
