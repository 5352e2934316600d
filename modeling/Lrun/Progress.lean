import Lrun.Supervisor

/-!
# Leaving the loop

Two ways the monitoring loop is bound to end, whatever the kernel and the
signals do meanwhile. When the child has terminated and no other task is left
in the group, `cg.empty()` holds at the next check, `running` turns false, and
the samples, the record and `clean_cg_exit` follow: only a running child can
fork, and a signal is either recorded or ends lrun. When the condition of one
of the loop's limit checks holds, it keeps holding, since the counters and the
clock only grow, and the check breaks the loop the next time lrun reaches it.

Both rest on one argument: a budget of lrun's own remaining statements that
every statement of lrun lowers and no other step raises (`exits_within`,
`Reachable.keeps`).
-/

namespace Lrun

/-- A budget that every statement of lrun lowers while `I` holds: lrun's own
statements lead it out within that budget. -/
theorem exits_within {cfg : Config} {I : Sys → Prop} (b : Sys → ℕ)
    (hexec : ∀ s, I s → s.sup.pc.live → s.sup.pc.byExec ∧ I (exec cfg s) ∧ b (exec cfg s) < b s)
    (s : Sys) (h : I s) :
    ∃ n ≤ b s, Reachable cfg s (execN cfg n s) ∧ (execN cfg n s).sup.pc.live = false := by
  by_cases hl : s.sup.pc.live
  · obtain ⟨hb, h', hlt⟩ := hexec s h hl
    obtain ⟨n, hn, hr, hx⟩ := exits_within b hexec (exec cfg s) h'
    exact ⟨n + 1, by omega, .head (.exec hb) hr, hx⟩
  · exact ⟨0, Nat.zero_le _, .refl, by simpa using hl⟩
termination_by b s

/-- What every step keeps, with a budget no step raises, holds along every run. -/
theorem Reachable.keeps {cfg : Config} {I : Sys → Prop} (b : Sys → ℕ)
    (hstep : ∀ {s s'}, I s → Step cfg s s' → I s' ∧ b s' ≤ b s) {s s' : Sys} (h : I s)
    (hr : Reachable cfg s s') : I s' ∧ b s' ≤ b s := by
  induction hr with
  | refl => exact ⟨h, le_rfl⟩
  | tail _ hs ih => exact (hstep ih.1 hs).imp_right (le_trans · ih.2)

/-! ## Once the group is empty -/

/-- The statements lrun may still run once the group is empty, at most. -/
def Pc.budget (running : Bool) : Pc → ℕ
  | .handlers => 18
  | .start => 17
  | .checkSignal => 16
  | .reap => 15
  | .checkCpu => 14
  | .checkReal => 13
  | .checkMemory => 12
  | .probe => 11
  | .reapZombie => 10
  | .checkOutput => 9
  | .checkEmpty => 8
  | .sleep => if running then 17 else 7
  | .collectMemory => 6
  | .collectCpu => 5
  | .collectOutput => 4
  | .collectReal => 3
  | .report => 2
  | .cleanup _ => 1
  | .lock | .setup | .cloexec | .spawn | .exited _ | .killed _ => 0

def Sys.left (s : Sys) : ℕ := s.sup.pc.budget s.sup.running

theorem Sys.left_le (s : Sys) : s.left ≤ 18 := by
  unfold Sys.left Pc.budget
  split <;> (try split_ifs) <;> decide

/-- After `cg.spawn` has returned. -/
def Pc.spawned : Pc → Bool
  | .lock | .setup | .cloexec | .spawn => false
  | _ => true

/-- The child has terminated, no other task is left, and the spawn is behind. -/
structure Emptied (s : Sys) : Prop where
  child : s.world.child ≠ .running
  others : s.world.others = false
  spawned : s.sup.pc.spawned

section
variable {cfg : Config} {s s' : Sys}

theorem Pc.byExec_of_spawned {pc : Pc} (hs : pc.spawned) (hl : pc.live) : pc.byExec := by
  cases pc <;> first | rfl | (cases hs; done) | cases hl

theorem Pc.live_of_byExec {pc : Pc} (hb : pc.byExec) : pc.live := by
  cases pc <;> first | rfl | cases hb

theorem Pc.spawned_flow {pc pc' : Pc} (hs : pc.spawned) (hf : pc.flow pc') : pc'.spawned := by
  cases pc <;> simp only [Pc.flow] at hf <;>
    (first | (rcases hf with rfl | rfl) | (obtain ⟨_, rfl⟩ := hf)) <;> first | rfl | exact hs

/-- Along the control flow the budget drops at every statement, as long as the
loop goes round again only while `running` and `cg.empty()` ends it. -/
theorem Pc.budget_flow {pc pc' : Pc} {r r' : Bool} (hs : pc.spawned) (hl : pc.live)
    (hf : pc.flow pc') (hsleep : pc = .sleep → pc' = .checkSignal → r = true)
    (hempty : pc = .checkEmpty → r' = false) : pc'.budget r' < pc.budget r := by
  cases pc with
  | lock | setup | cloexec | spawn => cases hs
  | exited | killed => cases hl
  | checkEmpty =>
    cases hf
    rw [hempty rfl]
    cases r <;> decide
  | sleep =>
    rcases hf with rfl | rfl
    · rw [hsleep rfl rfl]
      cases r' <;> decide
    · cases r <;> cases r' <;> decide
  | _ =>
    simp only [Pc.flow] at hf
    first | (rcases hf with rfl | rfl) | (obtain ⟨_, rfl⟩ := hf)
    all_goals simp [Pc.budget]

/-- One statement of lrun keeps the group empty and uses up its budget. -/
theorem Emptied.exec (h : Emptied s) (hl : s.sup.pc.live) :
    Emptied (exec cfg s) ∧ (exec cfg s).left < s.left := by
  have hw : (Lrun.exec cfg s).world.child ≠ .running ∧ (Lrun.exec cfg s).world.others = false := by
    rcases exec_world cfg s with hw | hw | hw <;> rw [hw]
    · exact ⟨h.child, h.others⟩
    · simp [h.child, h.others]
    · unfold cleanCgExit destroy killall
      split_ifs <;> simp [h.child]
  have he : cgEmpty s.world = true := by simp [cgEmpty, h.child, h.others]
  have hf := exec_flow cfg s
  refine ⟨⟨hw.1, hw.2, Pc.spawned_flow h.spawned hf⟩, Pc.budget_flow h.spawned hl hf ?_ ?_⟩
  · -- the loop goes round again only while `running`
    intro hpc
    simp only [Lrun.exec, hpc]
    split_ifs with hr <;> simp [hr, Sys.goto]
  · -- `cg.empty()` turns `running` false
    intro hpc
    simp [Lrun.exec, hpc, he]

/-- Nothing outside lrun can refill the group, and a signal only records itself
or ends lrun. -/
theorem Emptied.step (h : Emptied s) (hs : Step cfg s s') : Emptied s' ∧ s'.left ≤ s.left := by
  cases hs with
  | exec hb => exact (h.exec (Pc.live_of_byExec hb)).imp_right le_of_lt
  | setup _ hpc | cloexec _ hpc | spawn _ hpc => have := h.spawned; simp [hpc, Pc.spawned] at this
  | env he =>
    refine ⟨?_, le_rfl⟩
    cases he with
    | exit _ hr | fork hr | leaderExit hr => exact absurd hr h.child
    | othersExit => exact ⟨h.child, rfl, h.spawned⟩
    | proc => exact ⟨h.child, h.others, h.spawned⟩
    | tick hc ho => exact ⟨hc ▸ h.child, ho ▸ h.others, h.spawned⟩
  | signal sig =>
    unfold deliver
    split_ifs
    · exact ⟨⟨h.child, h.others, h.spawned⟩, le_rfl⟩
    · exact ⟨⟨h.child, h.others, rfl⟩, Nat.zero_le _⟩
  | kill => exact ⟨⟨h.child, h.others, rfl⟩, Nat.zero_le _⟩

end

/-- Once the child has terminated and no other task is left, the group stays
empty whatever the kernel, a signal or lrun does next; no step adds to what
lrun has left, at most 18 statements; and from every later state lrun's own
statements lead it out within what it has left. -/
theorem exits_once_empty {cfg : Config} {s s' : Sys} (h : Emptied s) (hr : Reachable cfg s s') :
    Emptied s' ∧ s'.left ≤ s.left ∧ s.left ≤ 18 ∧
      ∃ n ≤ s'.left, Reachable cfg s' (execN cfg n s') ∧ (execN cfg n s').sup.pc.live = false := by
  obtain ⟨h', hle⟩ := Reachable.keeps Sys.left (fun h hs => h.step hs) h hr
  exact ⟨h', hle, s.left_le, exits_within Sys.left
    (fun _ h hl => ⟨Pc.byExec_of_spawned h.spawned hl, h.exec hl⟩) s' h'⟩

/-- `lrun ls` whose child exits with status 0 as the loop starts. -/
theorem exits_once_empty_zombie :
    ∃ s, Reachable runConfig ⟨initSup, .fresh⟩ s ∧ Emptied s ∧
      (Emptied s ∧ s.left ≤ s.left ∧ s.left ≤ 18 ∧
        ∃ n ≤ s.left, Reachable runConfig s (execN runConfig n s) ∧
          (execN runConfig n s).sup.pc.live = false) := by
  let s₄ := spawnStep 1 (cloexecStep false (setupStep runConfig ⟨false, false, false, false⟩
    (exec runConfig ⟨initSup, .fresh⟩)))
  let s₅ : Sys := { execN runConfig 2 s₄ with world.child := .zombie (exitedStatus 0) }
  have hr : Reachable runConfig ⟨initSup, .fresh⟩ s₅ :=
    ((reachable_spawned runConfig .fresh).trans (reachable_execN runConfig s₄ 2 (by decide))).tail
      (.env (.exit _ rfl (.inl (by decide))))
  have h : Emptied s₅ := ⟨by decide, rfl, rfl⟩
  exact ⟨s₅, hr, h, exits_once_empty h .refl⟩

/-! ## Once a limit is reached -/

/-- The check of each limit in the loop. -/
def Limit.check : Limit → Pc
  | .cpuTime => .checkCpu
  | .realTime => .checkReal
  | .memory => .checkMemory
  | .output => .checkOutput

/-- The condition the loop's check of a limit tests. -/
def Limit.hit (cfg : Config) (s : Sys) : Limit → Prop
  | .cpuTime => cfg.cpuTimeLimit > 0 ∧ s.world.cpu ≥ cfg.cpuTimeLimit
  | .realTime => s.sup.deadline > 0 ∧ s.world.clock ≥ s.sup.deadline
  | .memory => s.world.memoryPeak ≥ cfg.memoryLimit ∧ cfg.memoryLimit > 0
  | .output => cfg.outputLimit > 0 ∧ s.world.output > cfg.outputLimit

/-- The place of each statement of the loop, from the signal check on. -/
def Pc.loopIndex : Pc → ℕ
  | .reap => 1
  | .checkCpu => 2
  | .checkReal => 3
  | .checkMemory => 4
  | .probe => 5
  | .reapZombie => 6
  | .checkOutput => 7
  | .checkEmpty => 8
  | .sleep => 9
  | _ => 0

/-- The statements lrun may still run when the check at place `k` of the loop
is bound to fire: round the loop to that check, then the samples, the record
and `clean_cg_exit`. -/
def Pc.toExit (k : ℕ) (pc : Pc) : ℕ :=
  match pc with
  | .lock | .setup | .cloexec | .spawn | .handlers | .start | .exited _ | .killed _ => 0
  | .checkSignal | .reap | .checkCpu | .checkReal | .checkMemory | .probe | .reapZombie
  | .checkOutput | .checkEmpty | .sleep => (k + 10 - pc.loopIndex) % 10 + 7
  | .collectMemory => 6
  | .collectCpu => 5
  | .collectOutput => 4
  | .collectReal => 3
  | .report => 2
  | .cleanup _ => 1

def Sys.toExit (l : Limit) (s : Sys) : ℕ := s.sup.pc.toExit l.check.loopIndex

theorem Sys.toExit_le (l : Limit) (s : Sys) : s.toExit l ≤ 16 := by
  unfold Sys.toExit Pc.toExit
  split <;> omega

/-- From the first check of the loop on. -/
def Pc.pastStart : Pc → Bool
  | .lock | .setup | .cloexec | .spawn | .handlers | .start => false
  | _ => true

/-- Past the start of the loop, with the condition of the check of `l` met. -/
structure Doomed (cfg : Config) (l : Limit) (s : Sys) : Prop where
  pastStart : s.sup.pc.pastStart
  hit : l.hit cfg s

section
variable {cfg : Config} {l : Limit} {s s' : Sys}

/-- The conditions only grow with the counters and the clock. -/
theorem Limit.hit_mono (h : l.hit cfg s) (hc : s.world.cpu ≤ s'.world.cpu)
    (hm : s.world.memoryPeak ≤ s'.world.memoryPeak) (ho : s.world.output ≤ s'.world.output)
    (hk : s.world.clock ≤ s'.world.clock) (hd : s'.sup.deadline = s.sup.deadline) :
    l.hit cfg s' := by
  cases l with
  | cpuTime => exact ⟨h.1, h.2.trans hc⟩
  | realTime => exact ⟨hd ▸ h.1, hd ▸ h.2.trans hk⟩
  | memory => exact ⟨h.1.trans hm, h.2⟩
  | output => exact ⟨h.1, h.2.trans_le ho⟩

/-- A check whose condition holds breaks the loop. -/
theorem Limit.check_fires (h : l.hit cfg s) (hpc : s.sup.pc = l.check) :
    (exec cfg s).sup.pc = .collectMemory := by
  cases l <;> simp only [Limit.check] at hpc <;> simp only [Limit.hit] at h <;>
    simp [Lrun.exec, hpc, limitCheck, h]

theorem Pc.byExec_of_pastStart {pc : Pc} (hp : pc.pastStart) (hl : pc.live) : pc.byExec := by
  cases pc <;> first | rfl | (cases hp; done) | cases hl

theorem Pc.pastStart_flow {pc pc' : Pc} (hp : pc.pastStart) (hf : pc.flow pc') : pc'.pastStart := by
  cases pc <;> simp only [Pc.flow] at hf <;>
    (first | (rcases hf with rfl | rfl) | (obtain ⟨_, rfl⟩ := hf)) <;> first | rfl | exact hp

/-- Along the control flow the budget drops at every statement, as long as the
check of `l` breaks the loop. -/
theorem Pc.toExit_flow {pc pc' : Pc} (hp : pc.pastStart) (hl : pc.live) (hf : pc.flow pc')
    (hc : pc = l.check → pc' = .collectMemory) :
    pc'.toExit l.check.loopIndex < pc.toExit l.check.loopIndex := by
  cases pc with
  | lock | setup | cloexec | spawn | handlers | start => cases hp
  | exited | killed => cases hl
  | _ =>
    simp only [Pc.flow] at hf
    first | (rcases hf with rfl | rfl) | (obtain ⟨_, rfl⟩ := hf)
    all_goals cases l <;> first | decide | exact absurd (hc rfl) (by decide) | simp [Pc.toExit]

/-- One statement of lrun keeps the condition met and uses up its budget. -/
theorem Doomed.exec (h : Doomed cfg l s) (hl : s.sup.pc.live) :
    Doomed cfg l (exec cfg s) ∧ (exec cfg s).toExit l < s.toExit l := by
  have hf := exec_flow cfg s
  obtain ⟨hc, hm, ho, hk⟩ := exec_counters cfg s
  have hd : (Lrun.exec cfg s).sup.deadline = s.sup.deadline :=
    exec_deadline cfg fun hpc => by simpa [hpc, Pc.pastStart] using h.pastStart
  exact ⟨⟨Pc.pastStart_flow h.pastStart hf, Limit.hit_mono h.hit hc.ge hm.ge ho.ge hk.ge hd⟩,
    Pc.toExit_flow h.pastStart hl hf (Limit.check_fires h.hit)⟩

/-- The kernel only lets the counters and the clock grow, and a signal only
records itself or ends lrun. -/
theorem Doomed.step (h : Doomed cfg l s) (hs : Step cfg s s') :
    Doomed cfg l s' ∧ s'.toExit l ≤ s.toExit l := by
  cases hs with
  | exec hb => exact (h.exec (Pc.live_of_byExec hb)).imp_right le_of_lt
  | setup _ hpc | cloexec _ hpc | spawn _ hpc =>
    have := h.pastStart
    simp [hpc, Pc.pastStart] at this
  | env he =>
    obtain ⟨hc, hm, ho, hk⟩ := he.mono
    exact ⟨⟨h.pastStart, Limit.hit_mono h.hit hc hm ho hk rfl⟩, le_rfl⟩
  | signal sig =>
    unfold deliver
    split_ifs
    · exact ⟨⟨h.pastStart, Limit.hit_mono h.hit le_rfl le_rfl le_rfl le_rfl rfl⟩, le_rfl⟩
    · exact ⟨⟨rfl, Limit.hit_mono h.hit le_rfl le_rfl le_rfl le_rfl rfl⟩, Nat.zero_le _⟩
  | kill => exact ⟨⟨rfl, Limit.hit_mono h.hit le_rfl le_rfl le_rfl le_rfl rfl⟩, Nat.zero_le _⟩

end

/-- Once the condition of a limit's check holds inside the loop, the limit is
enforced. Whatever the kernel, a signal or lrun does next, the condition stays
met and no step adds to what lrun has left, at most 16 statements. From every
later state, lrun's own statements lead it out within what it has left: through
the check's break, an earlier way out of the loop, or a seen signal. -/
theorem limit_enforced {cfg : Config} {l : Limit} {s s' : Sys} (h : Doomed cfg l s)
    (hr : Reachable cfg s s') :
    Doomed cfg l s' ∧ s'.toExit l ≤ s.toExit l ∧ s.toExit l ≤ 16 ∧
      ∃ n ≤ s'.toExit l, Reachable cfg s' (execN cfg n s') ∧ (execN cfg n s').sup.pc.live = false := by
  obtain ⟨h', hle⟩ := Reachable.keeps (Sys.toExit l) (fun h hs => h.step hs) h hr
  exact ⟨h', hle, s.toExit_le l, exits_within (Sys.toExit l)
    (fun _ h hl => ⟨Pc.byExec_of_pastStart h.pastStart hl, h.exec hl⟩) s' h'⟩

/-- What `lrun --max-cpu-time 1 ls` runs with, for a caller with uid and gid 1000. -/
def cpuLimitConfig : Config := { (initDefaultConfig 1000 1000).withCommand 3 4 with cpuTimeLimit := 1 }

/-- The child uses 2 s of CPU time right after the loop's CPU check passed: lrun
goes round the loop once more and leaves. -/
theorem limit_enforced_cpu :
    (∀ pf sc fs, sc.toDouble "1" = 1 →
      Launches pf sc fs 1000 1000 ["lrun", "--max-cpu-time", "1", "ls"] cpuLimitConfig) ∧
    ∃ s, Reachable cpuLimitConfig ⟨initSup, .fresh⟩ s ∧ s.sup.pc = .checkReal ∧
      Doomed cpuLimitConfig .cpuTime s ∧ s.toExit .cpuTime ≤ 16 ∧
      ∃ n ≤ s.toExit .cpuTime, Reachable cpuLimitConfig s (execN cpuLimitConfig n s) ∧
        (execN cpuLimitConfig n s).sup.pc.live = false := by
  let cfg := cpuLimitConfig
  let s₄ := spawnStep 1 (cloexecStep false (setupStep cfg ⟨false, false, false, false⟩
    (exec cfg ⟨initSup, .fresh⟩)))
  let s₅ : Sys := { execN cfg 5 s₄ with world.cpu := 2 }
  have hr : Reachable cfg ⟨initSup, .fresh⟩ s₅ :=
    ((reachable_spawned cfg .fresh).trans (reachable_execN cfg s₄ 5 (by decide))).tail
      (.env (.useCpu (by decide)))
  have h : Doomed cfg .cpuTime s₅ := ⟨by decide, show (0 : ℚ) < 1 ∧ (1 : ℚ) ≤ 2 by norm_num⟩
  obtain ⟨-, -, hb, hx⟩ := limit_enforced h .refl
  refine ⟨fun pf sc fs h1 => ⟨?_, rfl⟩, s₅, hr, by decide, h, hb, hx⟩
  have hp : parseCliOptions pf sc ["lrun", "--max-cpu-time", "1", "ls"] (initDefaultConfig 1000 1000) =
      .ok { cpuLimitConfig with cpuTimeLimit := sc.toDouble "1" } := rfl
  rw [hp, h1]
  rfl

end Lrun
