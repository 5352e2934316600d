import Lrun.Supervisor

/-!
# The status record

What the record on fd 3 says, over every run: every interleaving of lrun's
steps with the child and the kernel, the counters and the clock only growing.
The record is the values `run_command` collects after the loop, the two times
rounded to thousandths by `%.3f`. Of the values collected: an `EXCEED` tag
names a limit that is set and that the cgroup's counter has reached, or a CPU
or output limit whose signal killed the child. A tag set in the loop is set
again by the checks after it, because the counters it read can only have
grown. The samples are clamped to the limits they reach.
-/

namespace Lrun

/-- The child was killed by SIGXCPU. -/
def Xcpu (stat : ℕ) : Prop := wifsignaled stat = true ∧ wtermsig stat = sigxcpu

/-- The child was killed by SIGXFSZ. -/
def Xfsz (stat : ℕ) : Prop := wifsignaled stat = true ∧ wtermsig stat = sigxfsz

/-- The counters and the clock are not negative. -/
def WorldOk (w : World) : Prop := 0 ≤ w.cpu ∧ 0 ≤ w.memoryPeak ∧ 0 ≤ w.output ∧ 0 ≤ w.clock

def Pc.inLoop : Pc → Bool
  | .checkSignal | .reap | .checkCpu | .checkReal | .checkMemory | .probe | .reapZombie
  | .checkOutput | .checkEmpty | .sleep => true
  | _ => false

/-- Untagged phases: before and inside the loop `exceeded_limit` is still empty. -/
def Pc.untagged : Pc → Bool
  | .lock | .setup | .cloexec | .spawn | .handlers | .start => true
  | pc => pc.inLoop

/-- How many of the four samples after the loop have been taken. -/
def Pc.collected : Pc → ℕ
  | .collectCpu => 1
  | .collectOutput => 2
  | .collectReal => 3
  | .report => 4
  | _ => 0

/-- After `start_time` is taken and before the record is written. -/
def Pc.started (pc : Pc) : Bool := pc.inLoop || pc = .collectMemory || pc.collected > 0

def Pc.finishing : Pc → Bool
  | .cleanup _ | .exited _ | .killed _ => true
  | _ => false

/-- A move of the program counter that keeps the invariant when no data changes. -/
def Pc.follows (pc pc' : Pc) : Bool :=
  (!pc'.started || pc.started) && (!pc'.untagged || pc.untagged) &&
    (!pc.finishing || pc'.finishing) && pc'.collected ≤ pc.collected

/-- Lrun may always be killed: nothing is collected or written there. -/
theorem Pc.follows_killed (pc : Pc) (sig : ℕ) : pc.follows (.killed sig) := by
  cases pc <;> rfl

/-- What `exceeded_limit` names has happened, by the counters now. -/
def TagOk (cfg : Config) (p : Sup) (w : World) : Prop :=
  match p.exceeded with
  | none => True
  | some .memory => cfg.memoryLimit > 0 ∧ cfg.memoryLimit ≤ w.memoryPeak
  | some .cpuTime => (cfg.cpuTimeLimit > 0 ∧ cfg.cpuTimeLimit ≤ w.cpu) ∨ Xcpu p.stat
  | some .realTime => cfg.realTimeLimit > 0 ∧ p.startTime + cfg.realTimeLimit ≤ w.clock
  | some .output => (cfg.outputLimit > 0 ∧ cfg.outputLimit < w.output) ∨ Xfsz p.stat

/-- `memory_usage` after its clamp. -/
def MemoryFacts (cfg : Config) (p : Sup) : Prop :=
  0 ≤ p.memoryUsage ∧ (cfg.memoryLimit > 0 → p.memoryUsage ≤ cfg.memoryLimit) ∧
    (p.exceeded = some .memory → p.memoryUsage = cfg.memoryLimit) ∧
    (cfg.memoryLimit > 0 → p.memoryUsage < cfg.memoryLimit ∨ p.exceeded ≠ none)

/-- `cpu_time_usage` after its clamp. -/
def CpuFacts (cfg : Config) (p : Sup) : Prop :=
  (0 ≤ p.cpuTimeUsage ∨ (Xcpu p.stat ∧ p.cpuTimeUsage = cfg.cpuTimeLimit ∧ cfg.cpuTimeLimit ≤ 0)) ∧
    (cfg.cpuTimeLimit > 0 → p.cpuTimeUsage ≤ cfg.cpuTimeLimit) ∧
    (p.exceeded = some .cpuTime → p.cpuTimeUsage = cfg.cpuTimeLimit) ∧
    (cfg.cpuTimeLimit > 0 → p.cpuTimeUsage < cfg.cpuTimeLimit ∨ p.exceeded ≠ none) ∧
    (Xcpu p.stat → p.exceeded ≠ none)

/-- `real_time_usage` after its clamp. -/
def RealFacts (cfg : Config) (p : Sup) : Prop :=
  0 ≤ p.realTimeUsage ∧ (cfg.realTimeLimit > 0 → p.realTimeUsage ≤ cfg.realTimeLimit) ∧
    (p.exceeded = some .realTime → p.realTimeUsage = cfg.realTimeLimit) ∧
    (cfg.realTimeLimit > 0 → p.realTimeUsage < cfg.realTimeLimit ∨ p.exceeded ≠ none)

/-- The invariant of every reachable state. -/
structure ReportInv (cfg : Config) (s : Sys) : Prop where
  world : WorldOk s.world
  clocked : s.sup.pc.started → 0 ≤ s.sup.startTime ∧ s.sup.startTime ≤ s.world.clock ∧
    s.sup.deadline = if cfg.realTimeLimit > 0 then s.sup.startTime + cfg.realTimeLimit else -1
  loop : s.sup.pc.untagged → s.sup.exceeded = none
  tag : TagOk cfg s.sup s.world
  written : ∀ r, s.sup.record = some r → s.sup.pc.finishing ∧ r = s.sup.report
  memory : (s.sup.pc.collected ≥ 1 ∨ s.sup.record.isSome) → MemoryFacts cfg s.sup
  cpu : (s.sup.pc.collected ≥ 2 ∨ s.sup.record.isSome) → CpuFacts cfg s.sup
  output : (s.sup.pc.collected ≥ 3 ∨ s.sup.record.isSome) → Xfsz s.sup.stat → s.sup.exceeded ≠ none
  real : (s.sup.pc.collected ≥ 4 ∨ s.sup.record.isSome) → RealFacts cfg s.sup

@[simp] theorem Pc.started_of_inLoop {pc : Pc} (h : pc.inLoop) : pc.started := by
  simp [Pc.started, h]

@[simp] theorem Pc.untagged_of_inLoop {pc : Pc} (h : pc.inLoop) : pc.untagged := by
  cases pc <;> first | rfl | cases h

@[simp] theorem Pc.finishing_of_inLoop {pc : Pc} (h : pc.inLoop) : pc.finishing = false := by
  cases pc <;> first | rfl | cases h

@[simp] theorem Pc.collected_of_inLoop {pc : Pc} (h : pc.inLoop) : pc.collected = 0 := by
  cases pc <;> first | rfl | cases h

/-- Two states that agree on the counters and on every local `run_command` reports. -/
structure SameData (s s' : Sys) : Prop where
  cpu : s'.world.cpu = s.world.cpu
  memoryPeak : s'.world.memoryPeak = s.world.memoryPeak
  output : s'.world.output = s.world.output
  clock : s'.world.clock = s.world.clock
  exceeded : s'.sup.exceeded = s.sup.exceeded
  stat : s'.sup.stat = s.sup.stat
  startTime : s'.sup.startTime = s.sup.startTime
  deadline : s'.sup.deadline = s.sup.deadline
  memoryUsage : s'.sup.memoryUsage = s.sup.memoryUsage
  cpuTimeUsage : s'.sup.cpuTimeUsage = s.sup.cpuTimeUsage
  realTimeUsage : s'.sup.realTimeUsage = s.sup.realTimeUsage
  record : s'.sup.record = s.sup.record

theorem SameData.report {s s' : Sys} (h : SameData s s') : s'.sup.report = s.sup.report := by
  simp [Sup.report, Sup.collected, h.memoryUsage, h.cpuTimeUsage, h.realTimeUsage, h.stat,
    h.exceeded]

section
variable {cfg : Config} {s s' : Sys}

theorem TagOk.of_none {p : Sup} {w : World} (he : p.exceeded = none) : TagOk cfg p w := by
  simp [TagOk, he]

/-- Counters that grew keep every tag true. -/
theorem TagOk.mono {p : Sup} {w w' : World} (h : TagOk cfg p w) (hc : w.cpu ≤ w'.cpu)
    (hm : w.memoryPeak ≤ w'.memoryPeak) (ho : w.output ≤ w'.output) (ht : w.clock ≤ w'.clock) :
    TagOk cfg p w' := by
  cases hx : p.exceeded with
  | none => exact .of_none hx
  | some l =>
    simp only [TagOk, hx] at h ⊢
    cases l
    · exact h.imp_left fun h => ⟨h.1, h.2.trans hc⟩
    · exact ⟨h.1, h.2.trans ht⟩
    · exact ⟨h.1, h.2.trans hm⟩
    · exact h.imp_left fun h => ⟨h.1, h.2.trans_le ho⟩

/-- A later check that names another limit keeps the memory sample's facts. -/
theorem MemoryFacts.retag {p p' : Sup} {l : Limit} (h : MemoryFacts cfg p)
    (hu : p'.memoryUsage = p.memoryUsage) (he : p'.exceeded = some l) (hl : l ≠ .memory) :
    MemoryFacts cfg p' := by
  obtain ⟨h1, h2, -, -⟩ := h
  exact ⟨hu ▸ h1, hu ▸ h2, fun h => (hl (by simpa [he] using h)).elim,
    fun _ => .inr (by simp [he])⟩

/-- A later check that names another limit keeps the CPU sample's facts. -/
theorem CpuFacts.retag {p p' : Sup} {l : Limit} (h : CpuFacts cfg p) (hs : p'.stat = p.stat)
    (hu : p'.cpuTimeUsage = p.cpuTimeUsage) (he : p'.exceeded = some l) (hl : l ≠ .cpuTime) :
    CpuFacts cfg p' := by
  obtain ⟨h1, h2, -, -, -⟩ := h
  exact ⟨hu ▸ hs ▸ h1, hu ▸ h2, fun h => (hl (by simpa [he] using h)).elim,
    fun _ => .inr (by simp [he]), fun _ => by simp [he]⟩

theorem ReportInv.record_none (h : ReportInv cfg s) (hf : s.sup.pc.finishing = false) :
    s.sup.record = none := by
  cases hr : s.sup.record with
  | none => rfl
  | some r => simpa [hf] using (h.written r hr).1

/-- A state of the loop, or before it, with nothing collected or written yet. -/
theorem ReportInv.early (hw : WorldOk s'.world) (hl : s'.sup.pc.untagged → s'.sup.exceeded = none)
    (ht : TagOk cfg s'.sup s'.world) (hr : s'.sup.record = none) (hc : s'.sup.pc.collected = 0)
    (hclk : s'.sup.pc.started → 0 ≤ s'.sup.startTime ∧ s'.sup.startTime ≤ s'.world.clock ∧
      s'.sup.deadline = if cfg.realTimeLimit > 0 then s'.sup.startTime + cfg.realTimeLimit else -1) :
    ReportInv cfg s' :=
  ⟨hw, hclk, hl, ht, by simp [hr], by simp [hc, hr], by simp [hc, hr], by simp [hc, hr],
    by simp [hc, hr]⟩

theorem ReportInv.init {w : World} (hw : w.Initial) : ReportInv cfg ⟨initSup, w⟩ := by
  obtain ⟨-, -, -, h1, h2, h3, h4⟩ := hw
  exact .early ⟨h1, h2, h3, h4⟩ (fun _ => rfl) (.of_none rfl) rfl rfl nofun

/-- A step that keeps the data and moves the program counter along `Pc.follows`. -/
theorem ReportInv.of_sameData (h : ReportInv cfg s) (hd : SameData s s')
    (hpc : s.sup.pc.follows s'.sup.pc) : ReportInv cfg s' := by
  simp only [Pc.follows, Bool.and_eq_true, Bool.or_eq_true, Bool.not_eq_true',
    decide_eq_true_eq] at hpc
  obtain ⟨⟨⟨hs, hu⟩, hf⟩, hc⟩ := hpc
  have hfacts : ∀ k, (s'.sup.pc.collected ≥ k ∨ s'.sup.record.isSome) →
      s.sup.pc.collected ≥ k ∨ s.sup.record.isSome := fun k h' => by
    rw [hd.record] at h'; exact h'.imp_left (le_trans · hc)
  refine ⟨?_, fun hp => ?_, fun hp => ?_, ?_, fun r hr => ?_, fun hk => ?_, fun hk => ?_,
    fun hk => ?_, fun hk => ?_⟩
  · have := h.world
    simp only [WorldOk, hd.cpu, hd.memoryPeak, hd.output, hd.clock] at this ⊢
    exact this
  · rw [hd.startTime, hd.clock, hd.deadline]
    exact h.clocked (hs.resolve_left (by simp [hp]))
  · rw [hd.exceeded]; exact h.loop (hu.resolve_left (by simp [hp]))
  · have := h.tag
    unfold TagOk at this ⊢
    rw [hd.exceeded, hd.stat, hd.startTime, hd.memoryPeak, hd.cpu, hd.output, hd.clock]
    exact this
  · rw [hd.record] at hr
    refine ⟨hf.resolve_left ?_, (h.written r hr).2.trans hd.report.symm⟩
    simp [(h.written r hr).1]
  · have := h.memory (hfacts 1 hk)
    simp only [MemoryFacts, hd.memoryUsage, hd.exceeded] at this ⊢
    exact this
  · have := h.cpu (hfacts 2 hk)
    simp only [CpuFacts, Xcpu, hd.cpuTimeUsage, hd.exceeded, hd.stat] at this ⊢
    exact this
  · rw [hd.stat, hd.exceeded]; exact h.output (hfacts 3 hk)
  · have := h.real (hfacts 4 hk)
    simp only [RealFacts, hd.realTimeUsage, hd.exceeded] at this ⊢
    exact this

theorem ReportInv.goto (h : ReportInv cfg s) {pc : Pc} (hpc : s.sup.pc.follows pc) :
    ReportInv cfg (s.goto pc) :=
  h.of_sameData ⟨rfl, rfl, rfl, rfl, rfl, rfl, rfl, rfl, rfl, rfl, rfl, rfl⟩ hpc

theorem ReportInv.env (h : ReportInv cfg s) {w : World} (he : EnvStep s.world w) :
    ReportInv cfg { s with world := w } := by
  obtain ⟨hc, hm, ho, ht⟩ := he.mono
  obtain ⟨⟨w1, w2, w3, w4⟩, hclk, hloop, htag, hwr, hmem, hcpu, hout, hreal⟩ := h
  exact ⟨⟨w1.trans hc, w2.trans hm, w3.trans ho, w4.trans ht⟩,
    fun hp => (hclk hp).imp_right fun h => ⟨h.1.trans ht, h.2⟩, hloop, htag.mono hc hm ho ht,
    hwr, hmem, hcpu, hout, hreal⟩

theorem ReportInv.signal (h : ReportInv cfg s) (sig : ℕ) : ReportInv cfg (deliver sig s) := by
  unfold deliver
  split
  · exact h.of_sameData ⟨rfl, rfl, rfl, rfl, rfl, rfl, rfl, rfl, rfl, rfl, rfl, rfl⟩ (by
      simp [Pc.follows])
  · exact h.goto (Pc.follows_killed _ sig)

theorem ReportInv.setupStep (h : ReportInv cfg s) (hpc : s.sup.pc = .setup) (a : SetupAnswers) :
    ReportInv cfg (setupStep cfg a s) := by
  obtain ⟨h1, h2, h3, h4⟩ := killall_counters s.world
  have he := h.loop (by rw [hpc]; decide)
  unfold Lrun.setupStep
  split
  · exact h.goto (by rw [hpc]; rfl)
  · split_ifs
    · exact h.of_sameData ⟨h1, h2, h3, h4, rfl, rfl, rfl, rfl, rfl, rfl, rfl, rfl⟩ (by rw [hpc]; rfl)
    · exact .early ⟨le_rfl, le_rfl, h3 ▸ h.world.2.2.1, h4 ▸ h.world.2.2.2⟩ (fun _ => he)
        (.of_none he) (h.record_none (by rw [hpc]; decide)) rfl
        nofun

theorem ReportInv.cloexecStep (h : ReportInv cfg s) (hpc : s.sup.pc = .cloexec) (b : Bool) :
    ReportInv cfg (cloexecStep b s) := by
  unfold Lrun.cloexecStep
  split <;> exact h.goto (by rw [hpc]; rfl)

theorem ReportInv.spawnStep (h : ReportInv cfg s) (hpc : s.sup.pc = .spawn) (pid : ℤ) :
    ReportInv cfg (spawnStep pid s) := by
  unfold Lrun.spawnStep
  split
  · exact h.goto (by rw [hpc]; rfl)
  · exact h.of_sameData ⟨rfl, rfl, rfl, rfl, rfl, rfl, rfl, rfl, rfl, rfl, rfl, rfl⟩
      (by rw [hpc]; rfl)

/-- A limit test of the loop: its hit makes the tag true. -/
theorem ReportInv.limitCheck_step {hit : Prop} [Decidable hit] {l : Limit} {next : Pc}
    (h : ReportInv cfg s) (hpc : s.sup.pc.inLoop) (hnext : s.sup.pc.follows next)
    (htag : hit → TagOk cfg { s.sup with exceeded := some l } s.world) :
    ReportInv cfg (limitCheck hit l next s) := by
  unfold limitCheck
  split_ifs with hh
  · exact .early h.world (nofun) (htag hh)
      (h.record_none (by simp [hpc])) rfl fun _ => h.clocked (by simp [hpc])
  · exact h.goto hnext

/-- `waitpid` in the loop: the child and `stat` change, nothing the record reads. -/
theorem ReportInv.waited (h : ReportInv cfg s) (hpc : s.sup.pc.inLoop) (c : Child) (st : ℕ)
    {pc : Pc} (hc : pc.collected = 0) :
    ReportInv cfg { s with sup.stat := st, world := { s.world with child := c }, sup.pc := pc } :=
  .early h.world (fun _ => h.loop (by simp [hpc])) (.of_none (h.loop (by simp [hpc])))
    (h.record_none (by simp [hpc])) hc fun _ => h.clocked (by simp [hpc])

/-! The four samples after the loop. Each one sets its tag again when its counter
still reaches the limit, so a tag of the loop cannot survive with a sample
below its limit. -/

theorem ReportInv.collectMemory (h : ReportInv cfg s) (hpc : s.sup.pc = .collectMemory) :
    ReportInv cfg (exec cfg s) := by
  have hr := h.record_none (by rw [hpc]; decide)
  have hclk := h.clocked (by rw [hpc]; decide)
  have hnone : ∀ k ≥ 2, ¬(Pc.collectCpu.collected ≥ k ∨ s.sup.record.isSome) := by
    simp [hr, Pc.collected]; omega
  simp only [Lrun.exec, hpc]
  split_ifs with hit
  · exact ⟨h.world, fun _ => hclk, nofun, hit,
      by simp [hr], fun _ => ⟨hit.1.le, fun _ => le_rfl, fun _ => rfl, fun _ => .inr (by simp)⟩,
      fun hk => absurd hk (hnone 2 le_rfl), fun hk => absurd hk (hnone 3 (by omega)),
      fun hk => absurd hk (hnone 4 (by omega))⟩
  · have hlt : cfg.memoryLimit > 0 → s.world.memoryPeak < cfg.memoryLimit := fun hl =>
      lt_of_not_le fun hge => hit ⟨hl, hge⟩
    refine ⟨h.world, fun _ => hclk, nofun, h.tag,
      by simp [hr], fun _ => ⟨h.world.2.1, fun hl => (hlt hl).le, fun he => ?_,
        fun hl => .inl (hlt hl)⟩,
      fun hk => absurd hk (hnone 2 le_rfl), fun hk => absurd hk (hnone 3 (by omega)),
      fun hk => absurd hk (hnone 4 (by omega))⟩
    have ht := h.tag
    simp only [TagOk, show s.sup.exceeded = some .memory from he] at ht
    exact absurd (hlt ht.1) (not_lt.2 ht.2)

theorem ReportInv.collectCpu (h : ReportInv cfg s) (hpc : s.sup.pc = .collectCpu) :
    ReportInv cfg (exec cfg s) := by
  have hr := h.record_none (by rw [hpc]; decide)
  have hclk := h.clocked (by rw [hpc]; decide)
  have hm := h.memory (.inl (by rw [hpc]; decide))
  have hnone : ∀ k ≥ 3, ¬(Pc.collectOutput.collected ≥ k ∨ s.sup.record.isSome) := by
    simp [hr, Pc.collected]; omega
  simp only [Lrun.exec, hpc]
  split_ifs with hit
  · refine ⟨h.world, fun _ => hclk, nofun, hit.symm,
      by simp [hr], fun _ => hm.retag rfl rfl (by decide), fun _ => ⟨?_, fun _ => le_rfl,
        fun _ => rfl, fun _ => .inr (by simp), fun _ => by simp⟩,
      fun hk => absurd hk (hnone 3 le_rfl), fun hk => absurd hk (hnone 4 (by omega))⟩
    by_cases hl : cfg.cpuTimeLimit > 0
    · exact .inl hl.le
    · exact .inr ⟨hit.resolve_right fun h => hl h.1, rfl, le_of_not_lt hl⟩
  · have hlt : cfg.cpuTimeLimit > 0 → s.world.cpu < cfg.cpuTimeLimit := fun hl =>
      lt_of_not_le fun hge => hit (.inr ⟨hl, hge⟩)
    refine ⟨h.world, fun _ => hclk, nofun, h.tag,
      by simp [hr], fun _ => hm, fun _ => ⟨.inl h.world.1, fun hl => (hlt hl).le, fun he => ?_,
        fun hl => .inl (hlt hl), fun hx => absurd (.inl hx) hit⟩,
      fun hk => absurd hk (hnone 3 le_rfl), fun hk => absurd hk (hnone 4 (by omega))⟩
    have ht := h.tag
    simp only [TagOk, show s.sup.exceeded = some .cpuTime from he] at ht
    exact absurd ht fun ht => hit ht.symm

theorem ReportInv.collectOutput (h : ReportInv cfg s) (hpc : s.sup.pc = .collectOutput) :
    ReportInv cfg (exec cfg s) := by
  have hr := h.record_none (by rw [hpc]; decide)
  have hclk := h.clocked (by rw [hpc]; decide)
  have hm := h.memory (.inl (by rw [hpc]; decide))
  have hc := h.cpu (.inl (by rw [hpc]; decide))
  have hnone : ¬(Pc.collectReal.collected ≥ 4 ∨ s.sup.record.isSome) := by
    simp [hr, Pc.collected]
  simp only [Lrun.exec, hpc]
  split_ifs with hit
  · exact ⟨h.world, fun _ => hclk, nofun, .inr hit,
      by simp [hr], fun _ => hm.retag rfl rfl (by decide), fun _ => hc.retag rfl rfl rfl (by decide),
      fun _ _ => by simp, fun hk => absurd hk hnone⟩
  · exact ⟨h.world, fun _ => hclk, nofun, h.tag,
      by simp [Sys.goto, hr], fun _ => hm, fun _ => hc, fun _ hx => absurd hx hit,
      fun hk => absurd hk hnone⟩

theorem ReportInv.collectReal (h : ReportInv cfg s) (hpc : s.sup.pc = .collectReal) :
    ReportInv cfg (exec cfg s) := by
  have hr := h.record_none (by rw [hpc]; decide)
  have hclk := h.clocked (by rw [hpc]; decide)
  have hm := h.memory (.inl (by rw [hpc]; decide))
  have hc := h.cpu (.inl (by rw [hpc]; decide))
  have ho := h.output (.inl (by rw [hpc]; decide))
  simp only [Lrun.exec, hpc]
  split_ifs with hit
  · exact ⟨h.world, fun _ => hclk, nofun,
      ⟨hit.1, by linarith [hit.2]⟩, by simp [hr], fun _ => hm.retag rfl rfl (by decide),
      fun _ => hc.retag rfl rfl rfl (by decide), fun _ _ => by simp,
      fun _ => ⟨hit.1.le, fun _ => le_rfl, fun _ => rfl, fun _ => .inr (by simp)⟩⟩
  · have hlt : cfg.realTimeLimit > 0 → s.world.clock - s.sup.startTime < cfg.realTimeLimit :=
      fun hl => lt_of_not_le fun hge => hit ⟨hl, hge⟩
    refine ⟨h.world, fun _ => hclk, nofun, h.tag,
      by simp [hr], fun _ => hm, fun _ => hc, fun _ => ho,
      fun _ => ⟨sub_nonneg.2 hclk.2.1, fun hl => (hlt hl).le, fun he => ?_, fun hl => .inl (hlt hl)⟩⟩
    have ht := h.tag
    simp only [TagOk, show s.sup.exceeded = some .realTime from he] at ht
    linarith [hlt ht.1]

theorem ReportInv.report (h : ReportInv cfg s) (hpc : s.sup.pc = .report) :
    ReportInv cfg (exec cfg s) := by
  have hk : ∀ k ≤ 4, s.sup.pc.collected ≥ k ∨ s.sup.record.isSome := fun k hk =>
    .inl (by simpa [hpc, Pc.collected] using hk)
  simp only [Lrun.exec, hpc]
  exact ⟨h.world, nofun, nofun, h.tag,
    fun r hr => ⟨rfl, (Option.some.inj hr).symm⟩, fun _ => h.memory (hk 1 (by norm_num)),
    fun _ => h.cpu (hk 2 (by norm_num)), fun _ => h.output (hk 3 (by norm_num)),
    fun _ => h.real (hk 4 le_rfl)⟩

theorem ReportInv.cleanup (h : ReportInv cfg s) {code : ℤ} (hpc : s.sup.pc = .cleanup code) :
    ReportInv cfg (exec cfg s) := by
  obtain ⟨h1, h2, h3, h4⟩ := cleanCgExit_counters cfg s.world
  simp only [Lrun.exec, hpc]
  exact h.of_sameData ⟨h1, h2, h3, h4, rfl, rfl, rfl, rfl, rfl, rfl, rfl, rfl⟩ (by rw [hpc]; rfl)

/-- Every statement of lrun keeps the invariant. -/
theorem ReportInv.exec (h : ReportInv cfg s) : ReportInv cfg (exec cfg s) := by
  cases hpc : s.sup.pc with
  | lock => simpa only [Lrun.exec, hpc] using h.goto (by rw [hpc]; rfl)
  | handlers =>
    simp only [Lrun.exec, hpc]
    exact h.of_sameData ⟨rfl, rfl, rfl, rfl, rfl, rfl, rfl, rfl, rfl, rfl, rfl, rfl⟩
      (by rw [hpc]; rfl)
  | start =>
    simp only [Lrun.exec, hpc]
    have he := h.loop (by rw [hpc]; decide)
    exact .early h.world (fun _ => he) (.of_none he) (h.record_none (by rw [hpc]; decide))
      rfl fun _ => ⟨h.world.2.2.2, le_rfl, rfl⟩
  | checkSignal =>
    simp only [Lrun.exec, hpc]
    split_ifs <;> exact h.goto (by rw [hpc]; rfl)
  | reap =>
    obtain ⟨c, hc⟩ := waitpid_world s.world s.sup.pid s.sup.stat
    simp only [Lrun.exec, hpc, hc]
    split_ifs <;> exact h.waited (by rw [hpc]; decide) c _ rfl
  | checkCpu =>
    simp only [Lrun.exec, hpc]
    exact h.limitCheck_step (by rw [hpc]; decide) (by rw [hpc]; rfl)
      fun hit => .inl ⟨hit.1, hit.2⟩
  | checkReal =>
    simp only [Lrun.exec, hpc]
    refine h.limitCheck_step (by rw [hpc]; decide) (by rw [hpc]; rfl) fun hit => ?_
    have hd := (h.clocked (by rw [hpc]; decide)).2.2
    split_ifs at hd with hl
    · exact ⟨hl, hd ▸ hit.2⟩
    · linarith [hit.1]
  | checkMemory =>
    simp only [Lrun.exec, hpc]
    exact h.limitCheck_step (by rw [hpc]; decide) (by rw [hpc]; rfl)
      fun hit => ⟨hit.2, hit.1⟩
  | probe =>
    simp only [Lrun.exec, hpc]
    split_ifs
    · exact h.of_sameData ⟨rfl, rfl, rfl, rfl, rfl, rfl, rfl, rfl, rfl, rfl, rfl, rfl⟩
        (by rw [hpc]; rfl)
    · exact h.goto (by rw [hpc]; rfl)
  | reapZombie =>
    obtain ⟨c, hc⟩ := waitpid_world s.world s.sup.pid s.sup.stat
    simp only [Lrun.exec, hpc, hc]
    split_ifs <;> exact h.waited (by rw [hpc]; decide) c _ rfl
  | checkOutput =>
    simp only [Lrun.exec, hpc]
    split_ifs with hl
    · exact h.limitCheck_step (by rw [hpc]; decide) (by rw [hpc]; rfl)
        fun hit => .inl ⟨hl, hit⟩
    · exact h.goto (by rw [hpc]; rfl)
  | checkEmpty =>
    simp only [Lrun.exec, hpc]
    split_ifs
    · exact h.of_sameData ⟨rfl, rfl, rfl, rfl, rfl, rfl, rfl, rfl, rfl, rfl, rfl, rfl⟩
        (by rw [hpc]; rfl)
    · exact h.goto (by rw [hpc]; rfl)
  | sleep =>
    simp only [Lrun.exec, hpc]
    split_ifs <;> exact h.goto (by rw [hpc]; rfl)
  | collectMemory => exact h.collectMemory hpc
  | collectCpu => exact h.collectCpu hpc
  | collectOutput => exact h.collectOutput hpc
  | collectReal => exact h.collectReal hpc
  | report => exact h.report hpc
  | cleanup code => exact h.cleanup hpc
  | setup | cloexec | spawn | exited | killed => simpa only [Lrun.exec, hpc] using h

theorem ReportInv.step (h : ReportInv cfg s) (hs : Step cfg s s') : ReportInv cfg s' := by
  cases hs with
  | exec => exact h.exec
  | setup a hpc => exact h.setupStep hpc a
  | cloexec b hpc => exact h.cloexecStep hpc b
  | spawn pid hpc => exact h.spawnStep hpc pid
  | env he => exact h.env he
  | signal sig => exact h.signal sig
  | kill sig => exact h.goto (Pc.follows_killed _ sig)

/-- The invariant holds in every state reachable from lrun's start. -/
theorem reportInv_reachable {w : World} (hw : w.Initial) (hr : Reachable cfg ⟨initSup, w⟩ s) :
    ReportInv cfg s := by
  induction hr with
  | refl => exact .init hw
  | tail _ hs ih => exact ih.step hs

end

/-- The record says the child was killed by `sig`. -/
def Record.killedBy (r : Record) (sig : ℕ) : Prop := r.signaled = 1 ∧ r.termsig = sig

section
variable {cfg : Config} {s : Sys}

end

/-- `lrun ls` whose child SIGXCPU kills as soon as the loop starts. -/
theorem sigxcpu_run :
    ∃ s, Reachable runConfig ⟨initSup, .fresh⟩ s ∧
      s.sup.record.map (fun r => (r.signaled, r.termsig, r.exceed, r.cputime)) =
        some (1, sigxcpu, some .cpuTime, -1) ∧ s.sup.pc = .cleanup 0 := by
  let s₄ := spawnStep 1 (cloexecStep false (setupStep runConfig ⟨false, false, false, false⟩
    (exec runConfig ⟨initSup, .fresh⟩)))
  let s₇ : Sys := { execN runConfig 2 s₄ with world.child := .zombie sigxcpu }
  have h₇ : Reachable runConfig ⟨initSup, .fresh⟩ s₇ :=
    ((reachable_spawned runConfig .fresh).trans (reachable_execN runConfig s₄ 2 (by decide))).tail
      (.env (.exit sigxcpu rfl (.inr rfl)))
  exact ⟨_, h₇.trans (reachable_execN runConfig s₇ 7 (by decide)), by decide, by decide⟩

/-- `lrun ls`, with no CPU limit set: a child that SIGXCPU kills is reported
with the unset limit, -1, as its CPU time. -/
theorem record_cputime_negative :
    (∀ pf sc fs, Launches pf sc fs 1000 1000 ["lrun", "ls"] runConfig) ∧
    ∃ s, Reachable runConfig ⟨initSup, .fresh⟩ s ∧
      ∃ r, s.sup.record = some r ∧ r.killedBy sigxcpu ∧ r.exceed = some .cpuTime ∧ r.cputime = -1 := by
  obtain ⟨s, hs, hv, -⟩ := sigxcpu_run
  obtain ⟨r, hr, hv⟩ := Option.map_eq_some'.1 hv
  simp only [Prod.mk.injEq] at hv
  exact ⟨fun _ _ _ => ⟨rfl, rfl⟩, s, hs, r, hr, ⟨hv.1, hv.2.1⟩, hv.2.2⟩

end Lrun
