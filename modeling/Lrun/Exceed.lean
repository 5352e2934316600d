import Lrun.Report

/-!
# Which limit the record names

After the loop `run_command` samples the memory peak, the CPU time, the
child's signal and the real time, in that order, and every check that fires
overwrites `exceeded_limit`. So the last check that fires names the limit,
whatever the loop found. A tag the loop set for memory, CPU or real time is
set again by that limit's own check, because the counter the loop read can
only have grown: only a tag from the loop's output counter outlives checks
that do not fire. Each check leaves a trace in the values `run_command`
collects, the value it clamped or the signal it tested, so `EXCEED` can be
read off those values. It cannot be read off the times as `%.3f` prints them:
a time just below its limit may print as the limit.

`tagAfter` replays the first `k` checks on the loop's tag, and `TagChain` says
that past the loop `exceeded_limit` is that replay at the current stage, with
the loop's tag still `Pending` on its own check.
-/

namespace Lrun

/-- Where a limit's check stands among the four after the loop. -/
def Limit.collectIndex : Limit → ℕ
  | .memory => 0
  | .cpuTime => 1
  | .output => 2
  | .realTime => 3

/-- The limit the `k`-th check after the loop names. -/
def checkLimit : ℕ → Limit
  | 0 => .memory
  | 1 => .cpuTime
  | 2 => .output
  | _ => .realTime

/-- Whether the `k`-th check after the loop fired, read off the trace it
leaves: the memory check clamps `memory_usage`, the CPU check clamps
`cpu_time_usage` or fires on SIGXCPU, the output check fires on SIGXFSZ, the
real-time check clamps `real_time_usage`. -/
def Sup.fired (cfg : Config) (p : Sup) : ℕ → Bool
  | 0 => decide (cfg.memoryLimit > 0 ∧ p.memoryUsage = cfg.memoryLimit)
  | 1 => decide ((wifsignaled p.stat ∧ wtermsig p.stat = sigxcpu) ∨
      (cfg.cpuTimeLimit > 0 ∧ p.cpuTimeUsage = cfg.cpuTimeLimit))
  | 2 => decide (wifsignaled p.stat ∧ wtermsig p.stat = sigxfsz)
  | _ => decide (cfg.realTimeLimit > 0 ∧ p.realTimeUsage = cfg.realTimeLimit)

/-- `exceeded_limit` once the first `k` checks after the loop have run on the
tag `L` the loop left: each check that fired overwrote it. -/
def tagAfter (cfg : Config) (p : Sup) (L : Option Limit) : ℕ → Option Limit
  | 0 => L
  | k + 1 => if p.fired cfg k then some (checkLimit k) else tagAfter cfg p L k

/-- What makes the `k`-th check fire when it runs, by the counters, the clock
and the child's status. -/
def Sys.due (cfg : Config) (s : Sys) : ℕ → Prop
  | 0 => cfg.memoryLimit > 0 ∧ cfg.memoryLimit ≤ s.world.memoryPeak
  | 1 => Xcpu s.sup.stat ∨ cfg.cpuTimeLimit > 0 ∧ cfg.cpuTimeLimit ≤ s.world.cpu
  | 2 => Xfsz s.sup.stat
  | _ => cfg.realTimeLimit > 0 ∧ s.sup.startTime + cfg.realTimeLimit ≤ s.world.clock

/-- What the loop's tag needs once `k` checks have run: a tag other than
output names a check that is due until it runs, and that fired once it has. -/
def Pending (cfg : Config) (s : Sys) (k : ℕ) (L : Option Limit) : Prop :=
  ∀ l, L = some l → l ≠ .output →
    if k ≤ l.collectIndex then s.due cfg l.collectIndex else s.sup.fired cfg l.collectIndex

/-- Past the loop: the checks are running, or the record is written. -/
def Sys.pastLoop (s : Sys) : Prop :=
  s.sup.pc = .collectMemory ∨ 0 < s.sup.pc.collected ∨ s.sup.record.isSome

/-- How many checks after the loop have run: all four once the record is written. -/
def Sys.stage (s : Sys) : ℕ := if s.sup.record.isSome then 4 else s.sup.pc.collected

/-- Past the loop, `exceeded_limit` is the loop's tag run through the checks so far. -/
def TagChain (cfg : Config) (s : Sys) : Prop :=
  s.pastLoop → ∃ L, Pending cfg s s.stage L ∧ s.sup.exceeded = tagAfter cfg s.sup L s.stage

instance (r : Record) (sig : ℕ) : Decidable (r.killedBy sig) := inferInstanceAs (Decidable (_ ∧ _))

theorem Pc.finishing_of_untagged {pc : Pc} (h : pc.untagged) : pc.finishing = false := by
  cases pc <;> first | rfl | cases h

theorem Pc.collected_of_finishing {pc : Pc} (h : pc.finishing) : pc.collected = 0 := by
  cases pc <;> first | rfl | cases h

/-- From the loop or before it control never reaches a later check. -/
theorem Pc.collected_of_flow {pc pc' : Pc} (hu : pc.untagged) (hf : pc.flow pc') :
    pc'.collected = 0 := by
  cases pc <;> first
    | (cases hu; done)
    | (simp only [Pc.flow] at hf; rcases hf with rfl | rfl <;> rfl)

section
variable {cfg : Config} {s s' : Sys}

/-! ## The replay of the checks -/

theorem tagAfter_congr {p p' : Sup} (L : Option Limit) {k : ℕ}
    (h : ∀ j < k, p'.fired cfg j = p.fired cfg j) : tagAfter cfg p' L k = tagAfter cfg p L k := by
  induction k with
  | zero => rfl
  | succ k ih =>
    simp only [tagAfter, h k (Nat.lt_succ_self k), ih fun j hj => h j (Nat.lt_succ_of_lt hj)]

/-- One check after the loop: it overwrites the tag exactly when it fires, and
leaves the traces of the checks before it alone. -/
theorem tagAfter_succ {p p' : Sup} {L : Option Limit} {k : ℕ}
    (hframe : ∀ j < k, p'.fired cfg j = p.fired cfg j)
    (hex : p'.exceeded = if p'.fired cfg k then some (checkLimit k) else p.exceeded)
    (h : p.exceeded = tagAfter cfg p L k) : p'.exceeded = tagAfter cfg p' L (k + 1) := by
  rw [tagAfter, hex, tagAfter_congr L hframe, h]

/-- A check that is due stays due while the counters and the clock grow. -/
theorem Sys.due_mono (hs : s'.sup.stat = s.sup.stat) (ht : s'.sup.startTime = s.sup.startTime)
    (hc : s.world.cpu ≤ s'.world.cpu) (hm : s.world.memoryPeak ≤ s'.world.memoryPeak)
    (hk : s.world.clock ≤ s'.world.clock) : ∀ j, s.due cfg j → s'.due cfg j
  | 0, h => ⟨h.1, h.2.trans hm⟩
  | 1, h => by
    rw [Sys.due, hs]
    exact h.imp_right fun h => ⟨h.1, h.2.trans hc⟩
  | 2, h => by rw [Sys.due, hs]; exact h
  | _ + 3, h => ⟨h.1, ht ▸ h.2.trans hk⟩

theorem Pending.mono {k : ℕ} {L : Option Limit} (h : Pending cfg s k L)
    (hf : ∀ j, s'.sup.fired cfg j = s.sup.fired cfg j)
    (hd : ∀ j, s.due cfg j → s'.due cfg j) : Pending cfg s' k L := fun l hl ho => by
  have hp := h l hl ho
  split_ifs at hp ⊢
  · exact hd _ hp
  · rw [hf]; exact hp

/-- One check moves a pending tag one stage on: the tag's own check fires
since it is due, and the others keep what they waited on. -/
theorem Pending.check {k : ℕ} {L : Option Limit} (h : Pending cfg s k L)
    (hfire : s.due cfg k → s'.sup.fired cfg k)
    (hfired : ∀ j < k, s'.sup.fired cfg j = s.sup.fired cfg j)
    (hdue : ∀ j, k < j → s.due cfg j → s'.due cfg j) : Pending cfg s' (k + 1) L := by
  intro l hl ho
  have hp := h l hl ho
  rcases lt_trichotomy l.collectIndex k with hi | rfl | hi
  · rw [if_neg (by omega)] at hp ⊢
    rw [hfired _ hi]
    exact hp
  · rw [if_pos le_rfl] at hp
    rw [if_neg (by omega)]
    exact hfire hp
  · rw [if_pos hi.le] at hp
    rw [if_pos (by omega)]
    exact hdue _ hi hp

/-- At the loop's exit the tag is what the loop found, which `TagOk` describes. -/
theorem Pending.of_tagOk (h : TagOk cfg s.sup s.world) : Pending cfg s 0 s.sup.exceeded := by
  intro l hl ho
  rw [if_pos (Nat.zero_le _)]
  rw [TagOk, hl] at h
  cases l
  · exact h.symm
  · exact h
  · exact h
  · exact absurd rfl ho

theorem stage_of_none (h : s.sup.record = none) : s.stage = s.sup.pc.collected := by
  simp [Sys.stage, h]

theorem stage_of_some (h : s.sup.record.isSome) : s.stage = 4 := by
  simp [Sys.stage, h]

theorem Sys.pastLoop_finishing (hf : s.sup.pc.finishing) (h : s.pastLoop) :
    s.sup.record.isSome := by
  rcases h with h | h | h
  · rw [h] at hf; cases hf
  · rw [Pc.collected_of_finishing hf] at h; omega
  · exact h

/-- Before the loop ends, the chain says nothing. -/
theorem TagChain.of_early (hc : s.sup.pc.collected = 0) (hm : s.sup.pc ≠ .collectMemory)
    (hn : s.sup.record = none) : TagChain cfg s := fun h => by
  simp [Sys.pastLoop, hc, hm, hn] at h

theorem TagChain.entry (hR : ReportInv cfg s) (hpc : s.sup.pc = .collectMemory) :
    TagChain cfg s := fun _ => by
  rw [stage_of_none (hR.record_none (by rw [hpc]; rfl)), hpc]
  exact ⟨s.sup.exceeded, Pending.of_tagOk hR.tag, rfl⟩

/-- A step that leaves the traces, the tag and the stage alone keeps the chain. -/
theorem TagChain.keep (h : TagChain cfg s) (hin : s'.pastLoop → s.pastLoop ∧ s'.stage = s.stage)
    (hf : ∀ j, s'.sup.fired cfg j = s.sup.fired cfg j) (hd : ∀ j, s.due cfg j → s'.due cfg j)
    (hx : s'.sup.exceeded = s.sup.exceeded) : TagChain cfg s' := fun hs => by
  obtain ⟨hs₀, hk⟩ := hin hs
  obtain ⟨L, hL, he⟩ := h hs₀
  rw [hk]
  exact ⟨L, hL.mono hf hd, hx.trans (he.trans (tagAfter_congr L fun j _ => (hf j).symm))⟩

/-- Moving to an end keeps the chain: past the loop there, the record is written. -/
theorem TagChain.finish (h : TagChain cfg s) (hpc : s'.sup.pc.finishing)
    (hr : s'.sup.record = s.sup.record) (hf : ∀ j, s'.sup.fired cfg j = s.sup.fired cfg j)
    (hd : ∀ j, s.due cfg j → s'.due cfg j) (hx : s'.sup.exceeded = s.sup.exceeded) :
    TagChain cfg s' :=
  h.keep (fun hs => by
    have h' := Sys.pastLoop_finishing hpc hs
    have h₀ : s.sup.record.isSome := hr ▸ h'
    exact ⟨.inr (.inr h₀), (stage_of_some h').trans (stage_of_some h₀).symm⟩) hf hd hx

/-- One check after the loop keeps the chain, one stage on: it fires, or it
was not due and leaves the tag alone. -/
theorem TagChain.check {k : ℕ} (h : TagChain cfg s) (hin : s.pastLoop) (hk : s.stage = k)
    (hk' : s'.stage = k + 1) (hfired : ∀ j < k, s'.sup.fired cfg j = s.sup.fired cfg j)
    (hdue : ∀ j, k < j → s.due cfg j → s'.due cfg j)
    (hex : s'.sup.fired cfg k ∧ s'.sup.exceeded = some (checkLimit k) ∨
      ¬s.due cfg k ∧ s'.sup.fired cfg k = false ∧ s'.sup.exceeded = s.sup.exceeded) :
    TagChain cfg s' := fun _ => by
  obtain ⟨L, hL, he⟩ := h hin
  rw [hk] at hL he
  rw [hk']
  refine ⟨L, hL.check (fun hd => ?_) hfired hdue, tagAfter_succ hfired ?_ he⟩
  · rcases hex with ⟨hf, -⟩ | ⟨hnd, -⟩
    · exact hf
    · exact absurd hd hnd
  · rcases hex with ⟨hf, hx⟩ | ⟨-, hf, hx⟩
    · rw [if_pos hf, hx]
    · rw [if_neg (by rw [hf]; decide), hx]

/-- From the loop or before it, `exec` stays out of the checks or enters them. -/
theorem TagChain.of_untagged (hR : ReportInv cfg s) (hu : s.sup.pc.untagged) :
    TagChain cfg (exec cfg s) := by
  by_cases hm : (exec cfg s).sup.pc = .collectMemory
  · exact .entry hR.exec hm
  have hpc : s.sup.pc ≠ .report := fun h => by rw [h] at hu; cases hu
  exact .of_early (Pc.collected_of_flow hu (exec_flow cfg s)) hm
    ((exec_record cfg hpc).trans (hR.record_none (Pc.finishing_of_untagged hu)))

/-- Every statement of lrun keeps the chain; the four checks after the loop
move it one stage on each. -/
theorem TagChain.exec (hR : ReportInv cfg s) (h : TagChain cfg s) : TagChain cfg (exec cfg s) := by
  cases hpc : s.sup.pc with
  | collectMemory =>
    have hn := hR.record_none (by rw [hpc]; rfl)
    have hk : s.stage = 0 := by rw [stage_of_none hn, hpc]; rfl
    simp only [Lrun.exec, hpc]
    split_ifs with hc
    · exact h.check (.inl hpc) hk (by simp [Sys.stage, hn, Pc.collected]) nofun
        (fun _ _ => id) (.inl ⟨by simp [Sup.fired, hc.1], rfl⟩)
    · refine h.check (.inl hpc) hk (by simp [Sys.stage, hn, Pc.collected]) nofun
        (fun _ _ => id) (.inr ⟨hc, ?_, rfl⟩)
      simp only [Sup.fired, decide_eq_false_iff_not]
      exact fun h => hc ⟨h.1, h.2.ge⟩
  | collectCpu =>
    have hn := hR.record_none (by rw [hpc]; rfl)
    have hk : s.stage = 1 := by rw [stage_of_none hn, hpc]; rfl
    have hin : s.pastLoop := .inr (.inl (by rw [hpc]; decide))
    simp only [Lrun.exec, hpc]
    split_ifs with hc
    · refine h.check hin hk (by simp [Sys.stage, hn, Pc.collected])
        (fun j _ => by rcases j with _ | _ | _ | j <;> first | rfl | omega) (fun _ _ => id)
        (.inl ⟨?_, rfl⟩)
      simp only [Sup.fired, decide_eq_true_eq, and_true]
      exact hc.imp_right And.left
    · refine h.check hin hk (by simp [Sys.stage, hn, Pc.collected])
        (fun j _ => by rcases j with _ | _ | _ | j <;> first | rfl | omega) (fun _ _ => id)
        (.inr ⟨hc, ?_, rfl⟩)
      simp only [Sup.fired, decide_eq_false_iff_not]
      exact fun h => hc (h.imp_right fun h => ⟨h.1, h.2.ge⟩)
  | collectOutput =>
    have hn := hR.record_none (by rw [hpc]; rfl)
    have hk : s.stage = 2 := by rw [stage_of_none hn, hpc]; rfl
    have hin : s.pastLoop := .inr (.inl (by rw [hpc]; decide))
    simp only [Lrun.exec, hpc]
    split_ifs with hc
    · exact h.check hin hk (by simp [Sys.stage, hn, Pc.collected]) (fun _ _ => rfl)
        (fun _ _ => id) (.inl ⟨decide_eq_true hc, rfl⟩)
    · exact h.check hin hk (by simp [Sys.stage, Sys.goto, hn, Pc.collected]) (fun _ _ => rfl)
        (fun _ _ => id) (.inr ⟨hc, decide_eq_false hc, rfl⟩)
  | collectReal =>
    have hn := hR.record_none (by rw [hpc]; rfl)
    have hk : s.stage = 3 := by rw [stage_of_none hn, hpc]; rfl
    have hin : s.pastLoop := .inr (.inl (by rw [hpc]; decide))
    simp only [Lrun.exec, hpc]
    split_ifs with hc
    · exact h.check hin hk (by simp [Sys.stage, hn, Pc.collected])
        (fun j _ => by rcases j with _ | _ | _ | j <;> first | rfl | omega) (fun _ _ => id)
        (.inl ⟨by simp [Sup.fired, hc.1], rfl⟩)
    · refine h.check hin hk (by simp [Sys.stage, hn, Pc.collected])
        (fun j _ => by rcases j with _ | _ | _ | j <;> first | rfl | omega) (fun _ _ => id)
        (.inr ⟨fun hd => hc ⟨hd.1, le_sub_iff_add_le'.mpr hd.2⟩, ?_, rfl⟩)
      simp only [Sup.fired, decide_eq_false_iff_not]
      exact fun h => hc ⟨h.1, h.2.ge⟩
  | report =>
    have hn := hR.record_none (by rw [hpc]; rfl)
    simp only [Lrun.exec, hpc]
    exact h.keep
      (fun _ => ⟨.inr (.inl (by rw [hpc]; decide)), by rw [stage_of_none hn, hpc]; rfl⟩)
      (fun _ => rfl) (fun _ => id) rfl
  | cleanup code =>
    obtain ⟨hc, hm, -, hk⟩ := cleanCgExit_counters cfg s.world
    simp only [Lrun.exec, hpc]
    exact h.finish rfl rfl (fun _ => rfl) (Sys.due_mono rfl rfl hc.ge hm.ge hk.ge) rfl
  | exited | killed => simpa only [Lrun.exec, hpc] using h
  | lock | setup | cloexec | spawn | handlers | start | checkSignal | reap | checkCpu | checkReal
  | checkMemory | probe | reapZombie | checkOutput | checkEmpty | sleep =>
    exact .of_untagged hR (by rw [hpc]; rfl)

theorem TagChain.step (hR : ReportInv cfg s) (h : TagChain cfg s) (hs : Step cfg s s') :
    TagChain cfg s' := by
  cases hs with
  | exec => exact h.exec hR
  | setup a hpc =>
    have hn := hR.record_none (by rw [hpc]; rfl)
    unfold Lrun.setupStep
    split
    · exact .of_early rfl nofun hn
    · split_ifs <;> exact .of_early rfl nofun hn
  | cloexec b hpc =>
    have hn := hR.record_none (by rw [hpc]; rfl)
    unfold Lrun.cloexecStep
    split_ifs <;> exact .of_early rfl nofun hn
  | spawn pid hpc =>
    have hn := hR.record_none (by rw [hpc]; rfl)
    unfold Lrun.spawnStep
    split_ifs <;> exact .of_early rfl nofun hn
  | env he =>
    obtain ⟨hc, hm, -, hk⟩ := he.mono
    exact h.keep (fun hs => ⟨hs, rfl⟩) (fun _ => rfl) (Sys.due_mono rfl rfl hc hm hk) rfl
  | signal sig =>
    unfold deliver
    split
    · exact h.keep (fun hs => ⟨hs, rfl⟩) (fun _ => rfl) (fun _ => id) rfl
    · exact h.finish rfl rfl (fun _ => rfl) (fun _ => id) rfl
  | kill => exact h.finish rfl rfl (fun _ => rfl) (fun _ => id) rfl

end

/-! ## What the record names -/

end Lrun
