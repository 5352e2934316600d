import Mathlib.Data.List.Nodup
import Lrun.OptionScan
import Lrun.Report

/-!
# What the parsed configuration keeps

`parse_cli_options` stores each option's values through its branch, and some
branches store only under a guard: `--max-memory` raises a small positive
limit to `MIN_MEMORY_LIMIT`, `--interval` and `--group` ignore a zero, and
`--cgroup-option` ignores a subsystem `subsys_id_from_name` does not know. The
`std::map`s of the configuration are association lists and its `std::set`s
lists, so the branches also have to keep the keys of the first distinct and
the second free of duplicates, and `bindfs_dest_set`, which `check_config`
reads for `--remount-ro`, equal to the destinations of `bindfs_list`.
`Config.WellFormed` collects these facts. Every branch keeps it, so every
configuration the parse returns from `init_default_config` has it.

The supervisor then runs with what the parse returned, so whatever the command
line, lrun never tags a child `MEMORY` for less than `MIN_MEMORY_LIMIT`.
-/

namespace Lrun

/-- What the configuration `parse_cli_options` builds keeps true. -/
structure Config.WellFormed (c : Config) : Prop where
  /-- A set memory limit is at least `MIN_MEMORY_LIMIT`. -/
  memory : c.memoryLimit ≤ 0 ∨ 500000 ≤ c.memoryLimit
  /-- The loop's `usleep` interval is not zero. -/
  interval : 0 < c.interval
  /-- Group 0 is never added to the supplementary groups. -/
  groups : 0 ∉ c.groups
  /-- Every cgroup option names a subsystem. -/
  subsys : ∀ e ∈ c.cgroupOptions, 0 ≤ e.1.1
  /-- The maps have distinct keys. -/
  cgroupOptions : (c.cgroupOptions.map Prod.fst).Nodup
  remountList : (c.arg.remountList.map Prod.fst).Nodup
  /-- The sets have no duplicates. -/
  keepFds : c.arg.keepFds.Nodup
  destSet : c.arg.bindfsDestSet.Nodup
  /-- `bindfs_dest_set` holds exactly the destinations of `bindfs_list`. -/
  dests : ∀ d, d ∈ c.arg.bindfsDestSet ↔ ∃ b ∈ c.arg.bindfsList, b.1 = d

section
variable {K V : Type} [DecidableEq K]

/-- `map[key] = value` keeps the keys distinct. -/
theorem assign_nodup {m : List (K × V)} (h : (m.map Prod.fst).Nodup) (k : K) (v : V) :
    ((assign m k v).map Prod.fst).Nodup := by
  unfold assign
  split_ifs with hk
  · have hkeys : m.map (Prod.fst ∘ fun p => if p.1 = k then (k, v) else p) = m.map Prod.fst :=
      List.map_congr_left fun p _ => by by_cases hp : p.1 = k <;> simp [hp]
    rwa [List.map_map, hkeys]
  · have hnot : k ∉ m.map Prod.fst := fun hm => by
      obtain ⟨p, hp, rfl⟩ := List.mem_map.1 hm
      exact hk (List.any_eq_true.2 ⟨p, hp, by simp⟩)
    simpa [List.concat_eq_append] using h.concat hnot

/-- After `map[key] = value` an entry is the new one or was there before. -/
theorem mem_assign {m : List (K × V)} {k : K} {v : V} {e : K × V} (h : e ∈ assign m k v) :
    e = (k, v) ∨ e ∈ m := by
  unfold assign at h
  split_ifs at h
  · obtain ⟨p, hp, rfl⟩ := List.mem_map.1 h
    by_cases hpk : p.1 = k
    · exact .inl (if_pos hpk)
    · exact .inr ((if_neg hpk).symm ▸ hp)
  · rcases List.mem_append.1 h with h | h
    · exact .inr h
    · exact .inl (List.mem_singleton.1 h)

theorem mem_insertSet {s : List K} {x y : K} : y ∈ insertSet s x ↔ y ∈ s ∨ y = x := by
  unfold insertSet
  split_ifs with hx
  · exact ⟨.inl, fun h => h.elim id (· ▸ hx)⟩
  · simp

theorem insertSet_nodup {s : List K} (h : s.Nodup) (x : K) : (insertSet s x).Nodup := by
  unfold insertSet
  split_ifs with hx
  · exact h
  · simpa [List.concat_eq_append] using h.concat hx

end

theorem memoryLimitOf_wellFormed (x : ℤ) :
    Opt.memoryLimitOf x ≤ 0 ∨ 500000 ≤ Opt.memoryLimitOf x := by
  unfold Opt.memoryLimitOf
  split_ifs <;> omega

/-- `bindfs_list.push_back(make_pair(dest, src))` with `bindfs_dest_set.insert(dest)`
keeps the set the set of destinations. -/
theorem dests_push {S : List String} {L : List (String × String)}
    (h : ∀ d, d ∈ S ↔ ∃ b ∈ L, b.1 = d) (dest src : String) :
    ∀ d, d ∈ insertSet S dest ↔ ∃ b ∈ L ++ [(dest, src)], b.1 = d := fun d => by
  rw [mem_insertSet, h d]
  constructor
  · rintro (⟨b, hb, rfl⟩ | rfl)
    · exact ⟨b, List.mem_append_left _ hb, rfl⟩
    · exact ⟨_, List.mem_append_right _ (List.mem_singleton_self _), rfl⟩
  · rintro ⟨b, hb, rfl⟩
    rcases List.mem_append.1 hb with hb | hb
    · exact .inl ⟨b, hb, rfl⟩
    · exact .inr (by rw [List.mem_singleton.1 hb])

theorem initDefaultConfig_wellFormed (uid gid : ℕ) : (initDefaultConfig uid gid).WellFormed where
  memory := .inl (by decide : (-1 : ℤ) ≤ 0)
  interval := (by decide : 0 < 20000)
  groups := List.not_mem_nil 0
  subsys := nofun
  cgroupOptions := List.nodup_nil
  remountList := List.nodup_nil
  keepFds := List.nodup_nil
  destSet := List.nodup_nil
  dests := fun _ => ⟨nofun, fun ⟨_, hb, _⟩ => nomatch hb⟩

theorem Config.WellFormed.withCommand {c : Config} (h : c.WellFormed) (start n : ℕ) :
    (c.withCommand start n).WellFormed :=
  { h with }

/-- Every branch of `parse_cli_options` keeps the configuration well formed. -/
theorem Opt.apply_wellFormed (sc : Strconv) (pf : Platform) (o : Opt) (vals : List String)
    {c : Config} (h : c.WellFormed) : (o.apply sc pf vals c).WellFormed := by
  cases o <;> dsimp only [Opt.apply]
  case maxMemory => exact { h with memory := memoryLimitOf_wellFormed _ }
  case group =>
    split_ifs with hg
    · exact { h with groups := fun h0 =>
        (List.mem_append.1 h0).elim h.groups fun h0 => hg (List.mem_singleton.1 h0).symm }
    · exact h
  case interval =>
    split_ifs with hi
    · exact { h with interval := hi }
    · exact h
  case cgroupOption =>
    split_ifs with hs
    · exact { h with
        subsys := fun e he => (mem_assign he).elim (fun he => he ▸ hs) (h.subsys e)
        cgroupOptions := assign_nodup h.cgroupOptions _ _ }
    · exact h
  case remountRo => exact { h with remountList := assign_nodup h.remountList _ _ }
  case bindfs =>
    exact { h with
      destSet := insertSet_nodup h.destSet _
      dests := dests_push h.dests _ _ }
  case bindfsRo =>
    exact { h with
      remountList := assign_nodup h.remountList _ _
      destSet := insertSet_nodup h.destSet _
      dests := dests_push h.dests _ _ }
  case fd => exact { h with keepFds := insertSet_nodup h.keepFds _ }
  all_goals exact { h with }

section
variable (pf : Platform) (sc : Strconv) (argv : List String)

theorem applyAll_wellFormed (reqs : List (Opt × List String)) {c : Config} (h : c.WellFormed) :
    (applyAll sc pf reqs c).WellFormed := by
  induction reqs generalizing c with
  | nil => exact h
  | cons r reqs ih => exact ih (r.1.apply_wellFormed sc pf r.2 h)

/-- Every configuration `parse_cli_options` returns from `init_default_config`
is well formed, for every `argv`. -/
theorem parseCliOptions_wellFormed {uid gid : ℕ} {cfg : Config}
    (h : parseCliOptions pf sc argv (initDefaultConfig uid gid) = .ok cfg) : cfg.WellFormed := by
  rw [parseCliOptions_eq pf sc argv h]
  exact (applyAll_wellFormed pf sc _ (initDefaultConfig_wellFormed uid gid)).withCommand _ _

end

/-- A small memory limit is raised, group 0 is dropped and a destination bound
twice is in the set once. -/
theorem parseCliOptions_wellFormed_raised :
    ∃ cfg, parseCliOptions ⟨true, false, fun _ => 0⟩ ⟨fun _ => 0, fun _ => 0, fun _ => true,
        fun _ => 1000⟩ ["lrun", "--max-memory", "1k", "--group", "0", "--bindfs", "/a", "/b",
          "--bindfs", "/a", "/c", "ls"] (initDefaultConfig 1000 1000) = .ok cfg ∧
      cfg.WellFormed ∧ cfg.memoryLimit = 500000 ∧ cfg.groups = [] ∧
        cfg.arg.bindfsDestSet = ["/a"] :=
  ⟨_, rfl, parseCliOptions_wellFormed ⟨true, false, fun _ => 0⟩
    ⟨fun _ => 0, fun _ => 0, fun _ => true, fun _ => 1000⟩ ["lrun", "--max-memory", "1k",
      "--group", "0", "--bindfs", "/a", "/b", "--bindfs", "/a", "/c", "ls"] rfl, rfl, rfl, rfl⟩

/-- Whatever the command line, lrun never stops a child for memory below
`MIN_MEMORY_LIMIT`: in every run with a configuration `parse_cli_options`
returned, a record tagged `MEMORY` reports at least 500000 bytes, and the
group's memory peak has reached that much. -/
theorem parsed_memory_tag_min {pf : Platform} {sc : Strconv} {argv : List String} {uid gid : ℕ}
    {cfg : Config} (hp : parseCliOptions pf sc argv (initDefaultConfig uid gid) = .ok cfg)
    {w : World} (hw : w.Initial) {s : Sys} (hr : Reachable cfg ⟨initSup, w⟩ s) {r : Record}
    (hrec : s.sup.record = some r) (hm : r.exceed = some .memory) :
    500000 ≤ r.memory ∧ 500000 ≤ s.world.memoryPeak := by
  have hwf : cfg.WellFormed := by
    rw [parseCliOptions_eq pf sc argv hp]
    exact (applyAll_wellFormed pf sc _ (initDefaultConfig_wellFormed uid gid)).withCommand _ _
  have hR := reportInv_reachable hw hr
  obtain ⟨-, rfl⟩ := hR.written r hrec
  have hused := (hR.memory (.inr (by simp [hrec]))).2.2.1 hm
  have htag := hR.tag
  rw [TagOk, show s.sup.exceeded = some .memory from hm] at htag
  have hmin := hwf.memory.resolve_left (not_le.mpr htag.1)
  exact ⟨hmin.trans_eq hused.symm, hmin.trans htag.2⟩

/-- `--max-memory 1k` is raised to 500000, and a child whose peak reaches it is
stopped by the loop's memory check and reported with 500000 bytes. -/
theorem parsed_memory_tag_min_run :
    ∃ cfg s r, parseCliOptions ⟨true, false, fun _ => 0⟩
        ⟨fun _ => 0, fun _ => 0, fun _ => true, fun _ => 1000⟩ ["lrun", "--max-memory", "1k", "ls"]
        (initDefaultConfig 1000 1000) = .ok cfg ∧ Reachable cfg ⟨initSup, .fresh⟩ s ∧
      s.sup.record = some r ∧ r.exceed = some .memory ∧
      500000 ≤ r.memory ∧ 500000 ≤ s.world.memoryPeak := by
  let cfg : Config := { (initDefaultConfig 1000 1000).withCommand 3 4 with memoryLimit := 500000 }
  have hp : parseCliOptions ⟨true, false, fun _ => 0⟩
      ⟨fun _ => 0, fun _ => 0, fun _ => true, fun _ => 1000⟩
      ["lrun", "--max-memory", "1k", "ls"] (initDefaultConfig 1000 1000) = .ok cfg := rfl
  let s₄ := spawnStep 1 (cloexecStep false (setupStep cfg ⟨false, false, false, false⟩
    (exec cfg ⟨initSup, .fresh⟩)))
  let s₆ : Sys := { execN cfg 2 s₄ with world.memoryPeak := 500000 }
  have h₆ : Reachable cfg ⟨initSup, .fresh⟩ s₆ :=
    ((reachable_spawned cfg .fresh).trans (reachable_execN cfg s₄ 2 (by decide))).tail
      (.env (.tick rfl rfl rfl rfl rfl le_rfl (by decide) le_rfl le_rfl))
  have hs := h₆.trans (reachable_execN cfg s₆ 10 (by decide))
  have hv : (execN cfg 10 s₆).sup.record.map Record.exceed = some (some .memory) := by decide
  obtain ⟨r, hr, he⟩ := Option.map_eq_some'.1 hv
  exact ⟨cfg, _, r, hp, hs, hr, he, parsed_memory_tag_min hp World.fresh_initial hs hr he⟩

end Lrun
