import Lrun.Options

/-!
# Where the command starts

The specification describes the parser as a scan from index 1 that passes
over every recognised option together with the number of values it takes (two
for `--bindfs`, `--bindfs-ro`, `--tmpfs` and `--env`, three for
`--cgroup-option`, none for `--debug` and `--status`, one for every other).
The command starts at the first token that is not an option, after the first
bare `--`, or at the end.

`parseLoop_spec` is the loop invariant of `parse_cli_options`: at the head of
every iteration `args` is `argv + i` and `argc` is `argc - i`, the options
met so far have been applied in order, and no read has gone past `argv`.
-/

namespace Lrun

@[simp] theorem Config.withCommand_withCommand (c : Config) (s s' n : ℕ) :
    (c.withCommand s n).withCommand s' n = c.withCommand s' n := rfl

@[simp] theorem Config.withCommand_shiftCommand (c : Config) (s n k : ℕ) :
    (c.withCommand s n).shiftCommand k = c.withCommand (s + k) n := by
  simp only [Config.withCommand, Config.shiftCommand, Nat.cast_add]
  congr 2
  ring

/-- A branch stores only option values; it leaves `args` and `argc` alone. -/
theorem Opt.apply_withCommand (sc : Strconv) (pf : Platform) (o : Opt) (vals : List String)
    (c : Config) (start n : ℕ) :
    o.apply sc pf vals (c.withCommand start n) = (o.apply sc pf vals c).withCommand start n := by
  cases o <;> dsimp only [Opt.apply] <;> (try split_ifs) <;> rfl

theorem Opt.name_of_ofName {pf : Platform} {option : String} {o : Opt}
    (h : Opt.ofName pf option = some o) : o.name = option := by
  have := List.find?_some h
  simp only [Bool.and_eq_true, decide_eq_true_eq] at this
  exact this.1

/-- The number of values the specification lists for a recognised option. -/
def listedArity (option : String) : ℕ :=
  if option = "bindfs" ∨ option = "bindfs-ro" ∨ option = "tmpfs" ∨ option = "env" then 2
  else if option = "cgroup-option" then 3
  else if option = "debug" ∨ option = "status" then 0
  else 1

theorem listedArity_name (o : Opt) : listedArity o.name = o.nargv := by
  cases o <;> decide

/-- The scan over `argv[i..]`, with `skip` values of the last option still to
pass over; the index where the command starts. -/
def scanEnd : ℕ → ℕ → List String → ℕ
  | i, _, [] => i
  | i, skip + 1, _ :: rest => scanEnd (i + 1) skip rest
  | i, 0, a :: rest =>
      if !"--".data.isPrefixOf a.data then i
      else if a = "--" then i + 1
      else scanEnd (i + 1) (listedArity ⟨a.data.drop 2⟩) rest

/-- The options the scan meets, in order, with their values. -/
def requests (pf : Platform) : ℕ → List String → List (Opt × List String)
  | _, [] => []
  | skip + 1, _ :: rest => requests pf skip rest
  | 0, a :: rest =>
      if "--".data.isPrefixOf a.data ∧ a ≠ "--" then
        match Opt.ofName pf ⟨a.data.drop 2⟩ with
        | some o => (o, rest.take o.nargv) :: requests pf o.nargv rest
        | none => []
      else []

/-- The branches of the requested options, applied in order. -/
def applyAll (sc : Strconv) (pf : Platform) (reqs : List (Opt × List String)) (c : Config) :
    Config :=
  reqs.foldl (fun c r => r.1.apply sc pf r.2 c) c

theorem scanEnd_skip (i k : ℕ) (rest : List String) (h : k ≤ rest.length) :
    scanEnd i k rest = scanEnd (i + k) 0 (rest.drop k) := by
  induction k generalizing i rest with
  | zero => rfl
  | succ k ih =>
      obtain _ | ⟨a, rest⟩ := rest
      · simp at h
      · simp only [scanEnd, List.drop_succ_cons]
        rw [ih _ _ (by simpa using h)]
        ring_nf

theorem requests_skip (pf : Platform) (k : ℕ) (rest : List String) :
    requests pf k rest = requests pf 0 (rest.drop k) := by
  induction k generalizing rest with
  | zero => rfl
  | succ k ih => cases rest <;> simp [requests, ih]

theorem option_empty_iff {a : String} (h : isOption a = true) :
    (⟨a.data.drop 2⟩ : String) = "" ↔ a = "--" := by
  obtain ⟨_ | ⟨x, _ | ⟨y, l⟩⟩⟩ := a <;> simp [isOption, List.isPrefixOf, String.ext_iff] at h ⊢
  obtain ⟨rfl, rfl⟩ := h
  simp

theorem nextArgs_eq (argv : List String) (i n : ℕ) (h : i + n < argv.length) :
    nextArgs argv i n = some ((argv.drop (i + 1)).take n) := by
  induction n generalizing i with
  | zero => rfl
  | succ n ih =>
      have hi : i + 1 < argv.length := by omega
      rw [nextArgs, List.get?_eq_getElem?, List.getElem?_eq_getElem hi, ih (i + 1) (by omega),
        List.drop_eq_getElem_cons hi]
      rfl

/-- The scan passes over a recognised option and the values it takes. -/
theorem scanEnd_option {pf : Platform} {a : String} {o : Opt} (i : ℕ) {rest : List String}
    (ho : isOption a) (ha : a ≠ "--") (hof : Opt.ofName pf ⟨a.data.drop 2⟩ = some o)
    (hlen : o.nargv ≤ rest.length) :
    scanEnd i 0 (a :: rest) = scanEnd (i + o.nargv + 1) 0 (rest.drop o.nargv) := by
  simp only [isOption] at ho
  simp only [scanEnd, ho, ha, Bool.not_true, Bool.false_eq_true, if_false]
  rw [← Opt.name_of_ofName hof, listedArity_name, scanEnd_skip _ _ _ hlen, Nat.add_right_comm]

/-- The options met are a recognised option with its values, then those after them. -/
theorem requests_option {pf : Platform} {a : String} {o : Opt} {rest : List String}
    (ho : isOption a) (ha : a ≠ "--") (hof : Opt.ofName pf ⟨a.data.drop 2⟩ = some o) :
    requests pf 0 (a :: rest) = (o, rest.take o.nargv) :: requests pf 0 (rest.drop o.nargv) := by
  simp only [isOption] at ho
  simp only [requests, ho, ha, true_and, ne_eq, not_false_eq_true, if_true, hof]
  rw [requests_skip]

section
variable (pf : Platform) (sc : Strconv) (argv : List String)

/-- A usage error names the option token at `j`: one `parse_cli_options` does not
know, or one with fewer values left in `argv` than it takes. -/
def UsageAt (j : ℕ) (m : String) : Prop :=
  ∃ a, argv.get? j = some a ∧ isOption a ∧
    (Opt.ofName pf ⟨a.data.drop 2⟩ = none ∧ m = unknownMessage ⟨a.data.drop 2⟩ ∨
      ∃ o, Opt.ofName pf ⟨a.data.drop 2⟩ = some o ∧ argv.length ≤ j + o.nargv ∧
        m = requireMessage ⟨a.data.drop 2⟩ o.nargv)

/-- The loop invariant of `parse_cli_options`, for fuel that lasts until `i`
reaches `argc`; and a usage error names an option token from `i` on. -/
theorem parseLoop_spec (fuel i : ℕ) (c : Config) (hfuel : argv.length ≤ fuel + i) :
    parseLoop pf sc argv fuel i (c.withCommand i argv.length) ≠ .error .outOfRange ∧
      (∀ cfg, parseLoop pf sc argv fuel i (c.withCommand i argv.length) = .ok cfg →
        cfg = (applyAll sc pf (requests pf 0 (argv.drop i)) c).withCommand
          (scanEnd i 0 (argv.drop i)) argv.length) ∧
      ∀ m, parseLoop pf sc argv fuel i (c.withCommand i argv.length) = .error (.usage m) →
        ∃ j ≥ i, UsageAt pf argv j m := by
  induction fuel generalizing i c with
  | zero =>
      have hd : argv.drop i = [] := List.drop_eq_nil_of_le (by omega)
      simp [parseLoop, hd, scanEnd, requests, applyAll]
  | succ fuel ih =>
      by_cases hi : i < argv.length
      · have hget : argv.get? i = some argv[i] := by simp [hi]
        rw [List.drop_eq_getElem_cons hi]
        simp only [parseLoop, hi, if_true, hget]
        by_cases ho : isOption argv[i]
        · have hopt := option_empty_iff ho
          have hp : "--".data.isPrefixOf argv[i].data = true := ho
          simp only [isOption, hp, Bool.not_true, Bool.false_eq_true, if_false,
            Config.withCommand_withCommand]
          -- `--help`, `--help-syscalls`, `--version` and `--` in the source's order
          by_cases h1 : (⟨argv[i].data.drop 2⟩ : String) = "help"
          · simp [h1]
          rw [if_neg h1]
          by_cases h2 : (⟨argv[i].data.drop 2⟩ : String) = "help-syscalls" ∧ pf.seccompSupported
          · simp [h2]
          rw [if_neg h2]
          by_cases h3 : (⟨argv[i].data.drop 2⟩ : String) = "version"
          · simp [h3]
          rw [if_neg h3]
          by_cases h4 : (⟨argv[i].data.drop 2⟩ : String) = ""
          · simp [h4, scanEnd, requests, applyAll, hopt.mp h4]
          rw [if_neg h4]
          have ha : argv[i] ≠ "--" := fun e => h4 (hopt.mpr e)
          split
          · -- an option it does not know
            rename_i hof
            refine ⟨by simp, by simp, fun m hm => ⟨i, le_rfl, _, hget, ho, .inl ⟨hof, ?_⟩⟩⟩
            simpa using hm.symm
          · rename_i o hof
            split_ifs with hreq
            · -- fewer values left than the option takes
              refine ⟨by simp, by simp, fun m hm => ⟨i, le_rfl, _, hget, ho, .inr ⟨o, hof, hreq, ?_⟩⟩⟩
              simpa using hm.symm
            · have hlen : o.nargv ≤ (argv.drop (i + 1)).length := by rw [List.length_drop]; omega
              rw [nextArgs_eq argv i o.nargv (by omega), scanEnd_option i ho ha hof hlen,
                requests_option ho ha hof, List.drop_drop, Nat.add_right_comm]
              simp only [Config.withCommand_shiftCommand, Opt.apply_withCommand,
                show i + 1 + o.nargv = i + o.nargv + 1 by omega]
              obtain ⟨h1, h2, h3⟩ := ih (i + o.nargv + 1) (o.apply sc pf _ c) (by omega)
              exact ⟨h1, h2, fun m hm => (h3 m hm).imp fun j hj => ⟨by omega, hj.2⟩⟩
        · simp only [isOption, Bool.not_eq_true] at ho
          simp [isOption, ho, scanEnd, requests, applyAll]
      · have hd : argv.drop i = [] := List.drop_eq_nil_of_le (by omega)
        simp [parseLoop, hi, hd, scanEnd, requests, applyAll]

/-- `parse_cli_options` never reads past the end of `argv`, and when it
returns, `args` and `argc` locate the command where the scan says it starts. -/
theorem parseCliOptions_command (cfg : Config) :
    parseCliOptions pf sc argv cfg ≠ .error .outOfRange ∧
      ∀ cfg', parseCliOptions pf sc argv cfg = .ok cfg' →
        cfg'.arg.args = scanEnd 1 0 (argv.drop 1) ∧
          cfg'.arg.argc = argv.length - scanEnd 1 0 (argv.drop 1) := by
  obtain ⟨h1, h2, -⟩ := parseLoop_spec pf sc argv argv.length 1 cfg (by omega)
  refine ⟨h1, fun cfg' h => ?_⟩
  rw [h2 cfg' h]
  exact ⟨rfl, rfl⟩

/-- `--env --a --b -- ls`: the values of `--env` start with `--`, and the command
starts after the bare `--` at index 4. -/
theorem parseCliOptions_command_env :
    ∃ cfg, parseCliOptions ⟨true, false, fun _ => 0⟩ ⟨fun _ => 0, fun _ => 0, fun _ => true,
        fun _ => 0⟩ ["lrun", "--env", "--a", "--b", "--", "ls"] (initDefaultConfig 1000 1000) =
        .ok cfg ∧ cfg.arg.args = 5 ∧ cfg.arg.argc = 1 := by
  have h := parseCliOptions_command ⟨true, false, fun _ => 0⟩
    ⟨fun _ => 0, fun _ => 0, fun _ => true, fun _ => 0⟩ ["lrun", "--env", "--a", "--b", "--", "ls"]
    (initDefaultConfig 1000 1000)
  obtain ⟨ha, hc⟩ := h.2 _ rfl
  exact ⟨_, rfl, ha.trans (by decide), hc.trans (by decide)⟩

/-- Every usage error of `parse_cli_options` names an option token of `argv`:
one it does not know, or one with fewer values left than it takes. -/
theorem parseCliOptions_usage {cfg : Config} {m : String}
    (h : parseCliOptions pf sc argv cfg = .error (.usage m)) : ∃ j ≥ 1, UsageAt pf argv j m :=
  (parseLoop_spec pf sc argv argv.length 1 cfg (by omega)).2.2 m h

example : parseCliOptions ⟨true, false, fun _ => 0⟩
    ⟨fun _ => 0, fun _ => 0, fun _ => true, fun _ => 0⟩ ["lrun", "--uid"] (initDefaultConfig 0 0) =
      .error (.usage (requireMessage "uid" 1)) := rfl

/-- What `parse_cli_options` leaves: the requested options applied in order,
and the command where the scan says it starts. -/
theorem parseCliOptions_eq {cfg cfg' : Config} (h : parseCliOptions pf sc argv cfg = .ok cfg') :
    cfg' = (applyAll sc pf (requests pf 0 (argv.drop 1)) cfg).withCommand
      (scanEnd 1 0 (argv.drop 1)) argv.length :=
  (parseLoop_spec pf sc argv argv.length 1 cfg (by omega)).2.1 cfg' h

end

end Lrun
