import Mathlib.Data.Rat.Floor

/-!
# Platform and collaborators

`lrun.cc` calls into pieces that are not part of its source: the string
conversions of `strconv.h`, the path helpers of `fs.h`, `seccomp::supported()`
and `Cgroup::subsys_id_from_name`. Each is a field of a parameter record, so
every result below holds whatever they compute.

The C casts the parser applies, the glibc wait-status macros and the `%.3f`
of the status report are written out here, on the values the code stores:
`long long` as `ℤ`, `double` as `ℚ` (the exact value of the double; the
arithmetic on it is not rounded), wait statuses as the non-negative `int` the
kernel writes.
-/

namespace Lrun

/-- `strconv::to_longlong`, `to_double`, `to_bool` and `to_bytes`. -/
structure Strconv where
  toLonglong : String → ℤ
  toDouble : String → ℚ
  toBool : String → Bool
  toBytes : String → ℤ

/-- `fs::is_absolute`, `fs::expand`, `fs::join`, `fs::is_dir` and
`fs::is_accessible(path, mode)`. -/
structure Fs where
  isAbsolute : String → Bool
  expand : String → String
  join : String → String → String
  isDir : String → Bool
  isAccessible : String → ℕ → Bool

/-- How lrun was built and what `cgroup.h` answers: `seccomp::supported()`,
whether `NDEBUG` was left undefined (`--debug`, `--status`), and
`Cgroup::subsys_id_from_name`. -/
structure Platform where
  seccompSupported : Bool
  debug : Bool
  subsysIdFromName : String → ℤ

/-! ## C conversions -/

/-- `(uid_t)`, `(gid_t)`, `(mode_t)` and `(useconds_t)` of a `long long`: the low 32 bits. -/
def toUint32 (x : ℤ) : ℕ := (x % 2 ^ 32).toNat

/-- `(int)` of a `long long`: the low 32 bits read in two's complement. -/
def toInt32 (x : ℤ) : ℤ :=
  if x % 2 ^ 32 < 2 ^ 31 then x % 2 ^ 32 else x % 2 ^ 32 - 2 ^ 32

/-- An `rlim_t` (unsigned 64-bit) assigned from a `long long`. -/
def toRlim (x : ℤ) : ℕ := (x % 2 ^ 64).toNat

/-- A `double` converted to an integer type: truncation toward zero. -/
def truncate (q : ℚ) : ℤ := if 0 ≤ q then ⌊q⌋ else ⌈q⌉

/-! ## Wait statuses (glibc `<bits/waitstatus.h>`) -/

/-- `WTERMSIG(s)`: `s & 0x7f`. -/
def wtermsig (s : ℕ) : ℕ := s &&& 0x7f

/-- `WEXITSTATUS(s)`: `(s & 0xff00) >> 8`. -/
def wexitstatus (s : ℕ) : ℕ := (s &&& 0xff00) >>> 8

/-- `WIFEXITED(s)`: `WTERMSIG(s) == 0`. -/
def wifexited (s : ℕ) : Bool := wtermsig s = 0

/-- `WIFSIGNALED(s)`: `((signed char)((s & 0x7f) + 1) >> 1) > 0`, that is a
termination signal other than 0 and the stop marker 0x7f. -/
def wifsignaled (s : ℕ) : Bool := wtermsig s ≠ 0 ∧ wtermsig s ≠ 0x7f

/-- Signal numbers on Linux. -/
def sighup : ℕ := 1
def sigint : ℕ := 2
def sigquit : ℕ := 3
def sigill : ℕ := 4
def sigtrap : ℕ := 5
def sigabrt : ℕ := 6
def sigfpe : ℕ := 8
def sigkill : ℕ := 9
def sigpipe : ℕ := 13
def sigalrm : ℕ := 14
def sigterm : ℕ := 15
def sigxcpu : ℕ := 24
def sigxfsz : ℕ := 25

/-- The wait status of a child that called `exit(code)`. -/
def exitedStatus (code : ℕ) : ℕ := (code % 256) <<< 8

/-! ## `printf` -/

/-- The thousandths `printf("%.3f", x)` writes for `x`: `x * 1000` rounded to
the nearest integer, a tie going to the even one, as glibc rounds in the
default rounding mode. For `x = num / den` that is the floor of
`num * 1000 / den`, moved up when the remainder passes half of `den`. -/
def roundMillis (x : ℚ) : ℤ :=
  let n := x.num * 1000 / x.den
  let r := x.num * 1000 % x.den
  if 2 * r < x.den then n
  else if (x.den : ℤ) < 2 * r then n + 1
  else if n % 2 = 0 then n else n + 1

/-- The value `printf("%.3f", x)` writes: `roundMillis x` thousandths. -/
def fixed3 (x : ℚ) : ℚ := mkRat (roundMillis x) 1000

end Lrun
