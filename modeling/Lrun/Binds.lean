import Mathlib.Data.List.Basic
import Lrun.CheckConfig

/-!
# Following binds

`check_config` checks each bind source, and the `--chroot` and `--chdir`
paths, at the place the mounts made before them really show. It builds the
bind list source by source, each source followed through the binds before it,
and then looks a path up in one step: the last destination `d` with `d + "/"`
in front of the path is replaced by its source. The code's comment says once
is enough because every source already followed the binds before it.

Mounting in order resolves a path through every bind, the last one first: a
path at or below a destination continues from the source, joined with the
part of the path below the destination. The two agree on many layouts but not
on a path equal to a destination, on the destination `/`, nor when a later
bind's source holds an earlier destination below it.

Away from these cases the one-step lookup is exact. When every destination and
source is a normalised path other than `/`, no source is an earlier
destination or holds one strictly under it, and the path is no destination,
`follow_binds` over the binds `check_config` builds finds what mounting shows.
A source under an earlier destination, the case the code follows sources for,
is then resolved in full.
-/

namespace Lrun

/-- An absolute path with no empty, `.` or `..` component and no trailing `/`. -/
def normalised (p : String) : Bool :=
  match p.data with
  | ['/'] => true
  | '/' :: rest =>
      (rest.splitOn '/').all fun comp => comp ≠ [] && comp ≠ ['.'] && comp ≠ ['.', '.']
  | _ => false

/-- The part of `p` at or below the directory `d`, if `p` is there. -/
def below (d p : List Char) : Option (List Char) :=
  if p = d then some []
  else if d = ['/'] then
    match p with
    | '/' :: r => some r
    | _ => none
  else if p.take (d.length + 1) = d ++ ['/'] then some (p.drop (d.length + 1))
  else none

/-- A directory joined with a relative part. -/
def joinPath (s r : List Char) : List Char :=
  if r = [] then s else if s = ['/'] then '/' :: r else s ++ '/' :: r

/-- Resolution through binds given last first. -/
def resolveLoop : List (String × String) → List Char → List Char
  | [], p => p
  | (dest, src) :: earlier, p =>
      match below dest.data p with
      | some r => resolveLoop earlier (joinPath src.data r)
      | none => resolveLoop earlier p

/-- The path `p` names once the binds `B` are mounted in order. -/
def mountResolve (B : List (String × String)) (p : String) : String :=
  ⟨resolveLoop B.reverse p.data⟩


/-- The binds `check_config` builds from `--bindfs` pairs. -/
def builtBinds (fs : Fs) (B : List (String × String)) : List (String × String) :=
  (checkBindfs fs [] B).2

/-- Where the one-step lookup and the mount order part, for `fs::expand` the
identity on normalised paths: a path equal to a destination is not followed,
the destination `/` is never matched, and a path under a later bind whose
source holds an earlier destination stops at that source. -/
theorem followBinds_ne_mountResolve (fs : Fs)
    (habs : ∀ q, fs.isAbsolute q = decide (q.data.head? = some '/'))
    (hexp : ∀ q, normalised q = true → fs.expand q = q) :
    followBinds fs (builtBinds fs [("/a", "/b")]) "/a" = "/a" ∧
      mountResolve [("/a", "/b")] "/a" = "/b" ∧
    followBinds fs (builtBinds fs [("/", "/r")]) "/etc" = "/etc" ∧
      mountResolve [("/", "/r")] "/etc" = "/r/etc" ∧
    followBinds fs (builtBinds fs [("/x/y", "/s"), ("/d", "/x")]) "/d/y/z" = "/x/y/z" ∧
      mountResolve [("/x/y", "/s"), ("/d", "/x")] "/d/y/z" = "/s/z" := by
  simp only [builtBinds, checkBindfs, followBinds, habs, hexp _ (by decide : normalised "/a"),
    hexp _ (by decide : normalised "/b"), hexp _ (by decide : normalised "/"),
    hexp _ (by decide : normalised "/r"), hexp _ (by decide : normalised "/etc"),
    hexp _ (by decide : normalised "/x/y"), hexp _ (by decide : normalised "/s"),
    hexp _ (by decide : normalised "/d"), hexp _ (by decide : normalised "/x"),
    hexp _ (by decide : normalised "/d/y/z")]
  decide

theorem followBinds_ne_mountResolve_identity :
    let fs : Fs := ⟨fun q => decide (q.data.head? = some '/'), id, (· ++ ·), fun _ => false,
      fun _ _ => true⟩
    ((∀ q, fs.isAbsolute q = decide (q.data.head? = some '/')) ∧
      (∀ q, normalised q = true → fs.expand q = q)) ∧
    followBinds fs (builtBinds fs [("/a", "/b")]) "/a" = "/a" ∧
      mountResolve [("/a", "/b")] "/a" = "/b" ∧
    followBinds fs (builtBinds fs [("/", "/r")]) "/etc" = "/etc" ∧
      mountResolve [("/", "/r")] "/etc" = "/r/etc" ∧
    followBinds fs (builtBinds fs [("/x/y", "/s"), ("/d", "/x")]) "/d/y/z" = "/x/y/z" ∧
      mountResolve [("/x/y", "/s"), ("/d", "/x")] "/d/y/z" = "/s/z" :=
  ⟨⟨fun _ => rfl, fun _ _ => rfl⟩, followBinds_ne_mountResolve _ (fun _ => rfl) fun _ _ => rfl⟩

/-- `d` lies strictly under the directory `s`: `s + "/"` is in front of it. -/
def under (s d : List Char) : Bool := (s ++ ['/']).isPrefixOf d

/-- The bind layouts on which the one-step lookup is exact: every destination
and source is a normalised path other than `/`, and no source is an earlier
destination or holds one strictly under it. -/
def Separated (B : List (String × String)) : Prop :=
  (∀ b ∈ B, normalised b.1 = true ∧ normalised b.2 = true ∧ b.1 ≠ "/" ∧ b.2 ≠ "/") ∧
    B.Pairwise fun e l => l.2 ≠ e.1 ∧ under l.2.data e.1.data = false

instance : DecidablePred Separated := fun _ => inferInstanceAs (Decidable (_ ∧ _))

theorem under_iff {s d : List Char} : under s d = true ↔ ∃ t, d = s ++ '/' :: t := by
  rw [under, List.isPrefixOf_iff_prefix]
  constructor
  · rintro ⟨t, rfl⟩
    exact ⟨t, by simp⟩
  · rintro ⟨t, rfl⟩
    exact ⟨t, by simp⟩

theorem take_eq_slash_iff {s d : List Char} :
    d.take (s.length + 1) = s ++ ['/'] ↔ ∃ t, d = s ++ '/' :: t := by
  rw [← under_iff, under, List.isPrefixOf_iff_prefix, List.prefix_iff_eq_take, eq_comm]
  simp

/-- The two ways `q + "/" + r` and `d + "/" + r'` can be one path: the same
directory, or one strictly under the other. -/
theorem slash_append_eq {q d r r' : List Char} (h : q ++ '/' :: r = d ++ '/' :: r') :
    q = d ∧ r = r' ∨ (∃ t, q = d ++ '/' :: t ∧ r' = t ++ '/' :: r) ∨ ∃ t, d = q ++ '/' :: t := by
  rcases List.append_eq_append_iff.mp h with ⟨a, hd, hr⟩ | ⟨c, hq, hr⟩
  · -- `d` extends `q`
    cases a with
    | nil => simp_all
    | cons x a =>
      obtain ⟨rfl, rfl⟩ := List.cons.inj hr
      exact .inr (.inr ⟨a, hd⟩)
  · -- `q` extends `d`
    cases c with
    | nil => simp_all
    | cons x c =>
      obtain ⟨rfl, rfl⟩ := List.cons.inj hr
      exact .inr (.inl ⟨c, hq, rfl⟩)

theorem below_self (d : List Char) : below d d = some [] := by simp [below]

theorem below_under {d : List Char} (hd : d ≠ ['/']) (t : List Char) :
    below d (d ++ '/' :: t) = some t := by
  have hne : d ++ '/' :: t ≠ d := fun h => by simpa using congrArg List.length h
  simp [below, hne, hd, List.take_append_eq_append_take, List.drop_append_eq_append_drop,
    List.take_of_length_le (Nat.le_succ d.length)]

theorem below_none {d p : List Char} (hd : d ≠ ['/']) (hp : p ≠ d)
    (hu : ∀ t, p ≠ d ++ '/' :: t) : below d p = none := by
  have : ¬ p.take (d.length + 1) = d ++ ['/'] := fun h => by
    obtain ⟨t, rfl⟩ := take_eq_slash_iff.mp h
    exact hu t rfl
  simp [below, hp, hd, this]

theorem followBindsLoop_under (dest src : String) (earlier : List (String × String))
    (t : List Char) :
    followBindsLoop ((dest, src) :: earlier) (dest.data ++ '/' :: t) = src.data ++ '/' :: t := by
  simp [followBindsLoop, List.take_append_eq_append_take, List.drop_append_eq_append_drop,
    List.take_of_length_le (Nat.le_succ dest.data.length)]

theorem followBindsLoop_skip {dest src : String} {earlier : List (String × String)}
    {p : List Char} (hu : ∀ t, p ≠ dest.data ++ '/' :: t) :
    followBindsLoop ((dest, src) :: earlier) p = followBindsLoop earlier p := by
  have : ¬ p.take (dest.data ++ ['/']).length = dest.data ++ ['/'] := fun h => by
    obtain ⟨t, rfl⟩ := take_eq_slash_iff.mp (by simpa using h)
    exact hu t rfl
  simp only [followBindsLoop, this, if_false]

theorem joinPath_of_ne_nil {s r : List Char} (hs : s ≠ ['/']) (hr : r ≠ []) :
    joinPath s r = s ++ '/' :: r := by
  simp [joinPath, hs, hr]

theorem normalised_head {p : String} (h : normalised p = true) : p.data.head? = some '/' := by
  unfold normalised at h
  split at h <;> simp_all

theorem nil_mem_splitOnP_go (l acc : List Char) :
    [] ∈ List.splitOnP.go (· == '/') (l ++ ['/']) acc := by
  induction l generalizing acc with
  | nil => simp [List.splitOnP.go]
  | cons a l ih =>
    simp only [List.cons_append, List.splitOnP.go]
    split <;> simp [ih]

/-- A normalised path other than `/` does not end in `/`. -/
theorem normalised_noTrail {p : String} (h : normalised p = true) (hp : p.data ≠ ['/'])
    (u : List Char) : p.data ≠ u ++ ['/'] := by
  intro hu
  unfold normalised at h
  split at h
  · exact hp ‹_›
  · rename_i rest _ hdata
    cases u with
    | nil => simp_all
    | cons c u =>
      rw [hdata, List.cons_append] at hu
      obtain ⟨-, rfl⟩ := List.cons.inj hu
      simpa using List.all_eq_true.mp h [] (nil_mem_splitOnP_go u [])
  · simp at h

theorem data_ne_slash {s : String} (h : s ≠ "/") : s.data ≠ ['/'] := fun e => h (congrArg String.mk e)

@[simp] theorem under_append_slash (s t : List Char) : under s (s ++ '/' :: t) = true :=
  under_iff.mpr ⟨t, rfl⟩

theorem under_of_under_slash {s t d : List Char} (h : under (s ++ '/' :: t) d = true) :
    under s d = true := by
  obtain ⟨u, rfl⟩ := under_iff.mp h
  exact under_iff.mpr ⟨t ++ '/' :: u, by simp⟩

/-- Swapping the directory in front of a tail keeps a path from ending in `/`. -/
theorem noTrail_slash {s d t : List Char} (ht : t ≠ []) (h : ∀ u, d ++ '/' :: t ≠ u ++ ['/'])
    (u : List Char) : s ++ '/' :: t ≠ u ++ ['/'] := by
  obtain rfl | ⟨t', c, rfl⟩ := List.eq_nil_or_concat t
  · exact absurd rfl ht
  intro hu
  have hu' : (s ++ '/' :: t') ++ [c] = u ++ ['/'] := by simpa using hu
  obtain rfl : c = '/' := by simpa using (List.append_inj' hu' rfl).2
  exact h (d ++ '/' :: t') (by simp)

/-- Mounting bind after bind, the last one first, carries a tail along: the
path `q + "/" + r` resolves to the resolution of `q`, then `"/" + r`, when no
destination lies strictly under `q` or under a source met on the way. -/
theorem resolveLoop_append {L : List (String × String)}
    (hL : ∀ b ∈ L, b.1.data ≠ ['/'] ∧ b.2.data ≠ ['/'] ∧ ∀ u, b.2.data ≠ u ++ ['/'])
    (hsep : L.Pairwise fun l e => under l.2.data e.1.data = false)
    {q r : List Char} (hq : ∀ b ∈ L, under q b.1.data = false) (hqt : ∀ u, q ≠ u ++ ['/'])
    (hr : r ≠ []) :
    resolveLoop L (q ++ '/' :: r) = resolveLoop L q ++ '/' :: r := by
  induction L generalizing q with
  | nil => rfl
  | cons b L ih =>
    obtain ⟨dest, src⟩ := b
    obtain ⟨hd, hs, hst⟩ := hL _ (List.mem_cons_self _ _)
    have hL' := fun b hb => hL b (List.mem_cons_of_mem _ hb)
    obtain ⟨hsrc, hsep'⟩ := List.pairwise_cons.mp hsep
    have hout : under q dest.data = false := hq _ (List.mem_cons_self _ _)
    by_cases hqd : q = dest.data
    · -- `q` is the destination: both continue from the source
      subst hqd
      simp only [resolveLoop, below_self, below_under hd, joinPath_of_ne_nil hs hr]
      simp only [joinPath, if_true]
      exact ih hL' hsep' hsrc hst
    by_cases hu : ∃ t, q = dest.data ++ '/' :: t
    · -- `q` is under the destination: both continue from the source with a tail
      obtain ⟨t, rfl⟩ := hu
      have ht : t ≠ [] := by
        rintro rfl
        exact hqt dest.data (by simp)
      simp only [resolveLoop, List.append_assoc, List.cons_append, below_under hd,
        joinPath_of_ne_nil hs ht, joinPath_of_ne_nil hs (List.append_ne_nil_of_left_ne_nil ht _)]
      simpa using @ih hL' hsep' (src.data ++ '/' :: t)
        (fun b hb => Bool.eq_false_iff.mpr fun h => by
          simpa [hsrc b hb] using under_of_under_slash h)
        (noTrail_slash ht hqt)
    · -- `q` is outside the destination, and so is every path under `q`
      have hX : below dest.data (q ++ '/' :: r) = none := by
        refine below_none hd (fun h => ?_) fun t h => ?_
        · simp [← h] at hout
        · rcases slash_append_eq h with ⟨rfl, -⟩ | ⟨t', rfl, -⟩ | ⟨t', hdq⟩
          · exact hqd rfl
          · exact hu ⟨t', rfl⟩
          · simp [hdq] at hout
      simp only [resolveLoop, hX, below_none hd hqd fun t h => hu ⟨t, h⟩]
      exact ih hL' hsep' (fun b hb => hq b (List.mem_cons_of_mem _ hb)) hqt

theorem checkBindfs_append (fs : Fs) (acc B : List (String × String)) (b : String × String) :
    (checkBindfs fs acc (B ++ [b])).2 = (checkBindfs fs acc B).2 ++
      [(fs.expand b.1, followBinds fs (checkBindfs fs acc B).2 (fs.expand b.2))] := by
  induction B generalizing acc with
  | nil => rfl
  | cons x B ih => exact ih _

/-- A normalised path strictly below a normalised destination has a
nonempty rest after the separating slash. -/
theorem normalised_rest_ne_nil {p d : String} (hp : normalised p = true)
    (hd : normalised d = true) {t : List Char} (ht : p.data = d.data ++ '/' :: t) : t ≠ [] := by
  rintro rfl
  refine normalised_noTrail hp (fun h1 => ?_) d.data ht
  have hd0 : d.data = [] := List.append_cancel_right (ht.symm.trans h1 : _ = [] ++ ['/'])
  exact absurd (normalised_head hd) (by rw [hd0]; nofun)

/-- What `resolveLoop_append` asks of the binds, met by a separated list in
the order the lookup scans it. -/
theorem Separated.reverse_sides {B : List (String × String)} (h : Separated B) :
    ∀ b ∈ B.reverse, b.1.data ≠ ['/'] ∧ b.2.data ≠ ['/'] ∧ ∀ u, b.2.data ≠ u ++ ['/'] :=
  fun b hb =>
    let ⟨_, h2, h3, h4⟩ := h.1 b (List.mem_reverse.mp hb)
    ⟨data_ne_slash h3, data_ne_slash h4, normalised_noTrail h2 (data_ne_slash h4)⟩

theorem Separated.reverse_pairwise {B : List (String × String)} (h : Separated B) :
    B.reverse.Pairwise fun l e => under l.2.data e.1.data = false :=
  List.pairwise_reverse.mpr (h.2.imp fun h => h.2)

section Agreement
variable {fs : Fs} (habs : ∀ q, fs.isAbsolute q = decide (q.data.head? = some '/'))
  (hexp : ∀ q, normalised q = true → fs.expand q = q)
include habs hexp

theorem followBinds_normalised (binds : List (String × String)) {p : String}
    (hp : normalised p = true) : followBinds fs binds p = ⟨followBindsLoop binds.reverse p.data⟩ := by
  simp [followBinds, habs, normalised_head hp, hexp p hp]

/-- The one-step lookup of `follow_binds`, over the binds `check_config` builds,
finds the path that mounting the binds in order shows, for every normalised
path that is no destination, when the binds are separated. -/
theorem followBinds_eq_mountResolve {B : List (String × String)} (hB : Separated B)
    {p : String} (hp : normalised p = true) (hpd : ∀ b ∈ B, p ≠ b.1) :
    followBinds fs (builtBinds fs B) p = mountResolve B p := by
  induction B using List.reverseRecOn generalizing p with
  | nil => simp [followBinds_normalised habs hexp _ hp, builtBinds, checkBindfs, followBindsLoop,
      mountResolve, resolveLoop]
  | append_singleton B b ih =>
    obtain ⟨dest, src⟩ := b
    obtain ⟨hall, hpw⟩ := hB
    obtain ⟨hpwB, -, hlast⟩ := List.pairwise_append.mp hpw
    obtain ⟨hdn, hsn, hd, hs⟩ := hall (dest, src) (by simp)
    have hsrc : ∀ e ∈ B, src ≠ e.1 ∧ under src.data e.1.data = false :=
      fun e he => hlast e he _ (List.mem_singleton_self _)
    have hBsep : Separated B := ⟨fun b hb => hall b (List.mem_append_left _ hb), hpwB⟩
    -- the source, followed through the earlier binds, is where mounting puts it
    have hfs := ih hBsep hsn fun e he => (hsrc e he).1
    rw [builtBinds, checkBindfs_append, ← builtBinds, hexp _ hdn, hexp _ hsn, hfs,
      followBinds_normalised habs hexp _ hp]
    simp only [mountResolve, List.reverse_append, List.reverse_cons, List.reverse_nil,
      List.nil_append, List.singleton_append]
    congr 1
    by_cases hu : ∃ t, p.data = dest.data ++ '/' :: t
    · obtain ⟨t, ht⟩ := hu
      have htn := normalised_rest_ne_nil hp hdn ht
      rw [ht, followBindsLoop_under]
      simp only [resolveLoop, below_under (data_ne_slash hd),
        joinPath_of_ne_nil (data_ne_slash hs) htn]
      exact (resolveLoop_append hBsep.reverse_sides hBsep.reverse_pairwise
        (fun b hb => (hsrc b (List.mem_reverse.mp hb)).2)
        (normalised_noTrail hsn (data_ne_slash hs)) htn).symm
    · have hne : p.data ≠ dest.data := fun h => hpd (dest, src) (by simp) (congrArg String.mk h)
      rw [followBindsLoop_skip fun t h => hu ⟨t, h⟩]
      simp only [resolveLoop, below_none (data_ne_slash hd) hne fun t h => hu ⟨t, h⟩]
      have := ih hBsep hp fun b hb => hpd b (List.mem_append_left _ hb)
      rw [followBinds_normalised habs hexp _ hp] at this
      exact congrArg String.data this

end Agreement

/-- A later source under an earlier destination: the lookup finds `/x/y/z`,
where mounting `/x` at `/a` and then `/a/y` at `/b` shows `/b/z`. -/
theorem followBinds_eq_mountResolve_nested :
    let fs : Fs := ⟨fun q => decide (q.data.head? = some '/'), id, (· ++ ·), fun _ => false,
      fun _ _ => true⟩
    Separated [("/a", "/x"), ("/b", "/a/y")] ∧ normalised "/b/z" = true ∧
      followBinds fs (builtBinds fs [("/a", "/x"), ("/b", "/a/y")]) "/b/z" =
        mountResolve [("/a", "/x"), ("/b", "/a/y")] "/b/z" ∧
      mountResolve [("/a", "/x"), ("/b", "/a/y")] "/b/z" = "/x/y/z" :=
  ⟨by decide, by decide,
    followBinds_eq_mountResolve (fun _ => rfl) (fun _ _ => rfl) (by decide) (by decide) (by decide),
    by decide⟩

end Lrun
