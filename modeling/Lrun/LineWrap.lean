import Mathlib.Data.List.Basic

/-!
# Help-text wrapping

`line_wrap` wraps the help text at spaces. For every space it looks ahead to
the next space (or the end of the text) and breaks the line there unless the
run up to that space, the join string and the current line still fit in the
width. The current line length is kept in `line_size`; a content newline
resets it and a break sets it to the indent.

The look-ahead stops only at a space, never at a newline, so the run it
measures may reach into the next line of the content. The greedy wrap below is
parametrised by the characters that end a word, so that both the run the code
measures and a run that also stops at a newline can be compared with it.
-/

namespace Lrun.LineWrap

/-- The inner loop of `line_wrap`: `rest` holds `content[j..]` and `k = j - i`.
The end of the content counts as a space. Returns `should_break`. -/
def lookAhead (width joinLength lineSize : ℕ) : List Char → ℕ → Bool
  | [], k => !decide (k + joinLength + lineSize < width)
  | d :: rest, k =>
      if d = ' ' ∧ k + joinLength + lineSize < width then false
      else lookAhead width joinLength lineSize rest (k + 1)

/-- The outer loop of `line_wrap` over the characters not yet read, with the
output so far and `line_size`. -/
def lineWrapLoop (width indent : ℕ) (join : List Char) :
    List Char → List Char → ℕ → List Char
  | [], result, _ => result
  | c :: rest, result, lineSize =>
      if c = ' ' then
        if lookAhead width join.length lineSize rest 1 then
          lineWrapLoop width indent join rest
            (result ++ (join ++ ['\n']) ++ List.replicate indent ' ') indent
        else lineWrapLoop width indent join rest (result ++ [c]) (lineSize + 1)
      else
        lineWrapLoop width indent join rest (result ++ [c])
          (if c = '\n' then 0 else lineSize + 1)

/-- `line_wrap(content, width, indent, join)`. The callers pass non-negative
indents, so `indent` is a natural number. -/
def lineWrap (content : String) (width indent : ℕ) (join : String := "") : String :=
  if width ≤ 0 then content else ⟨lineWrapLoop width indent join.data content.data [] 0⟩

/-! ## The greedy wrap -/

/-- The word after a space: the characters up to the first one in `stop`. -/
def wordAfter (stop : Char → Bool) (rest : List Char) : List Char :=
  rest.takeWhile fun d => !stop d

/-- Length of the last line of an output: the characters after its last newline. -/
def lastLineLength (out : List Char) : ℕ :=
  (out.reverse.takeWhile fun d => d ≠ '\n').length

/-- Greedy wrap: a space is replaced by `join ++ "\n" ++ indent spaces` exactly
when the output line so far, the space, the word after it and the join reach
the width. -/
def greedyWrap (stop : Char → Bool) (width indent : ℕ) (join : List Char) :
    List Char → List Char → List Char
  | [], out => out
  | c :: rest, out =>
      if c = ' ' ∧ width ≤ lastLineLength out + 1 + (wordAfter stop rest).length + join.length
      then greedyWrap stop width indent join rest
        (out ++ (join ++ ['\n']) ++ List.replicate indent ' ')
      else greedyWrap stop width indent join rest (out ++ [c])

/-- The code's word: it ends at the next space only. -/
def spaceStop (d : Char) : Bool := d = ' '

/-- A word that ends at the next space or newline. -/
def wordStop (d : Char) : Bool := d = ' ' || d = '\n'

/-! ## The look-ahead measures the run up to the next space -/

theorem lookAhead_eq (width joinLength lineSize : ℕ) (rest : List Char) (k : ℕ) :
    lookAhead width joinLength lineSize rest k =
      decide (width ≤ k + (wordAfter spaceStop rest).length + joinLength + lineSize) := by
  induction rest generalizing k with
  | nil => simp [lookAhead, wordAfter, ← decide_not]
  | cons d rest ih =>
      by_cases hd : d = ' '
      · subst hd
        by_cases hk : k + joinLength + lineSize < width
        · simp [lookAhead, wordAfter, spaceStop, hk]
        · simp [lookAhead, wordAfter, spaceStop, hk, ih]
          omega
      · simp [lookAhead, wordAfter, spaceStop, hd, ih]
        omega

@[simp] theorem lastLineLength_append_char (out : List Char) (c : Char) :
    lastLineLength (out ++ [c]) = if c = '\n' then 0 else lastLineLength out + 1 := by
  by_cases h : c = '\n' <;> simp [lastLineLength, h]

@[simp] theorem lastLineLength_break (out join : List Char) (indent : ℕ) :
    lastLineLength (out ++ (join ++ ['\n']) ++ List.replicate indent ' ') = indent := by
  simp [lastLineLength, List.takeWhile_append_of_pos]

/-- `line_size` is the length of the last output line, so the loop is the
greedy wrap with the code's word. -/
theorem lineWrapLoop_eq (width indent : ℕ) (join rest result : List Char) (lineSize : ℕ)
    (h : lineSize = lastLineLength result) :
    lineWrapLoop width indent join rest result lineSize =
      greedyWrap spaceStop width indent join rest result := by
  induction rest generalizing result lineSize with
  | nil => rfl
  | cons c rest ih =>
      by_cases hc : c = ' '
      · subst hc h
        by_cases hb : width ≤ lastLineLength result + 1 + (wordAfter spaceStop rest).length +
            join.length
        · have hl : lookAhead width join.length (lastLineLength result) rest 1 = true := by
            rw [lookAhead_eq]; simp only [decide_eq_true_eq]; omega
          simp only [lineWrapLoop, greedyWrap, hl, hb, if_true, true_and]
          exact ih _ _ (lastLineLength_break ..).symm
        · have hl : lookAhead width join.length (lastLineLength result) rest 1 = false := by
            rw [lookAhead_eq]; simp only [decide_eq_false_iff_not]; omega
          simp only [lineWrapLoop, greedyWrap, hl, hb, if_true, true_and, if_false]
          exact ih _ _ (by simp)
      · simp only [lineWrapLoop, greedyWrap, hc, false_and, if_false]
        exact ih _ _ (by simp [h])

theorem lineWrap_data (content join : String) (width indent : ℕ) (hw : 1 ≤ width) :
    (lineWrap content width indent join).data =
      greedyWrap spaceStop width indent join.data content.data [] := by
  rw [lineWrap, if_neg (by omega)]
  exact lineWrapLoop_eq _ _ _ _ _ _ rfl

example : lineWrap "a b\nccccc" 6 0 = "a\nb\nccccc" := by decide

theorem lineWrap_counts_past_newline :
    lineWrap "a b\nccccc" 6 0 ≠ ⟨greedyWrap wordStop 6 0 [] "a b\nccccc".data []⟩ := by
  decide

/-! ## What the wrap keeps -/

theorem greedyWrap_sublist (stop : Char → Bool) (width indent : ℕ) (join rest out : List Char) :
    (out ++ rest.filter fun d => d != ' ').Sublist (greedyWrap stop width indent join rest out) := by
  induction rest generalizing out with
  | nil => simp [greedyWrap]
  | cons c rest ih =>
      by_cases hc : c = ' '
      · subst hc
        have hf : ((' ' :: rest).filter fun d => d != ' ') = rest.filter fun d => d != ' ' := by
          simp
        rw [hf]
        simp only [greedyWrap, true_and]
        split_ifs
        · exact (((List.sublist_append_left out _).trans
            (List.sublist_append_left _ _)).append_right _).trans (ih _)
        · exact ((List.sublist_append_left out _).append_right _).trans (ih _)
      · have hf : ((c :: rest).filter fun d => d != ' ') = c :: rest.filter fun d => d != ' ' := by
          simp [hc]
        rw [hf]
        simp only [greedyWrap, hc, false_and, if_false]
        simpa using ih (out ++ [c])

/-- Without a trailing join. -/
def stripJoin (join line : List Char) : List Char :=
  if join.isSuffixOf line then line.take (line.length - join.length) else line

/-- An output line is shorter than the width, or without a trailing join and
its leading spaces it holds no space: a single word. -/
def ShortOrWord (width : ℕ) (join line : List Char) : Prop :=
  line.length < width ∨ ' ' ∉ (stripJoin join line).dropWhile fun d => d = ' '

theorem splitOn_append_newline (a b : List Char) :
    (a ++ '\n' :: b).splitOn '\n' = a.splitOn '\n' ++ b.splitOn '\n' := by
  suffices ∀ acc, List.splitOnP.go (· == '\n') (a ++ '\n' :: b) acc =
      List.splitOnP.go (· == '\n') a acc ++ List.splitOnP.go (· == '\n') b [] from this []
  induction a with
  | nil => simp [List.splitOnP.go]
  | cons x a ih => intro acc; by_cases hx : x = '\n' <;> simp [List.splitOnP.go, hx, ih]

theorem splitOn_of_newline_not_mem {l : List Char} (h : '\n' ∉ l) : l.splitOn '\n' = [l] :=
  List.splitOnP_eq_single _ _ fun x hx => by simpa using fun (e : x = '\n') => h (e ▸ hx)

theorem lastLineLength_newline (d out : List Char) :
    lastLineLength (d ++ '\n' :: out) = lastLineLength out := by
  simp only [lastLineLength, List.reverse_append, List.reverse_cons, List.append_assoc,
    List.singleton_append, List.takeWhile_append]
  split_ifs with h
  · rw [(List.takeWhile_prefix _).eq_of_length h]
    simp
  · rfl

theorem lastLineLength_of_newline_not_mem {cur : List Char} (h : '\n' ∉ cur) :
    lastLineLength cur = cur.length := by
  have hall : ∀ x ∈ cur.reverse, decide (x ≠ '\n') = true := fun x hx => by
    simp only [decide_eq_true_eq]
    rintro rfl
    exact h (List.mem_reverse.mp hx)
  rw [lastLineLength, List.takeWhile_eq_self_iff.mpr hall, List.length_reverse]

/-- The wrap after a newline depends only on what follows it. -/
theorem greedyWrap_newline (stop : Char → Bool) (width indent : ℕ) (join rest d out : List Char) :
    greedyWrap stop width indent join rest (d ++ '\n' :: out) =
      d ++ '\n' :: greedyWrap stop width indent join rest out := by
  induction rest generalizing out with
  | nil => rfl
  | cons c rest ih =>
      simp only [greedyWrap, lastLineLength_newline]
      split_ifs <;> simpa using ih _

theorem dropWhile_take_isPrefixOf (p : Char → Bool) (l : List Char) (n : ℕ) :
    (l.take n).dropWhile p <+: l.dropWhile p := by
  induction l generalizing n with
  | nil => simp
  | cons a l ih =>
      cases n with
      | zero => simp
      | succ n =>
          by_cases ha : p a
          · simpa [List.dropWhile_cons, ha] using ih n
          · simp [List.dropWhile_cons, ha, List.take_prefix]

theorem shortOrWord_of_fit (width : ℕ) (join cur : List Char)
    (h : ' ' ∈ cur.dropWhile (fun d => d = ' ') → cur.length < width) :
    ShortOrWord width join cur := by
  by_cases hs : ' ' ∈ cur.dropWhile fun d => d = ' '
  · exact .inl (h hs)
  · refine .inr fun hm => hs ?_
    unfold stripJoin at hm
    split_ifs at hm
    · exact (dropWhile_take_isPrefixOf _ cur _).subset hm
    · exact hm

theorem mem_dropWhile_append_char {cur : List Char} {c : Char} (hc : c ≠ ' ')
    (h : ' ' ∈ (cur ++ [c]).dropWhile fun d => d = ' ') : ' ' ∈ cur.dropWhile fun d => d = ' ' := by
  rw [List.dropWhile_append] at h
  split_ifs at h
  · simp [List.dropWhile_cons, hc] at h
    exact absurd h.symm hc
  · simpa [hc.symm] using h

/-- Every line the greedy wrap completes from a current line `cur` is short or a
single word, as long as a kept space on `cur` left room for the word after it. -/
theorem greedyWrap_lines (width indent : ℕ) {join : List Char} (hj : '\n' ∉ join)
    (rest cur : List Char) (hcur : '\n' ∉ cur)
    (hfit : ' ' ∈ cur.dropWhile (fun d => d = ' ') →
      cur.length + (wordAfter spaceStop rest).length + join.length < width) :
    ∀ ℓ ∈ (greedyWrap spaceStop width indent join rest cur).splitOn '\n',
      ShortOrWord width join ℓ := by
  induction rest generalizing cur with
  | nil =>
      simp only [greedyWrap, splitOn_of_newline_not_mem hcur, List.mem_singleton, forall_eq]
      exact shortOrWord_of_fit width join cur fun hs => by have := hfit hs; omega
  | cons c rest ih =>
      have hL := lastLineLength_of_newline_not_mem hcur
      by_cases hc : c = ' '
      · subst hc
        have hw : wordAfter spaceStop (' ' :: rest) = [] := by simp [wordAfter, spaceStop]
        simp only [greedyWrap, true_and, hL]
        split_ifs with hb
        · have hcj : '\n' ∉ cur ++ join := by simp [hcur, hj]
          rw [show cur ++ (join ++ ['\n']) ++ List.replicate indent ' ' =
              (cur ++ join) ++ '\n' :: List.replicate indent ' ' by simp,
            greedyWrap_newline, splitOn_append_newline, splitOn_of_newline_not_mem hcj]
          simp only [List.singleton_append, List.mem_cons]
          rintro ℓ (rfl | hℓ)
          · by_cases hs : ' ' ∈ cur.dropWhile fun d => d = ' '
            · have := hfit hs
              simp only [hw, List.length_nil] at this
              exact .inl (by simp; omega)
            · exact .inr (by simpa [stripJoin] using hs)
          · exact ih _ (by simp) (by simp [List.dropWhile_replicate]) ℓ hℓ
        · exact ih _ (by simpa using hcur) fun _ => by simp; omega
      · have hw : wordAfter spaceStop (c :: rest) = c :: wordAfter spaceStop rest := by
          simp [wordAfter, spaceStop, hc]
        simp only [greedyWrap, hc, false_and, if_false]
        by_cases hn : c = '\n'
        · subst hn
          rw [show cur ++ ['\n'] = cur ++ '\n' :: [] from rfl, greedyWrap_newline,
            splitOn_append_newline, splitOn_of_newline_not_mem hcur]
          simp only [List.singleton_append, List.mem_cons]
          rintro ℓ (rfl | hℓ)
          · exact shortOrWord_of_fit width join _ fun hs => by
              have := hfit hs
              simp only [hw, List.length_cons] at this
              omega
          · exact ih [] (by simp) (by simp) ℓ hℓ
        · refine ih _ (by simpa [Ne.symm hn] using hcur) fun hs => ?_
          have := hfit (mem_dropWhile_append_char hc hs)
          simp only [hw, List.length_cons] at this
          simp only [List.length_append, List.length_singleton]
          omega

/-- `line_wrap` is the greedy wrap whose word runs to the next space. It keeps
every non-space character in order, and when the join has no newline every
line it writes is short or a single word. -/
theorem lineWrap_greedy (content join : String) (width indent : ℕ) (hw : 1 ≤ width) :
    (lineWrap content width indent join).data =
        greedyWrap spaceStop width indent join.data content.data [] ∧
      (content.data.filter fun d => d != ' ').Sublist (lineWrap content width indent join).data ∧
      ('\n' ∉ join.data → ∀ ℓ ∈ (lineWrap content width indent join).data.splitOn '\n',
        ShortOrWord width join.data ℓ) := by
  rw [lineWrap_data content join width indent hw]
  exact ⟨rfl, by simpa using greedyWrap_sublist spaceStop width indent join.data content.data [],
    fun hj => greedyWrap_lines width indent hj _ [] (by simp) (by simp)⟩

theorem lineWrap_greedy_join_backslash :
    1 ≤ 8 ∧
      ((lineWrap "lrun --network true" 8 7 " \\").data =
          greedyWrap spaceStop 8 7 " \\".data "lrun --network true".data [] ∧
        ("lrun --network true".data.filter fun d => d != ' ').Sublist
          (lineWrap "lrun --network true" 8 7 " \\").data ∧
        ('\n' ∉ " \\".data → ∀ ℓ ∈ (lineWrap "lrun --network true" 8 7 " \\").data.splitOn '\n',
          ShortOrWord 8 " \\".data ℓ)) :=
  ⟨by decide, lineWrap_greedy "lrun --network true" " \\" 8 7 (by decide)⟩

end Lrun.LineWrap
