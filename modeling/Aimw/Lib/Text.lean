import Aimw.Lib.JsonText

/-!
# Text

Python's `str` operations on lists of characters, as far as they are used:

* `splitLines` — the lines of a text file opened with universal newlines;
* `strip` — `str.strip()`;
* `splitMax sep n` — `str.split(sep, n)`, and `partition sep` — `str.partition(sep)`;
* `CharTable` — what `\d`, `\w` and `int()` know of a character, ASCII fixed and the rest of Unicode open;
* `pyInt` — `int(str)`.
-/

namespace Aimw.Lib

/-- A statement about the characters of a text is decided over the text, and not over all characters there are. -/
instance (priority := high) decidableForallChar (p : Char → Prop) [DecidablePred p] (s : List Char) :
    Decidable (∀ c ∈ s, p c) := List.decidableBAll p s

/-! ## Blanks -/

/-- `str.isspace()` of one character. -/
def isSpace (c : Char) : Bool :=
  let n := c.toNat
  (9 ≤ n && n ≤ 13) || (28 ≤ n && n ≤ 32) || n == 0x85 || n == 0xa0 || n == 0x1680 || (0x2000 ≤ n && n ≤ 0x200a) ||
    n == 0x2028 || n == 0x2029 || n == 0x202f || n == 0x205f || n == 0x3000

/-- A text without the blanks at its ends. -/
def stripWhile (blank : Char → Bool) (s : List Char) : List Char :=
  ((s.dropWhile blank).reverse.dropWhile blank).reverse

/-- `str.strip()`. -/
def strip (s : List Char) : List Char := stripWhile isSpace s

/-- Nothing is stripped from a text whose first and last characters are no blanks. -/
theorem stripWhile_eq_self {blank : Char → Bool} {s : List Char} (h1 : ∀ c ∈ s.head?, blank c = false)
    (h2 : ∀ c ∈ s.getLast?, blank c = false) : stripWhile blank s = s := by
  have hd : ∀ {l : List Char}, (∀ c ∈ l.head?, blank c = false) → l.dropWhile blank = l := by
    intro l hl
    cases l with
    | nil => rfl
    | cons c l => simp [hl c rfl]
  rw [stripWhile, hd h1, hd (by simpa using h2), List.reverse_reverse]

theorem strip_eq_self {s : List Char} (h1 : ∀ c ∈ s.head?, isSpace c = false)
    (h2 : ∀ c ∈ s.getLast?, isSpace c = false) : strip s = s := stripWhile_eq_self h1 h2

/-! ## Lines -/

/-- The lines of a text, their terminators (`\n`, `\r` or `\r\n`) removed. -/
def splitLines : List Char → List (List Char)
  | [] => []
  | c :: s =>
    if c = '\n' then [] :: splitLines s
    else if c = '\r' then (if s.head? = some '\n' then splitLines s else [] :: splitLines s)
    else match splitLines s with
      | [] => [[c]]
      | l :: ls => (c :: l) :: ls

/-- A file of which every line is terminated by `\n`. -/
def Terminated (s : List Char) : Prop := s = [] ∨ ∃ t, s = t ++ ['\n']

/-- A text on a single line. -/
def OneLine (s : List Char) : Prop := ∀ c ∈ s, c ≠ '\n' ∧ c ≠ '\r'

theorem splitLines_oneLine {s : List Char} (h : OneLine s) : splitLines (s ++ ['\n']) = [s] := by
  induction s with
  | nil => rfl
  | cons c s ih =>
    have hc := h c (by simp)
    have ih := ih fun d hd => h d (by simp [hd])
    simp [splitLines, hc.1, hc.2, ih]

lemma splitLines_ne_nil {s : List Char} (hs : s ≠ []) : splitLines s ≠ [] := by
  induction s with
  | nil => exact absurd rfl hs
  | cons c s ih =>
    rw [splitLines]
    split_ifs with h1 h2 h3
    · simp
    · exact ih (by rintro rfl; simp at h3)
    · simp
    · split <;> simp

lemma splitLines_append_newline (s t : List Char) :
    splitLines (s ++ '\n' :: t) = splitLines (s ++ ['\n']) ++ splitLines t := by
  induction s with
  | nil => simp [splitLines]
  | cons c s ih =>
    -- a `\r` at the end of `s` looks at the `\n` that follows, which is there on both sides
    have hhead : (s ++ '\n' :: t).head? = (s ++ ['\n']).head? := by cases s <;> rfl
    obtain ⟨l, ls, hl⟩ := List.exists_cons_of_ne_nil (splitLines_ne_nil (s := s ++ ['\n']) (by simp))
    simp only [List.cons_append, splitLines, hhead, ih]
    split_ifs
    · rfl
    · rfl
    · rfl
    · simp [hl]

theorem splitLines_append {s : List Char} (hs : Terminated s) (t : List Char) :
    splitLines (s ++ t) = splitLines s ++ splitLines t := by
  rcases hs with rfl | ⟨s, rfl⟩
  · rfl
  · rw [List.append_assoc, List.singleton_append, splitLines_append_newline]

/-! ## Splitting -/

/-- `str.split(sep, n)`: at most `n` cuts, at the first occurrences of `sep`. -/
def splitMax (sep : Char) : ℕ → List Char → List (List Char)
  | 0, s => [s]
  | _ + 1, [] => [[]]
  | n + 1, c :: s =>
    if c = sep then [] :: splitMax sep n s
    else match splitMax sep (n + 1) s with
      | [] => [[c]]
      | p :: ps => (c :: p) :: ps

theorem splitMax_append {sep : Char} {p : List Char} (hp : sep ∉ p) (n : ℕ) (s : List Char) :
    splitMax sep (n + 1) (p ++ sep :: s) = p :: splitMax sep n s := by
  induction p with
  | nil => simp [splitMax]
  | cons c p ih =>
    have hc : c ≠ sep := fun h => hp (by simp [h])
    have ih := ih fun h => hp (by simp [h])
    simp [splitMax, hc, ih]

/-- One cut: either the separator is absent, or the part before its first occurrence comes off. -/
theorem splitMax_cases (sep : Char) (n : ℕ) (s : List Char) :
    splitMax sep (n + 1) s = [s] ∨
      ∃ p t, s = p ++ sep :: t ∧ sep ∉ p ∧ splitMax sep (n + 1) s = p :: splitMax sep n t := by
  by_cases h : sep ∈ s
  · obtain ⟨p, t, rfl, hp⟩ := List.eq_append_cons_of_mem h
    exact Or.inr ⟨p, t, rfl, hp, splitMax_append hp n t⟩
  · left
    induction s with
    | nil => rfl
    | cons c s ih =>
      have hc : c ≠ sep := fun e => h (by simp [e])
      have ih := ih fun e => h (by simp [e])
      simp [splitMax, hc, ih]

/-- The parts before the last are free of the separator. -/
theorem splitMax_dropLast (sep : Char) (n : ℕ) (s : List Char) : ∀ p ∈ (splitMax sep n s).dropLast, sep ∉ p := by
  induction n generalizing s with
  | zero => simp [splitMax]
  | succ n ih =>
    rcases splitMax_cases sep n s with h | ⟨p, t, rfl, hp, h⟩
    · simp [h]
    · intro q hq
      rw [h] at hq
      cases ht : splitMax sep n t with
      | nil => simp [ht] at hq
      | cons a l =>
        rw [ht, List.dropLast_cons_cons] at hq
        rcases List.mem_cons.1 hq with rfl | hq
        · exact hp
        · exact ih t q (by rwa [ht])

/-- A text is cut in one way only at its first separator. -/
theorem append_cons_inj {sep : Char} {p q s t : List Char} (hp : sep ∉ p) (hq : sep ∉ q)
    (h : p ++ sep :: s = q ++ sep :: t) : p = q ∧ s = t := by
  have hcut := congrArg (splitMax sep 1) h
  rw [splitMax_append hp, splitMax_append hq] at hcut
  obtain ⟨rfl, hcut⟩ := List.cons.inj hcut
  exact ⟨rfl, by simpa [splitMax] using hcut⟩

/-- Or at its last. -/
theorem append_cons_inj_last {sep : Char} {p q s t : List Char} (hs : sep ∉ s) (ht : sep ∉ t)
    (h : p ++ sep :: s = q ++ sep :: t) : p = q ∧ s = t := by
  have hrev : s.reverse ++ sep :: p.reverse = t.reverse ++ sep :: q.reverse := by
    simpa using congrArg List.reverse h
  obtain ⟨h1, h2⟩ := append_cons_inj (by simpa using hs) (by simpa using ht) hrev
  exact ⟨List.reverse_injective h2, List.reverse_injective h1⟩

/-- `str.partition(sep)`, without the middle part: what stands before and after the first separator. -/
def partition (sep : Char) (s : List Char) : List Char × List Char :=
  (s.takeWhile (· ≠ sep), (s.dropWhile (· ≠ sep)).tail)

theorem partition_append {sep : Char} {p : List Char} (hp : sep ∉ p) (s : List Char) :
    partition sep (p ++ sep :: s) = (p, s) := by
  have hall : ∀ c ∈ p, decide (c ≠ sep) = true := by
    intro c hc
    simp only [ne_eq, decide_eq_true_eq]
    rintro rfl
    exact hp hc
  simp only [partition, List.takeWhile_append_of_pos hall, List.dropWhile_append_of_pos hall]
  simp

/-- The first part has no separator. -/
theorem not_mem_partition (sep : Char) (s : List Char) : sep ∉ (partition sep s).1 := by
  intro h
  simpa using List.all_eq_true.1 (List.all_takeWhile (l := s) (p := fun c => decide (c ≠ sep))) sep h

/-! ## Characters and `int()` -/

lemma isUpper_iff_toNat {c : Char} : c.isUpper = true ↔ 65 ≤ c.toNat ∧ c.toNat ≤ 90 := by
  have h : c.isUpper = decide ('A'.val ≤ c.val ∧ c.val ≤ 'Z'.val) := rfl
  simp [h, UInt32.le_iff_toNat_le]

lemma isAlpha_iff_toNat {c : Char} :
    c.isAlpha = true ↔ (65 ≤ c.toNat ∧ c.toNat ≤ 90) ∨ 97 ≤ c.toNat ∧ c.toNat ≤ 122 := by
  have h : c.isAlpha = (c.isUpper || (decide ('a'.val ≤ c.val) && decide (c.val ≤ 'z'.val))) := rfl
  simp [h, isUpper_iff_toNat, UInt32.le_iff_toNat_le]

/-- The letters beyond ASCII that `IGNORECASE` takes for an `i` or an `s`. -/
def foldedLetters : List Char := ['İ', 'ı', 'ſ']

/-- What regular expressions and `int()` know of a character.  The ASCII rows are fixed, and so are those of the letters
that `IGNORECASE` adds, and no blank is a digit; the other rows are left open, as they change with the version of
Unicode. -/
structure CharTable where
  /-- the value of a decimal digit of any script (`\d`) -/
  decimal : Char → Option ℕ
  /-- a letter, a digit or an underscore (`\w`) -/
  word : Char → Bool
  decimal_lt : ∀ c d, decimal c = some d → d < 10
  decimal_word : ∀ c d, decimal c = some d → word c = true
  decimal_ascii : ∀ c : Char, c.toNat < 128 → decimal c = if c.isDigit then some (c.toNat - 48) else none
  word_ascii : ∀ c : Char, c.toNat < 128 → word c = (c.isAlphanum || c == '_')
  decimal_space : ∀ c, isSpace c = true → decimal c = none
  decimal_folded : ∀ c ∈ foldedLetters, decimal c = none
  word_folded : ∀ c ∈ foldedLetters, word c = true

/-- The table in which nothing else beyond ASCII is a digit or a letter. -/
def CharTable.ascii : CharTable where
  decimal c := if c.isDigit then some (c.toNat - 48) else none
  word c := c.isAlphanum || c == '_' || c ∈ foldedLetters
  decimal_lt c d h := by
    split_ifs at h with hc
    have hc9 : c.toNat ≤ 57 := (Char.isDigit_iff_toNat.1 hc).2
    obtain rfl := Option.some.inj h
    omega
  decimal_word c d h := by
    split_ifs at h with hc
    simp [Char.isAlphanum, hc]
  decimal_ascii _ _ := rfl
  word_ascii c h := by
    have hnot : c ∉ foldedLetters := by
      rintro hmem
      simp only [foldedLetters, List.mem_cons, List.not_mem_nil, or_false] at hmem
      rcases hmem with rfl | rfl | rfl <;> exact absurd h (by decide)
    simp [hnot]
  decimal_space c h := by
    refine if_neg fun hc => ?_
    have hge : 48 ≤ c.toNat := (Char.isDigit_iff_toNat.1 hc).1
    have hle : c.toNat ≤ 57 := (Char.isDigit_iff_toNat.1 hc).2
    simp only [isSpace, Bool.or_eq_true, Bool.and_eq_true, decide_eq_true_eq, beq_iff_eq] at h
    omega
  decimal_folded := by decide
  word_folded := by decide

/-- The longest text `int()` reads, in digits. -/
def intMaxStrDigits : ℕ := 4300

/-- The digits of `int()`'s argument after its sign; single underscores may stand between two digits. -/
def intDigits (dec : Char → Option ℕ) : List Char → Option (List ℕ)
  | [] => none
  | [c] => (dec c).map fun d => [d]
  | c :: '_' :: s => do
    let d ← dec c
    let ds ← intDigits dec s
    some (d :: ds)
  | c :: s => do
    let d ← dec c
    let ds ← intDigits dec s
    some (d :: ds)

/-- The absolute value in `int()`'s argument; too long a text is refused. -/
def intAbs (u : CharTable) (s : List Char) : Option ℕ := do
  let ds ← intDigits u.decimal s
  if ds.length ≤ intMaxStrDigits then some (ds.foldl (fun v d => v * 10 + d) 0) else none

/-- A blank at the ends of `int()`'s argument: not the four separators of ASCII, which are blanks for `str.strip()`. -/
def isIntSpace (c : Char) : Bool := isSpace c && !(28 ≤ c.toNat && c.toNat ≤ 31)

/-- `int(s)`; `none` is a `ValueError`. -/
def pyInt (u : CharTable) (s : List Char) : Option ℤ :=
  match stripWhile isIntSpace s with
  | '-' :: ds => (intAbs u ds).map fun n => -(n : ℤ)
  | '+' :: ds => (intAbs u ds).map fun n => (n : ℤ)
  | ds => (intAbs u ds).map fun n => (n : ℤ)

example : pyInt .ascii " 900\n".toList = some 900 ∧ pyInt .ascii "\x1c900".toList = none := by decide

/-- The integer is short enough for `str()`. -/
def fitsStr (z : ℤ) : Bool := (Nat.toDigits 10 z.natAbs).length ≤ intMaxStrDigits

/-- `str(n)` of an integer; too long a text is refused (`none` is a `ValueError`). -/
def pyIntStr (z : ℤ) : Option (List Char) := if fitsStr z then some (decimal z) else none

section Int

variable (u : CharTable)

lemma CharTable.decimal_of_isDigit {c : Char} (h : c.isDigit = true) : u.decimal c = some (c.toNat - 48) := by
  have hc : c.toNat ≤ 57 := (Char.isDigit_iff_toNat.1 h).2
  rw [u.decimal_ascii c (by omega), if_pos h]

lemma intDigits_of_isDigit {s : List Char} (hne : s ≠ []) (hs : ∀ c ∈ s, c.isDigit = true) :
    intDigits u.decimal s = some (s.map fun c => c.toNat - 48) := by
  induction s with
  | nil => exact absurd rfl hne
  | cons c s ih =>
    have hc := u.decimal_of_isDigit (hs c (by simp))
    cases s with
    | nil => simp [intDigits, hc]
    | cons d s =>
      have ih := ih (by simp) fun e he => hs e (by simp [he])
      have hd : d ≠ '_' := by rintro rfl; exact absurd (hs '_' (by simp)) (by decide)
      rw [intDigits, hc, ih]
      · rfl
      · simp
      · intro t ht
        exact hd (List.cons.inj ht).1

lemma foldl_digits (s : List Char) (v : ℕ) :
    (s.map fun c => c.toNat - 48).foldl (fun v d => v * 10 + d) v = Nat.ofDigitChars 10 s v := by
  induction s generalizing v with
  | nil => rfl
  | cons c s ih =>
    rw [List.map_cons, List.foldl_cons, ih, Nat.ofDigitChars_cons, Nat.mul_comm v 10]
    rfl

lemma intAbs_toDigits {n : ℕ} (h : (Nat.toDigits 10 n).length ≤ intMaxStrDigits) :
    intAbs u (Nat.toDigits 10 n) = some n := by
  have hd := intDigits_of_isDigit u (s := Nat.toDigits 10 n) Nat.toDigits_ne_nil fun c hc => isDigit_of_mem_toDigits hc
  simp only [intAbs, hd, Option.bind_eq_bind, Option.bind_some, List.length_map]
  rw [if_pos h, foldl_digits, Nat.ofDigitChars_ten_toDigits]

lemma isIntSpace_of_decimal {z : ℤ} {c : Char} (hc : c ∈ decimal z) : isIntSpace c = false := by
  rcases decimal_mem hc with rfl | h
  · decide
  · have h0 : 48 ≤ c.toNat := (Char.isDigit_iff_toNat.1 h).1
    have h9 : c.toNat ≤ 57 := (Char.isDigit_iff_toNat.1 h).2
    have hblank : isSpace c = false := by
      simp [isSpace]
      omega
    rw [isIntSpace, hblank, Bool.false_and]

/-- What `str` writes, `int` reads. -/
theorem pyInt_pyIntStr {z : ℤ} {s : List Char} (h : pyIntStr z = some s) : pyInt u s = some z := by
  unfold pyIntStr at h
  split_ifs at h with hfits
  obtain rfl := Option.some.inj h
  have hlen := of_decide_eq_true hfits
  have hstrip : stripWhile isIntSpace (decimal z) = decimal z :=
    stripWhile_eq_self (fun c hc => isIntSpace_of_decimal (List.mem_of_mem_head? hc))
      (fun c hc => isIntSpace_of_decimal (List.mem_of_mem_getLast? hc))
  rw [pyInt, hstrip]
  cases z with
  | ofNat n =>
    have habs := intAbs_toDigits u hlen
    have hdig : ∀ c ∈ Nat.toDigits 10 n, c.isDigit = true := fun c hc => isDigit_of_mem_toDigits hc
    simp only [decimal]
    split
    · next ds hds => rw [hds] at hdig; exact absurd (hdig '-' (by simp)) (by decide)
    · next ds hds => rw [hds] at hdig; exact absurd (hdig '+' (by simp)) (by decide)
    · rw [show n = (Int.ofNat n).natAbs from rfl, habs]; rfl
  | negSucc n =>
    have habs := intAbs_toDigits u hlen
    simp only [decimal]
    rw [show n + 1 = (Int.negSucc n).natAbs from rfl, habs]; rfl

lemma intDigits_lt {s : List Char} {ds : List ℕ} (h : intDigits u.decimal s = some ds) : ∀ d ∈ ds, d < 10 := by
  induction s using intDigits.induct generalizing ds with
  | case1 => simp [intDigits] at h
  | case2 c =>
    obtain ⟨d, hd, rfl⟩ := Option.map_eq_some_iff.1 h
    simpa using u.decimal_lt c d hd
  | case3 c s ih =>
    simp only [intDigits, Option.bind_eq_bind, Option.bind_eq_some_iff, Option.some.injEq] at h
    obtain ⟨d, hd, ds', hds, rfl⟩ := h
    exact List.forall_mem_cons.2 ⟨u.decimal_lt c d hd, ih hds⟩
  | case4 c s hne hunderscore ih =>
    rw [intDigits] at h
    · simp only [Option.bind_eq_bind, Option.bind_eq_some_iff, Option.some.injEq] at h
      obtain ⟨d, hd, ds', hds, rfl⟩ := h
      exact List.forall_mem_cons.2 ⟨u.decimal_lt c d hd, ih hds⟩
    · exact hne
    · exact hunderscore

lemma foldl_digits_lt {ds : List ℕ} (h : ∀ d ∈ ds, d < 10) (v : ℕ) :
    ds.foldl (fun v d => v * 10 + d) v < (v + 1) * 10 ^ ds.length := by
  induction ds generalizing v with
  | nil => simp
  | cons d ds ih =>
    obtain ⟨hd, hds⟩ := List.forall_mem_cons.1 h
    rw [List.foldl_cons, List.length_cons, pow_succ]
    calc ds.foldl (fun v d => v * 10 + d) (v * 10 + d) < (v * 10 + d + 1) * 10 ^ ds.length := ih hds _
      _ ≤ ((v + 1) * 10) * 10 ^ ds.length := Nat.mul_le_mul_right _ (by omega)
      _ = (v + 1) * (10 ^ ds.length * 10) := by ring

/-- What `int` reads, `str` writes: the limits on the digits are the same. -/
theorem pyIntStr_of_pyInt {s : List Char} {z : ℤ} (h : pyInt u s = some z) : ∃ t, pyIntStr z = some t := by
  have habs : ∃ ds n, intAbs u ds = some n ∧ z.natAbs = n := by
    unfold pyInt at h
    split at h <;>
    · simp only [Option.pure_def, Option.bind_eq_bind, Option.map_eq_some_iff, Option.bind_eq_some_iff,
        Option.some.injEq] at h
      obtain ⟨_, ⟨n, hn, rfl⟩, rfl⟩ := h
      exact ⟨_, n, hn, by simp⟩
  obtain ⟨s, n, hn, hz⟩ := habs
  simp only [intAbs, Option.bind_eq_bind, Option.bind_eq_some_iff] at hn
  obtain ⟨ds, hds, hn⟩ := hn
  split_ifs at hn with hlen
  have hlt : n < 10 ^ intMaxStrDigits := by
    have hfold := foldl_digits_lt (intDigits_lt u hds) 0
    rw [Option.some.inj hn, zero_add, one_mul] at hfold
    exact hfold.trans_le (Nat.pow_le_pow_right (by decide) hlen)
  have hlen : (Nat.toDigits 10 z.natAbs).length ≤ intMaxStrDigits := by
    rw [hz]
    exact (Nat.length_toDigits_le_iff (by decide) (by decide)).2 hlt
  exact ⟨_, if_pos (decide_eq_true hlen)⟩

lemma colon_not_mem_decimal (z : ℤ) : ':' ∉ decimal z := by
  intro h
  rcases decimal_mem h with h | h <;> exact absurd h (by decide)

lemma dot_not_mem_decimal (z : ℤ) : '.' ∉ decimal z := by
  intro h
  rcases decimal_mem h with h | h <;> exact absurd h (by decide)

end Int

end Aimw.Lib
