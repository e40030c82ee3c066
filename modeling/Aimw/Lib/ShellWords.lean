import Mathlib.Tactic

/-!
# Words of a command line

`shlex.quote` and `shlex.join`, and the reader `shlex.split` that takes a line apart again, in its POSIX mode.

* `read_quote` — a quoted word is read as it was, whatever word comes next;
* `split_join` — a joined command is split into its own arguments.
-/

namespace Aimw.Lib.ShellWords

/-! ## Writing -/

/-- A letter that needs no quotes. -/
def isSafe (c : Char) : Bool :=
  ('a' ≤ c && c ≤ 'z') || ('A' ≤ c && c ≤ 'Z') || ('0' ≤ c && c ≤ '9') ||
    ['_', '@', '%', '+', '=', ':', ',', '.', '/', '-'].contains c

/-- `word.replace("'", "'\"'\"'")`. -/
def escapeQuotes (word : List Char) : List Char :=
  word.flatMap fun c => if c = '\x27' then ['\x27', '\x22', '\x27', '\x22', '\x27'] else [c]

/-- `shlex.quote`. -/
def quote (word : List Char) : List Char :=
  if word = [] then ['\x27', '\x27']
  else if word.all isSafe then word
  else '\x27' :: (escapeQuotes word ++ ['\x27'])

/-- `shlex.join`. -/
def join (args : List (List Char)) : List Char := [' '].intercalate (args.map quote)

/-! ## Reading -/

/-- Between two words, in a word, in single or double quotes, or after a backslash. -/
inductive Mode
  | between
  | word
  | single
  | double
  | escaped
  | doubleEscaped

def isBlank (c : Char) : Bool := [' ', '\t', '\r', '\n'].contains c

/-- The words from here on, with the letters `token` of the present one; `none` when a quotation or an escape does not
end. -/
def read : Mode → List Char → List Char → Option (List (List Char))
  | .between, _, [] => some []
  | .word, token, [] => some [token]
  | .single, _, [] => none
  | .double, _, [] => none
  | .escaped, _, [] => none
  | .doubleEscaped, _, [] => none
  | .between, _, c :: cs =>
    if isBlank c then read .between [] cs
    else if c = '\x5c' then read .escaped [] cs
    else if c = '\x27' then read .single [] cs
    else if c = '\x22' then read .double [] cs
    else read .word [c] cs
  | .word, token, c :: cs =>
    if isBlank c then (read .between [] cs).map (token :: ·)
    else if c = '\x5c' then read .escaped token cs
    else if c = '\x27' then read .single token cs
    else if c = '\x22' then read .double token cs
    else read .word (token ++ [c]) cs
  | .single, token, c :: cs => if c = '\x27' then read .word token cs else read .single (token ++ [c]) cs
  | .double, token, c :: cs =>
    if c = '\x22' then read .word token cs
    else if c = '\x5c' then read .doubleEscaped token cs
    else read .double (token ++ [c]) cs
  | .escaped, token, c :: cs => read .word (token ++ [c]) cs
  -- in double quotes a backslash stays, unless it stands before a quote or another one
  | .doubleEscaped, token, c :: cs =>
    if c = '\x5c' ∨ c = '\x22' then read .double (token ++ [c]) cs else read .double (token ++ ['\x5c', c]) cs

/-- `shlex.split`. -/
def split (line : List Char) : Option (List (List Char)) := read .between [] line

/-! ## What is written is read -/

/-- A letter that stands for itself. -/
lemma plain_of_isSafe {c : Char} (h : isSafe c = true) :
    isBlank c = false ∧ c ≠ '\x5c' ∧ c ≠ '\x27' ∧ c ≠ '\x22' := by
  refine ⟨?_, ?_, ?_, ?_⟩
  · by_contra hblank
    rw [Bool.not_eq_false] at hblank
    have hmem : c ∈ [' ', '\t', '\r', '\n'] := List.contains_iff_mem.1 hblank
    simp only [List.mem_cons, List.not_mem_nil, or_false] at hmem
    rcases hmem with rfl | rfl | rfl | rfl <;> revert h <;> decide
  · rintro rfl
    revert h
    decide
  · rintro rfl
    revert h
    decide
  · rintro rfl
    revert h
    decide

variable {token word rest : List Char}

lemma read_word_safe (h : word.all isSafe = true) : read .word token (word ++ rest) = read .word (token ++ word) rest := by
  induction word generalizing token with
  | nil => rw [List.nil_append, List.append_nil]
  | cons c word ih =>
    rw [List.all_cons, Bool.and_eq_true] at h
    obtain ⟨hblank, hescape, hsingle, hdouble⟩ := plain_of_isSafe h.1
    rw [List.cons_append, read, if_neg (by simp [hblank]), if_neg hescape, if_neg hsingle, if_neg hdouble, ih h.2,
      List.append_assoc]
    rfl

/-- In single quotes everything is read as it stands, and each quote through a pair of double quotes. -/
lemma read_single_escape : read .single token (escapeQuotes word ++ '\x27' :: rest) = read .word (token ++ word) rest := by
  induction word generalizing token with
  | nil =>
    rw [escapeQuotes, List.flatMap_nil, List.nil_append, List.append_nil, read, if_pos rfl]
  | cons c word ih =>
    have hrest : escapeQuotes (c :: word) = (if c = '\x27' then ['\x27', '\x22', '\x27', '\x22', '\x27'] else [c]) ++ escapeQuotes word :=
      List.flatMap_cons
    rw [hrest]
    by_cases hc : c = '\x27'
    · subst hc
      have hquote : read .single token (['\x27', '\x22', '\x27', '\x22', '\x27'] ++ (escapeQuotes word ++ '\x27' :: rest)) =
          read .single (token ++ ['\x27']) (escapeQuotes word ++ '\x27' :: rest) := rfl
      rw [if_pos rfl, List.append_assoc, hquote, ih, List.append_assoc]
      rfl
    · rw [if_neg hc, List.append_assoc, List.singleton_append, read, if_neg hc, ih, List.append_assoc]
      rfl

/-- **A quoted word is read as it was.** -/
theorem read_quote : read .between [] (quote word ++ rest) = read .word word rest := by
  unfold quote
  split_ifs with hnil hsafe
  · subst hnil
    rfl
  · cases word with
    | nil => exact absurd rfl hnil
    | cons c word =>
      have hall := hsafe
      rw [List.all_cons, Bool.and_eq_true] at hsafe
      obtain ⟨hblank, hescape, hsingle, hdouble⟩ := plain_of_isSafe hsafe.1
      rw [List.cons_append, read, if_neg (by simp [hblank]), if_neg hescape, if_neg hsingle, if_neg hdouble,
        read_word_safe hsafe.2]
      rfl
  · rw [List.cons_append, List.append_assoc]
    have hquoted : read .single [] (escapeQuotes word ++ '\x27' :: rest) = read .word word rest := read_single_escape
    exact hquoted

/-- **A joined command is split into its own arguments.** -/
theorem split_join (args : List (List Char)) : split (join args) = some args := by
  induction args with
  | nil => rfl
  | cons word args ih =>
    cases args with
    | nil =>
      have hjoin : join [word] = quote word ++ [] := by simp [join, List.intercalate]
      rw [split, hjoin, read_quote]
      rfl
    | cons next args =>
      have hjoin : join (word :: next :: args) = quote word ++ ' ' :: join (next :: args) := by
        simp [join, List.intercalate]
      have hblank : read .word word (' ' :: join (next :: args)) =
          (read .between [] (join (next :: args))).map (word :: ·) := rfl
      rw [split, hjoin, read_quote, hblank]
      rw [split] at ih
      rw [ih]
      rfl

end Aimw.Lib.ShellWords
