import Mathlib.Data.Bool.AllAny
import Mathlib.Data.Nat.Digits.Defs
import Mathlib.Tactic

/-!
# Compact JSON text

* `Json` — JSON values with the members of an object in a fixed order; a float is known by its decimal text;
* `Json.render` — the compact ASCII text of a value (no blanks, every other character escaped);
* `readValue` — a reader of such text, with `readValue_render : readValue n (j.render ++ rest) = some (j, rest)`.

Reading back what was written makes `render` injective (`render_inj`), and even uniquely decodable in front of
any rest that does not go on with a letter or a digit.
-/

namespace Aimw.Lib

/-! ## Numbers -/

/-- The decimal text of an integer. -/
def decimal : ℤ → List Char
  | .ofNat n => Nat.toDigits 10 n
  | .negSucc n => '-' :: Nat.toDigits 10 (n + 1)

/-- The integer of a plain decimal text (`-?[0-9]+`). -/
def readInt : List Char → Option ℤ
  | [] => none
  | c :: ds =>
    if c = '-' then
      if ds ≠ [] ∧ ds.all Char.isDigit then some (-(Nat.ofDigitChars 10 ds 0 : ℕ)) else none
    else if (c :: ds).all Char.isDigit then some (Nat.ofDigitChars 10 (c :: ds) 0 : ℕ) else none

lemma isDigit_of_mem_toDigits {n : ℕ} {c : Char} (hc : c ∈ Nat.toDigits 10 n) : c.isDigit = true :=
  Nat.isDigit_of_mem_toDigits (by omega) le_rfl hc

lemma decimal_mem {z : ℤ} {c : Char} (hc : c ∈ decimal z) : c = '-' ∨ c.isDigit = true := by
  cases z with
  | ofNat n => exact Or.inr (isDigit_of_mem_toDigits hc)
  | negSucc n =>
    rcases List.mem_cons.1 hc with rfl | hc
    · exact Or.inl rfl
    · exact Or.inr (isDigit_of_mem_toDigits hc)

lemma decimal_ne_nil (z : ℤ) : decimal z ≠ [] := by
  cases z with
  | ofNat n => exact Nat.toDigits_ne_nil
  | negSucc n => simp [decimal]

theorem readInt_decimal (z : ℤ) : readInt (decimal z) = some z := by
  cases z with
  | ofNat n =>
    have hall : (Nat.toDigits 10 n).all Char.isDigit = true := by
      rw [List.all_eq_true]
      exact fun c hc => isDigit_of_mem_toDigits hc
    have hval : Nat.ofDigitChars 10 (Nat.toDigits 10 n) 0 = n := Nat.ofDigitChars_ten_toDigits
    simp only [decimal]
    cases hd : Nat.toDigits 10 n with
    | nil => exact absurd hd Nat.toDigits_ne_nil
    | cons c ds =>
      rw [hd] at hall hval
      have hc : c ≠ '-' := by
        rintro rfl
        simp at hall
      rw [readInt, if_neg hc, if_pos hall, hval]
      rfl
  | negSucc n =>
    have hall : (Nat.toDigits 10 (n + 1)).all Char.isDigit = true := by
      rw [List.all_eq_true]
      exact fun c hc => isDigit_of_mem_toDigits hc
    have hval : Nat.ofDigitChars 10 (Nat.toDigits 10 (n + 1)) 0 = n + 1 := Nat.ofDigitChars_ten_toDigits
    rw [decimal, readInt, if_pos rfl, if_pos ⟨Nat.toDigits_ne_nil, hall⟩, hval]
    rfl

theorem decimal_inj {x y : ℤ} (h : decimal x = decimal y) : x = y := by
  have hx := readInt_decimal x
  rw [h, readInt_decimal] at hx
  exact (Option.some.inj hx).symm

/-- The characters of a finite float's text. -/
def isFloatChar (c : Char) : Bool := c.isDigit || c == '.' || c == 'e' || c == '+' || c == '-'

/-- A decimal text of a finite float: it has a point or an exponent, so it is no integer's text. -/
def isFloatText (s : List Char) : Bool := s.all isFloatChar && s.any fun c => c == '.' || c == 'e'

/-- A finite float, known by its text (the shortest one that reads back as the same float). -/
structure FloatLit where
  text : List Char
  shape : isFloatText text = true
  deriving DecidableEq

/-- A float as it stands in JSON text, the three non-finite ones included. -/
inductive JFloat
  | finite (x : FloatLit)
  | nan
  | inf
  | negInf
  deriving DecidableEq

def JFloat.render : JFloat → List Char
  | .finite x => x.text
  | .nan => ['N', 'a', 'N']
  | .inf => ['I', 'n', 'f', 'i', 'n', 'i', 't', 'y']
  | .negInf => ['-', 'I', 'n', 'f', 'i', 'n', 'i', 't', 'y']

/-! ## Values and their text -/

inductive Json
  | null
  | bool (b : Bool)
  | int (i : ℤ)
  | float (x : JFloat)
  | str (s : String)
  | arr (xs : List Json)
  | obj (members : List (String × Json))

/-- Four lower-case hexadecimal digits. -/
def hex4 (n : ℕ) : List Char :=
  [Nat.digitChar (n / 4096 % 16), Nat.digitChar (n / 256 % 16), Nat.digitChar (n / 16 % 16), Nat.digitChar (n % 16)]

/-- One character inside a string: the short escapes, printable ASCII as it is, and `\uXXXX` for the rest
(a surrogate pair above the basic plane). -/
def escapeChar (c : Char) : List Char :=
  if c = '"' then ['\\', '"']
  else if c = '\\' then ['\\', '\\']
  else if c = '\n' then ['\\', 'n']
  else if c = '\r' then ['\\', 'r']
  else if c = '\t' then ['\\', 't']
  else if c = '\x0c' then ['\\', 'f']
  else if c = '\x08' then ['\\', 'b']
  else if 0x20 ≤ c.toNat ∧ c.toNat ≤ 0x7e then [c]
  else if c.toNat < 0x10000 then '\\' :: 'u' :: hex4 c.toNat
  else
    let n := c.toNat - 0x10000
    '\\' :: 'u' :: hex4 (0xd800 + n / 1024 % 1024) ++ '\\' :: 'u' :: hex4 (0xdc00 + n % 1024)

def renderString (s : String) : List Char := '"' :: (s.toList.flatMap escapeChar ++ ['"'])

mutual
/-- The compact text of a value. -/
def Json.render : Json → List Char
  | .null => ['n', 'u', 'l', 'l']
  | .bool b => if b then ['t', 'r', 'u', 'e'] else ['f', 'a', 'l', 's', 'e']
  | .int i => decimal i
  | .float x => x.render
  | .str s => renderString s
  | .arr [] => ['[', ']']
  | .arr (x :: xs) => '[' :: (x.render ++ renderElems xs)
  | .obj [] => ['{', '}']
  | .obj ((k, v) :: ms) => '{' :: (renderString k ++ ':' :: (v.render ++ renderMembers ms))
/-- The elements after the first, with the closing bracket. -/
def renderElems : List Json → List Char
  | [] => [']']
  | x :: xs => ',' :: (x.render ++ renderElems xs)
/-- The members after the first, with the closing brace. -/
def renderMembers : List (String × Json) → List Char
  | [] => ['}']
  | (k, v) :: ms => ',' :: (renderString k ++ ':' :: (v.render ++ renderMembers ms))
end

/-! ## The reader -/

/-- The value of a hexadecimal digit. -/
def hexVal (c : Char) : Option ℕ := (List.range 16).find? fun d => Nat.digitChar d == c

def readHex4 : List Char → Option (ℕ × List Char)
  | a :: b :: c :: d :: s => do
    let a ← hexVal a
    let b ← hexVal b
    let c ← hexVal c
    let d ← hexVal d
    some (a * 4096 + b * 256 + c * 16 + d, s)
  | _ => none

/-- The character of a one-letter escape. -/
def shortEscape (c : Char) : Option Char :=
  if c = '"' then some '"'
  else if c = '\\' then some '\\'
  else if c = 'n' then some '\n'
  else if c = 'r' then some '\r'
  else if c = 't' then some '\t'
  else if c = 'f' then some '\x0c'
  else if c = 'b' then some '\x08'
  else none

/-- What follows `\u`. -/
def readUnicode (s : List Char) : Option (Char × List Char) := do
  let (n, s) ← readHex4 s
  if 0xd800 ≤ n ∧ n < 0xdc00 then
    match s with
    | '\\' :: 'u' :: s => do
      let (m, s) ← readHex4 s
      some (Char.ofNat (0x10000 + (n - 0xd800) * 1024 + (m - 0xdc00)), s)
    | _ => none
  else some (Char.ofNat n, s)

/-- One character of a string's inside. -/
def readChar : List Char → Option (Char × List Char)
  | [] => none
  | c :: s =>
    if c = '\\' then
      match s with
      | [] => none
      | e :: s => if e = 'u' then readUnicode s else (shortEscape e).map fun c => (c, s)
    else some (c, s)

/-- The inside of a string up to its closing quote. -/
def readString : ℕ → List Char → Option (List Char × List Char)
  | 0, _ => none
  | n + 1, s =>
    if s.head? = some '"' then some ([], s.tail)
    else do
      let (c, s) ← readChar s
      let (cs, s) ← readString n s
      some (c :: cs, s)

/-- The characters of literals and numbers. -/
def isBare (c : Char) : Bool := c.isAlphanum || c == '.' || c == '+' || c == '-'

/-- The value a bare word stands for. -/
def readBare (s : List Char) : Option Json :=
  if s = ['n', 'u', 'l', 'l'] then some .null
  else if s = ['t', 'r', 'u', 'e'] then some (.bool true)
  else if s = ['f', 'a', 'l', 's', 'e'] then some (.bool false)
  else if s = ['N', 'a', 'N'] then some (.float .nan)
  else if s = ['I', 'n', 'f', 'i', 'n', 'i', 't', 'y'] then some (.float .inf)
  else if s = ['-', 'I', 'n', 'f', 'i', 'n', 'i', 't', 'y'] then some (.float .negInf)
  else match readInt s with
    | some i => some (.int i)
    | none => if h : isFloatText s = true then some (.float (.finite ⟨s, h⟩)) else none

/-- A quoted string and what follows it. -/
def readQuoted (n : ℕ) (s : List Char) : Option (String × List Char) :=
  if s.head? = some '"' then (readString n s.tail).map fun p => (String.ofList p.1, p.2) else none

/-- Drop one expected character. -/
def expect (c : Char) (s : List Char) : Option (List Char) := if s.head? = some c then some s.tail else none

mutual
/-- A value and what follows it; the number bounds the depth of the recursion. -/
def readValue : ℕ → List Char → Option (Json × List Char)
  | 0, _ => none
  | n + 1, s =>
    if s.head? = some '"' then (readQuoted n s).map fun p => (.str p.1, p.2)
    else if s.head? = some '[' then
      if s.tail.head? = some ']' then some (.arr [], s.tail.tail)
      else do
        let (x, s) ← readValue n s.tail
        let (xs, s) ← readElems n s
        some (.arr (x :: xs), s)
    else if s.head? = some '{' then
      if s.tail.head? = some '}' then some (.obj [], s.tail.tail)
      else do
        let (k, s) ← readQuoted n s.tail
        let s ← expect ':' s
        let (v, s) ← readValue n s
        let (ms, s) ← readMembers n s
        some (.obj ((k, v) :: ms), s)
    else (readBare (s.takeWhile isBare)).map fun j => (j, s.dropWhile isBare)
def readElems : ℕ → List Char → Option (List Json × List Char)
  | 0, _ => none
  | n + 1, s =>
    if s.head? = some ']' then some ([], s.tail)
    else do
      let s ← expect ',' s
      let (x, s) ← readValue n s
      let (xs, s) ← readElems n s
      some (x :: xs, s)
def readMembers : ℕ → List Char → Option (List (String × Json) × List Char)
  | 0, _ => none
  | n + 1, s =>
    if s.head? = some '}' then some ([], s.tail)
    else do
      let s ← expect ',' s
      let (k, s) ← readQuoted n s
      let s ← expect ':' s
      let (v, s) ← readValue n s
      let (ms, s) ← readMembers n s
      some ((k, v) :: ms, s)
end

/-! ## Reading back what was written -/

lemma hexVal_digitChar {d : ℕ} (h : d < 16) : hexVal (Nat.digitChar d) = some d := by
  interval_cases d <;> decide

lemma readHex4_hex4 {n : ℕ} (h : n < 0x10000) (rest : List Char) : readHex4 (hex4 n ++ rest) = some (n, rest) := by
  have e1 := hexVal_digitChar (d := n / 4096 % 16) (by omega)
  have e2 := hexVal_digitChar (d := n / 256 % 16) (by omega)
  have e3 := hexVal_digitChar (d := n / 16 % 16) (by omega)
  have e4 := hexVal_digitChar (d := n % 16) (by omega)
  have hn : n / 4096 % 16 * 4096 + n / 256 % 16 * 256 + n / 16 % 16 * 16 + n % 16 = n := by omega
  simp only [hex4, List.cons_append, List.nil_append, readHex4, e1, e2, e3, e4, Option.bind_eq_bind,
    Option.bind_some, hn]

lemma not_surrogate (c : Char) : ¬ (0xd800 ≤ c.toNat ∧ c.toNat < 0xdc00) := by
  have := c.valid
  simp only [UInt32.isValidChar, Nat.isValidChar] at this
  have e : c.toNat = c.val.toNat := rfl
  omega

lemma toNat_lt (c : Char) : c.toNat < 0x110000 := by
  have := c.valid
  simp only [UInt32.isValidChar, Nat.isValidChar] at this
  have e : c.toNat = c.val.toNat := rfl
  omega

/-- A character of the basic plane, from its four digits. -/
lemma readUnicode_basic {c : Char} (h : c.toNat < 0x10000) (rest : List Char) :
    readUnicode (hex4 c.toNat ++ rest) = some (c, rest) := by
  unfold readUnicode
  rw [readHex4_hex4 h]
  simp only [Option.bind_eq_bind, Option.bind_some]
  rw [if_neg (not_surrogate c), Char.ofNat_toNat]

/-- Two surrogates stand for the character whose number they carry. -/
lemma readUnicode_pair {hi lo : ℕ} (h1 : hi < 1024) (h2 : lo < 1024) (rest : List Char) :
    readUnicode (hex4 (0xd800 + hi) ++ '\\' :: 'u' :: (hex4 (0xdc00 + lo) ++ rest)) =
      some (Char.ofNat (0x10000 + hi * 1024 + lo), rest) := by
  unfold readUnicode
  rw [readHex4_hex4 (by omega)]
  simp only [Option.bind_eq_bind, Option.bind_some]
  rw [if_pos (by omega), readHex4_hex4 (by omega)]
  simp only [Option.bind_some, Nat.add_sub_cancel_left]

/-- The characters that have a letter of their own behind the backslash. -/
def shortEscapes : List (Char × Char) :=
  [('"', '"'), ('\\', '\\'), ('\n', 'n'), ('\r', 'r'), ('\t', 't'), ('\x0c', 'f'), ('\x08', 'b')]

/-- What a character is escaped to. -/
inductive Escaped (c : Char) : List Char → Prop
  | short {e : Char} : (c, e) ∈ shortEscapes → Escaped c ['\\', e]
  | plain : c ≠ '"' → c ≠ '\\' → c ≠ '\n' → c ≠ '\r' → Escaped c [c]
  | basic : c.toNat < 0x10000 → Escaped c ('\\' :: 'u' :: hex4 c.toNat)
  | pair : 0x10000 ≤ c.toNat → Escaped c ('\\' :: 'u' :: hex4 (0xd800 + (c.toNat - 0x10000) / 1024 % 1024) ++
      '\\' :: 'u' :: hex4 (0xdc00 + (c.toNat - 0x10000) % 1024))

lemma escaped_escapeChar (c : Char) : Escaped c (escapeChar c) := by
  have hshort : ∀ {d e : Char}, (d, e) ∈ shortEscapes → c = d → Escaped c ['\\', e] := fun he hd => .short (hd ▸ he)
  unfold escapeChar
  refine iteInduction (hshort (by simp [shortEscapes])) fun hquote => ?_
  refine iteInduction (hshort (by simp [shortEscapes])) fun hbackslash => ?_
  refine iteInduction (hshort (by simp [shortEscapes])) fun hnewline => ?_
  refine iteInduction (hshort (by simp [shortEscapes])) fun hreturn => ?_
  refine iteInduction (hshort (by simp [shortEscapes])) fun _ => ?_
  refine iteInduction (hshort (by simp [shortEscapes])) fun _ => ?_
  refine iteInduction (hshort (by simp [shortEscapes])) fun _ => ?_
  refine iteInduction (fun _ => .plain hquote hbackslash hnewline hreturn) fun _ => ?_
  exact iteInduction .basic fun hlarge => .pair (not_lt.1 hlarge)

/-- The escape of a character is read back as that character. -/
theorem readChar_escapeChar (c : Char) (rest : List Char) : readChar (escapeChar c ++ rest) = some (c, rest) := by
  have hescaped := escaped_escapeChar c
  generalize escapeChar c = s at hescaped
  cases hescaped with
  | short he =>
    simp only [shortEscapes, List.mem_cons, Prod.mk.injEq, List.not_mem_nil, or_false] at he
    rcases he with ⟨rfl, rfl⟩ | ⟨rfl, rfl⟩ | ⟨rfl, rfl⟩ | ⟨rfl, rfl⟩ | ⟨rfl, rfl⟩ | ⟨rfl, rfl⟩ | ⟨rfl, rfl⟩ <;> rfl
  | plain _ hbackslash _ _ => simp [readChar, hbackslash]
  | basic hc => exact readUnicode_basic hc rest
  | pair hlarge =>
    have hc := toNat_lt c
    have hv : 0x10000 + (c.toNat - 0x10000) / 1024 % 1024 * 1024 + (c.toNat - 0x10000) % 1024 = c.toNat := by omega
    have hp := readUnicode_pair (Nat.mod_lt ((c.toNat - 0x10000) / 1024) (by omega : 0 < 1024))
      (Nat.mod_lt (c.toNat - 0x10000) (by omega : 0 < 1024)) rest
    rw [hv, Char.ofNat_toNat] at hp
    simpa [readChar] using hp

lemma escapeChar_head (c : Char) (rest : List Char) : (escapeChar c ++ rest).head? ≠ some '"' := by
  have hescaped := escaped_escapeChar c
  generalize escapeChar c = s at hescaped
  cases hescaped with
  | plain hquote _ _ _ => simpa using hquote
  | _ => simp

lemma escapeChar_length (c : Char) : 1 ≤ (escapeChar c).length := by
  have hescaped := escaped_escapeChar c
  generalize escapeChar c = s at hescaped
  cases hescaped <;> simp

theorem readString_escape (cs rest : List Char) :
    ∀ n, (cs.flatMap escapeChar).length < n → readString n (cs.flatMap escapeChar ++ '"' :: rest) = some (cs, rest) := by
  induction cs with
  | nil =>
    intro n hn
    obtain ⟨m, rfl⟩ : ∃ m, n = m + 1 := ⟨n - 1, by omega⟩
    simp [readString]
  | cons c cs ih =>
    intro n hn
    obtain ⟨m, rfl⟩ : ∃ m, n = m + 1 := ⟨n - 1, by omega⟩
    have hc := escapeChar_length c
    simp only [List.flatMap_cons, List.length_append] at hn
    rw [List.flatMap_cons, List.append_assoc, readString, if_neg (escapeChar_head c _)]
    simp only [readChar_escapeChar, Option.bind_eq_bind, Option.bind_some]
    rw [ih m (by omega)]
    rfl

theorem readQuoted_renderString (s : String) (rest : List Char) {n : ℕ} (hn : (renderString s).length ≤ n + 1) :
    readQuoted n (renderString s ++ rest) = some (s, rest) := by
  simp only [renderString, List.length_cons, List.length_append, List.length_nil] at hn
  simp only [readQuoted, renderString, List.cons_append, List.head?_cons, if_true, List.tail_cons,
    List.append_assoc, List.nil_append]
  rw [readString_escape s.toList rest n (by omega)]
  simp

/-! ### Bare words -/

lemma isBare_of_isDigit {c : Char} (h : c.isDigit = true) : isBare c = true := by
  simp [isBare, Char.isAlphanum, h]

lemma isBare_of_isFloatChar {c : Char} (h : isFloatChar c = true) : isBare c = true := by
  simp only [isFloatChar, Bool.or_eq_true, beq_iff_eq] at h
  rcases h with (((h | rfl) | rfl) | rfl) | rfl
  · exact isBare_of_isDigit h
  all_goals decide

/-- A bare word: a non-empty text of bare characters that stands for `j`. -/
structure BareFor (s : List Char) (j : Json) : Prop where
  ne_nil : s ≠ []
  bare : ∀ c ∈ s, isBare c = true
  read : readBare s = some j

lemma bareFor_null : BareFor ['n', 'u', 'l', 'l'] .null :=
  ⟨by decide, List.all_iff_forall_prop.1 (by decide), rfl⟩

lemma bareFor_true : BareFor ['t', 'r', 'u', 'e'] (.bool true) :=
  ⟨by decide, List.all_iff_forall_prop.1 (by decide), rfl⟩

lemma bareFor_false : BareFor ['f', 'a', 'l', 's', 'e'] (.bool false) :=
  ⟨by decide, List.all_iff_forall_prop.1 (by decide), rfl⟩

lemma bareFor_decimal (i : ℤ) : BareFor (decimal i) (.int i) := by
  have hmem : ∀ c ∈ decimal i, c = '-' ∨ c.isDigit = true := fun c hc => decimal_mem hc
  have hne : ∀ w : List Char, (∃ c ∈ w, c ≠ '-' ∧ c.isDigit = false) → decimal i ≠ w := by
    rintro w ⟨c, hc, h1, h2⟩ rfl
    rcases hmem c hc with h | h
    · exact h1 h
    · rw [h] at h2; cases h2
  refine ⟨decimal_ne_nil i, fun c hc => ?_, ?_⟩
  · rcases hmem c hc with rfl | h
    · decide
    · exact isBare_of_isDigit h
  · rw [readBare, if_neg (hne _ ⟨'n', by simp, by decide, by decide⟩),
      if_neg (hne _ ⟨'t', by simp, by decide, by decide⟩),
      if_neg (hne _ ⟨'f', by simp, by decide, by decide⟩), if_neg (hne _ ⟨'N', by simp, by decide, by decide⟩),
      if_neg (hne _ ⟨'I', by simp, by decide, by decide⟩), if_neg (hne _ ⟨'I', by simp, by decide, by decide⟩),
      readInt_decimal]

lemma readInt_eq_none_of_mem {s : List Char} {c : Char} (hc : c ∈ s) (h1 : c ≠ '-') (h2 : c.isDigit = false) :
    readInt s = none := by
  cases s with
  | nil => rfl
  | cons d ds =>
    rw [readInt]
    split_ifs with h3 h4 h5
    · have hd : c ∈ ds := (List.mem_cons.1 hc).resolve_left (fun h => h1 (h.trans h3))
      have := List.all_eq_true.1 h4.2 c hd
      rw [h2] at this; cases this
    · rfl
    · have := List.all_eq_true.1 h5 c hc
      rw [h2] at this; cases this
    · rfl

lemma bareFor_floatLit (x : FloatLit) : BareFor x.text (.float (.finite x)) := by
  obtain ⟨s, hs⟩ := x
  have hs' := hs
  simp only [isFloatText, Bool.and_eq_true, List.all_eq_true, List.any_eq_true, Bool.or_eq_true, beq_iff_eq] at hs'
  obtain ⟨hall, c, hc, hpt⟩ := hs'
  have hne : ∀ w : List Char, (∃ c ∈ w, isFloatChar c = false) → s ≠ w := by
    rintro w ⟨d, hd, h1⟩ rfl
    rw [hall d hd] at h1; cases h1
  have hint : readInt s = none := by
    refine readInt_eq_none_of_mem hc ?_ ?_ <;> rcases hpt with rfl | rfl <;> decide
  refine ⟨List.ne_nil_of_mem hc, fun d hd => isBare_of_isFloatChar (hall d hd), ?_⟩
  rw [readBare, if_neg (hne _ ⟨'n', by simp, by decide⟩), if_neg (hne _ ⟨'t', by simp, by decide⟩),
    if_neg (hne _ ⟨'f', by simp, by decide⟩), if_neg (hne _ ⟨'N', by simp, by decide⟩),
    if_neg (hne _ ⟨'I', by simp, by decide⟩), if_neg (hne _ ⟨'I', by simp, by decide⟩), hint]
  exact dif_pos hs

lemma bareFor_float (x : JFloat) : BareFor x.render (.float x) := by
  cases x with
  | finite x => exact bareFor_floatLit x
  | nan => exact ⟨by decide, List.all_iff_forall_prop.1 (by decide), rfl⟩
  | inf => exact ⟨by decide, List.all_iff_forall_prop.1 (by decide), rfl⟩
  | negInf => exact ⟨by decide, List.all_iff_forall_prop.1 (by decide), rfl⟩

/-- The rest does not go on with a bare character. -/
def Stops (rest : List Char) : Prop := ∀ c ∈ rest.head?, isBare c = false

lemma stops_cons {c : Char} (h : isBare c = false) (rest : List Char) : Stops (c :: rest) := by
  simp [Stops, h]

lemma takeWhile_bare {s rest : List Char} (hs : ∀ c ∈ s, isBare c = true) (hr : Stops rest) :
    (s ++ rest).takeWhile isBare = s ∧ (s ++ rest).dropWhile isBare = rest := by
  induction s with
  | nil =>
    cases rest with
    | nil => simp
    | cons c rest =>
      have := hr c rfl
      simp [this]
  | cons c s ih =>
    obtain ⟨h1, h2⟩ := ih fun c hc => hs c (List.mem_cons_of_mem _ hc)
    simp [hs c, h1, h2]

lemma readValue_bare {s : List Char} {j : Json} (h : BareFor s j) {rest : List Char} (hr : Stops rest) {n : ℕ}
    (hn : s.length ≤ n) : readValue n (s ++ rest) = some (j, rest) := by
  obtain ⟨c, s', rfl⟩ := List.exists_cons_of_ne_nil h.ne_nil
  obtain ⟨m, rfl⟩ : ∃ m, n = m + 1 := ⟨n - 1, by simp at hn; omega⟩
  have hc := h.bare c (by simp)
  have h1 : c ≠ '"' := by rintro rfl; cases hc
  have h2 : c ≠ '[' := by rintro rfl; cases hc
  have h3 : c ≠ '{' := by rintro rfl; cases hc
  have ht := takeWhile_bare h.bare hr
  rw [readValue]
  simp only [List.cons_append, List.head?_cons, Option.some.injEq, h1, h2, h3, if_false]
  rw [← List.cons_append, ht.1, ht.2, h.read]
  rfl


/-! ### Values -/

/-- The text of a value starts with neither closing bracket. -/
lemma render_head (j : Json) : ∃ c s, j.render = c :: s ∧ c ≠ ']' ∧ c ≠ '}' := by
  have hbare : ∀ {s : List Char} {j' : Json}, BareFor s j' → ∃ c t, s = c :: t ∧ c ≠ ']' ∧ c ≠ '}' := by
    intro s j' h
    obtain ⟨c, t, rfl⟩ := List.exists_cons_of_ne_nil h.ne_nil
    have hc := h.bare c (by simp)
    refine ⟨c, t, rfl, ?_, ?_⟩ <;> (rintro rfl; cases hc)
  cases j with
  | null => simp [Json.render]
  | bool b => cases b <;> simp [Json.render]
  | int i => simpa only [Json.render] using hbare (bareFor_decimal i)
  | float x => simpa only [Json.render] using hbare (bareFor_float x)
  | str s => simp [Json.render, renderString]
  | arr xs => cases xs <;> simp [Json.render]
  | obj ms => rcases ms with _ | ⟨⟨k, v⟩, ms⟩ <;> simp [Json.render]

lemma renderElems_stops (xs : List Json) (rest : List Char) : Stops (renderElems xs ++ rest) := by
  cases xs <;> simp only [renderElems, List.cons_append] <;> exact stops_cons (by decide) _

lemma renderMembers_stops (ms : List (String × Json)) (rest : List Char) : Stops (renderMembers ms ++ rest) := by
  rcases ms with _ | ⟨⟨k, v⟩, ms⟩ <;> simp only [renderMembers, List.cons_append] <;> exact stops_cons (by decide) _

lemma expect_cons (c : Char) (s : List Char) : expect c (c :: s) = some s := by simp [expect]

mutual
/-- **Round trip.**  A value's text, followed by anything that does not continue it, is read back. -/
theorem readValue_render (j : Json) (rest : List Char) (hr : Stops rest) (n : ℕ) (hn : j.render.length ≤ n) :
    readValue n (j.render ++ rest) = some (j, rest) := by
  match j with
  | .null =>
    simp only [Json.render] at hn ⊢
    exact readValue_bare bareFor_null hr hn
  | .bool true =>
    simp only [Json.render] at hn ⊢
    exact readValue_bare bareFor_true hr hn
  | .bool false =>
    simp only [Json.render] at hn ⊢
    exact readValue_bare bareFor_false hr hn
  | .int i =>
    simp only [Json.render] at hn ⊢
    exact readValue_bare (bareFor_decimal i) hr hn
  | .float x =>
    simp only [Json.render] at hn ⊢
    exact readValue_bare (bareFor_float x) hr hn
  | .str s =>
    simp only [Json.render] at hn ⊢
    obtain ⟨m, rfl⟩ : ∃ m, n = m + 1 := ⟨n - 1, by simp [renderString] at hn; omega⟩
    have hhead : (renderString s ++ rest).head? = some '"' := by simp [renderString]
    rw [readValue, if_pos hhead, readQuoted_renderString s rest hn]
    rfl
  | .arr [] =>
    obtain ⟨m, rfl⟩ : ∃ m, n = m + 1 := ⟨n - 1, by simp [Json.render] at hn; omega⟩
    simp [Json.render, readValue]
  | .arr (x :: xs) =>
    simp only [Json.render, List.length_cons, List.length_append] at hn
    obtain ⟨m, rfl⟩ : ∃ m, n = m + 1 := ⟨n - 1, by omega⟩
    obtain ⟨c, s, hx, hc, -⟩ := render_head x
    have h1 := readValue_render x (renderElems xs ++ rest) (renderElems_stops xs rest) m (by omega)
    have h2 := readElems_render xs rest m (by omega)
    have hne : (x.render ++ (renderElems xs ++ rest)).head? ≠ some ']' := by simp [hx, hc]
    simp only [Json.render, List.cons_append, List.append_assoc]
    rw [readValue, if_neg (by simp), if_pos (by simp)]
    simp only [List.tail_cons, if_neg hne, h1, h2, Option.bind_eq_bind, Option.bind_some]
  | .obj [] =>
    obtain ⟨m, rfl⟩ : ∃ m, n = m + 1 := ⟨n - 1, by simp [Json.render] at hn; omega⟩
    simp [Json.render, readValue]
  | .obj ((k, v) :: ms) =>
    simp only [Json.render, List.length_cons, List.length_append] at hn
    obtain ⟨m, rfl⟩ : ∃ m, n = m + 1 := ⟨n - 1, by omega⟩
    have h0 := readQuoted_renderString k (':' :: (v.render ++ (renderMembers ms ++ rest))) (n := m) (by omega)
    have h1 := readValue_render v (renderMembers ms ++ rest) (renderMembers_stops ms rest) m (by omega)
    have h2 := readMembers_render ms rest m (by omega)
    have hne : (renderString k ++ ':' :: (v.render ++ (renderMembers ms ++ rest))).head? ≠ some '}' := by
      simp [renderString]
    simp only [Json.render, List.cons_append, List.append_assoc]
    rw [readValue, if_neg (by simp), if_neg (by simp), if_pos (by simp)]
    simp only [List.tail_cons, if_neg hne, h0, expect_cons, h1, h2, Option.bind_eq_bind, Option.bind_some]
theorem readElems_render (xs : List Json) (rest : List Char) (n : ℕ) (hn : (renderElems xs).length ≤ n) :
    readElems n (renderElems xs ++ rest) = some (xs, rest) := by
  match xs with
  | [] =>
    obtain ⟨m, rfl⟩ : ∃ m, n = m + 1 := ⟨n - 1, by simp [renderElems] at hn; omega⟩
    simp [renderElems, readElems]
  | x :: xs =>
    simp only [renderElems, List.length_cons, List.length_append] at hn
    obtain ⟨m, rfl⟩ : ∃ m, n = m + 1 := ⟨n - 1, by omega⟩
    have h1 := readValue_render x (renderElems xs ++ rest) (renderElems_stops xs rest) m (by omega)
    have h2 := readElems_render xs rest m (by omega)
    simp only [renderElems, List.cons_append, List.append_assoc]
    rw [readElems, if_neg (by simp)]
    simp only [expect_cons, h1, h2, Option.bind_eq_bind, Option.bind_some]
theorem readMembers_render (ms : List (String × Json)) (rest : List Char) (n : ℕ)
    (hn : (renderMembers ms).length ≤ n) : readMembers n (renderMembers ms ++ rest) = some (ms, rest) := by
  match ms with
  | [] =>
    obtain ⟨m, rfl⟩ : ∃ m, n = m + 1 := ⟨n - 1, by simp [renderMembers] at hn; omega⟩
    simp [renderMembers, readMembers]
  | (k, v) :: ms =>
    simp only [renderMembers, List.length_cons, List.length_append] at hn
    obtain ⟨m, rfl⟩ : ∃ m, n = m + 1 := ⟨n - 1, by omega⟩
    have h0 := readQuoted_renderString k (':' :: (v.render ++ (renderMembers ms ++ rest))) (n := m) (by omega)
    have h1 := readValue_render v (renderMembers ms ++ rest) (renderMembers_stops ms rest) m (by omega)
    have h2 := readMembers_render ms rest m (by omega)
    simp only [renderMembers, List.cons_append, List.append_assoc]
    rw [readMembers, if_neg (by simp)]
    simp only [expect_cons, h0, h1, h2, Option.bind_eq_bind, Option.bind_some]
end

/-- The text of a value determines it, also in front of any rest that does not continue it. -/
theorem render_inj {x y : Json} (h : x.render = y.render) : x = y := by
  have hx := readValue_render x [] (by simp [Stops]) _ le_rfl
  have hy := readValue_render y [] (by simp [Stops]) _ le_rfl
  rw [h] at hx
  exact (Prod.mk.inj (Option.some.inj (hx.symm.trans hy))).1

/-! ## The characters of a text -/

lemma digitChar_ne {d : ℕ} (h : d < 16) : Nat.digitChar d ≠ '\n' ∧ Nat.digitChar d ≠ '\r' := by
  interval_cases d <;> decide

lemma hex4_ne {n : ℕ} {c : Char} (hc : c ∈ hex4 n) : c ≠ '\n' ∧ c ≠ '\r' := by
  simp only [hex4, List.mem_cons, List.not_mem_nil, or_false] at hc
  rcases hc with rfl | rfl | rfl | rfl <;> exact digitChar_ne (by omega)

lemma unicode_ne {n : ℕ} {c : Char} (hc : c ∈ '\\' :: 'u' :: hex4 n) : c ≠ '\n' ∧ c ≠ '\r' := by
  simp only [List.mem_cons] at hc
  rcases hc with rfl | rfl | hc
  · decide
  · decide
  · exact hex4_ne hc

lemma escapeChar_ne {c d : Char} (hd : d ∈ escapeChar c) : d ≠ '\n' ∧ d ≠ '\r' := by
  have hescaped := escaped_escapeChar c
  generalize escapeChar c = s at hescaped hd
  cases hescaped with
  | @short e he =>
    have hletters : shortEscapes.all (fun p => p.2 != '\n' && p.2 != '\r') = true := by decide
    have hletter := List.all_eq_true.1 hletters _ he
    simp only [List.mem_cons, List.not_mem_nil, or_false] at hd
    rcases hd with rfl | rfl
    · decide
    · simpa using hletter
  | plain _ _ hnewline hreturn =>
    obtain rfl := List.mem_singleton.1 hd
    exact ⟨hnewline, hreturn⟩
  | basic _ => exact unicode_ne hd
  | pair _ =>
    rcases List.mem_append.1 hd with hd | hd
    · exact unicode_ne hd
    · exact unicode_ne hd

lemma isBare_ne {c : Char} (h : isBare c = true) : c ≠ '\n' ∧ c ≠ '\r' := by
  constructor <;> (rintro rfl; cases h)

lemma BareFor.ne {s : List Char} {j : Json} (h : BareFor s j) : ∀ c ∈ s, c ≠ '\n' ∧ c ≠ '\r' :=
  fun c hc => isBare_ne (h.bare c hc)

lemma renderString_ne {s : String} {c : Char} (hc : c ∈ renderString s) : c ≠ '\n' ∧ c ≠ '\r' := by
  simp only [renderString, List.mem_cons, List.mem_append, List.mem_flatMap, List.not_mem_nil, or_false] at hc
  rcases hc with rfl | ⟨d, -, hd⟩ | rfl
  · decide
  · exact escapeChar_ne hd
  · decide

mutual
/-- A compact text is on one line. -/
theorem render_oneLine (j : Json) : ∀ c ∈ j.render, c ≠ '\n' ∧ c ≠ '\r' := by
  match j with
  | .null => simp only [Json.render]; exact List.all_iff_forall_prop.1 (by decide)
  | .bool true => simp only [Json.render]; exact List.all_iff_forall_prop.1 (by decide)
  | .bool false => simp only [Json.render]; exact List.all_iff_forall_prop.1 (by decide)
  | .int i => simpa only [Json.render] using (bareFor_decimal i).ne
  | .float x => simpa only [Json.render] using (bareFor_float x).ne
  | .str s => simpa only [Json.render] using fun c hc => renderString_ne hc
  | .arr [] => simp only [Json.render]; exact List.all_iff_forall_prop.1 (by decide)
  | .arr (x :: xs) =>
    intro c hc
    simp only [Json.render, List.mem_cons, List.mem_append] at hc
    rcases hc with rfl | hc | hc
    · decide
    · exact render_oneLine x c hc
    · exact renderElems_oneLine xs c hc
  | .obj [] => simp only [Json.render]; exact List.all_iff_forall_prop.1 (by decide)
  | .obj ((k, v) :: ms) =>
    intro c hc
    simp only [Json.render, List.mem_cons, List.mem_append] at hc
    rcases hc with rfl | hc | rfl | hc | hc
    · decide
    · exact renderString_ne hc
    · decide
    · exact render_oneLine v c hc
    · exact renderMembers_oneLine ms c hc
theorem renderElems_oneLine (xs : List Json) : ∀ c ∈ renderElems xs, c ≠ '\n' ∧ c ≠ '\r' := by
  match xs with
  | [] => simp only [renderElems]; exact List.all_iff_forall_prop.1 (by decide)
  | x :: xs =>
    intro c hc
    simp only [renderElems, List.mem_cons, List.mem_append] at hc
    rcases hc with rfl | hc | hc
    · decide
    · exact render_oneLine x c hc
    · exact renderElems_oneLine xs c hc
theorem renderMembers_oneLine (ms : List (String × Json)) : ∀ c ∈ renderMembers ms, c ≠ '\n' ∧ c ≠ '\r' := by
  match ms with
  | [] => simp only [renderMembers]; exact List.all_iff_forall_prop.1 (by decide)
  | (k, v) :: ms =>
    intro c hc
    simp only [renderMembers, List.mem_cons, List.mem_append] at hc
    rcases hc with rfl | hc | rfl | hc | hc
    · decide
    · exact renderString_ne hc
    · decide
    · exact render_oneLine v c hc
    · exact renderMembers_oneLine ms c hc
end

lemma renderMembers_last (ms : List (String × Json)) : ∃ s, renderMembers ms = s ++ ['}'] := by
  induction ms with
  | nil => exact ⟨[], rfl⟩
  | cons m ms ih =>
    obtain ⟨k, v⟩ := m
    obtain ⟨s, hs⟩ := ih
    exact ⟨',' :: (renderString k ++ ':' :: (v.render ++ s)), by simp [renderMembers, hs]⟩

/-- The text of an object with members starts with a brace and ends with one. -/
theorem render_obj_edges (m : String × Json) (ms : List (String × Json)) :
    (Json.obj (m :: ms)).render.head? = some '{' ∧ (Json.obj (m :: ms)).render.getLast? = some '}' := by
  obtain ⟨k, v⟩ := m
  obtain ⟨s, hs⟩ := renderMembers_last ms
  have hlast : '{' :: (renderString k ++ ':' :: (v.render ++ (s ++ ['}']))) =
      ('{' :: (renderString k ++ ':' :: (v.render ++ s))) ++ ['}'] := by simp
  refine ⟨by simp [Json.render], ?_⟩
  rw [Json.render, hs, hlast, List.getLast?_append]
  rfl

end Aimw.Lib
