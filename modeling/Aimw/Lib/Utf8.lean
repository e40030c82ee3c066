import Mathlib.Tactic

/-!
# UTF-8 with replacement

The decoder that puts U+FFFD for what is not UTF-8, byte by byte: a longest beginning of a well-formed sequence that
does not go on becomes one U+FFFD, and so does a byte that cannot begin one.

* `decode_encode_append` — what was encoded comes back, whatever follows;
* `encode_decode` — a text without U+FFFD was decoded from its own encoding, and from nothing else.
-/

namespace Aimw.Lib.Utf8

/-! ## The decoder -/

/-- Between two characters, or `n` bytes before the end of one; the next byte is to lie between `low` and `high`, and
`acc` holds the bits so far. -/
inductive State
  | start
  | more (n acc low high : ℕ)

def replacement : Char := Char.ofNat 0xFFFD

/-- The least byte that may follow `b`. -/
def least (b : ℕ) : ℕ := if b = 0xE0 then 0xA0 else if b = 0xF0 then 0x90 else 0x80

/-- The greatest byte that may follow `b`. -/
def greatest (b : ℕ) : ℕ := if b = 0xED then 0x9F else if b = 0xF4 then 0x8F else 0xBF

/-- A byte that begins a character, or cannot. -/
def first (b : ℕ) : List Char × State :=
  if b < 0x80 then ([Char.ofNat b], .start)
  else if b < 0xC2 then ([replacement], .start)
  else if b < 0xE0 then ([], .more 1 (b - 0xC0) 0x80 0xBF)
  else if b < 0xF0 then ([], .more 2 (b - 0xE0) (least b) (greatest b))
  else if b < 0xF5 then ([], .more 3 (b - 0xF0) (least b) (greatest b))
  else ([replacement], .start)

/-- The characters that a byte completes, and the state after it. -/
def step : State → ℕ → List Char × State
  | .start, b => first b
  | .more n acc low high, b =>
    if low ≤ b ∧ b ≤ high then
      if n ≤ 1 then ([Char.ofNat (acc * 64 + (b - 0x80))], .start)
      else ([], .more (n - 1) (acc * 64 + (b - 0x80)) 0x80 0xBF)
    else (replacement :: (first b).1, (first b).2)

def decodeFrom : State → List UInt8 → List Char
  | .start, [] => []
  | .more _ _ _ _, [] => [replacement]
  | s, b :: bs => (step s b.toNat).1 ++ decodeFrom (step s b.toNat).2 bs

/-- `bs.decode("utf-8", errors="replace")`. -/
def decode (bs : List UInt8) : List Char := decodeFrom .start bs

/-- `text.encode("utf-8")`. -/
def encode (cs : List Char) : List UInt8 := cs.flatMap String.utf8EncodeChar

lemma decodeFrom_cons (s : State) (b : UInt8) (bs : List UInt8) :
    decodeFrom s (b :: bs) = (step s b.toNat).1 ++ decodeFrom (step s b.toNat).2 bs := by
  cases s <;> rfl

/-! ## What was encoded comes back -/

lemma toNat_ofNat_of_lt {n : ℕ} (h : n < 256) : (UInt8.ofNat n).toNat = n := by
  rw [UInt8.toNat_ofNat']
  exact Nat.mod_eq_of_lt h

lemma step_more_last {acc low high b : ℕ} (h : low ≤ b ∧ b ≤ high) :
    step (.more 1 acc low high) b = ([Char.ofNat (acc * 64 + (b - 0x80))], .start) := by
  simp [step, h]

lemma step_more {n acc low high b : ℕ} (hn : 1 < n) (h : low ≤ b ∧ b ≤ high) :
    step (.more n acc low high) b = ([], .more (n - 1) (acc * 64 + (b - 0x80)) 0x80 0xBF) := by
  rw [step, if_pos h, if_neg (by omega)]

/-- A code point is no surrogate, and at most U+10FFFF. -/
lemma valid_toNat (c : Char) : c.val.toNat < 0xD800 ∨ (0xDFFF < c.val.toNat ∧ c.val.toNat < 0x110000) := c.valid

theorem decodeFrom_encodeChar (c : Char) (bs : List UInt8) :
    decodeFrom .start (String.utf8EncodeChar c ++ bs) = c :: decodeFrom .start bs := by
  have hvalid := valid_toNat c
  have hc : Char.ofNat c.val.toNat = c := Char.ofNat_toNat c
  unfold String.utf8EncodeChar
  generalize c.val.toNat = v at hvalid hc
  dsimp only
  split_ifs with h₁ h₂ h₃
  · -- one byte
    rw [List.cons_append, decodeFrom_cons, toNat_ofNat_of_lt (by omega), step, first, if_pos (by omega), hc]
    rfl
  · -- two bytes
    rw [List.cons_append, List.cons_append, decodeFrom_cons, decodeFrom_cons, toNat_ofNat_of_lt (by omega),
      toNat_ofNat_of_lt (by omega), step, first, if_neg (by omega), if_neg (by omega), if_pos (by omega),
      step_more_last (by omega), show (v / 64 % 0x20 + 0xC0 - 0xC0) * 64 + (v % 0x40 + 0x80 - 0x80) = v by omega, hc]
    rfl
  · -- three bytes
    have hsecond : least (v / 4096 % 0x10 + 0xE0) ≤ v / 64 % 0x40 + 0x80 ∧
        v / 64 % 0x40 + 0x80 ≤ greatest (v / 4096 % 0x10 + 0xE0) := by
      unfold least greatest
      constructor <;> split_ifs <;> omega
    rw [List.cons_append, List.cons_append, List.cons_append, decodeFrom_cons, decodeFrom_cons, decodeFrom_cons,
      toNat_ofNat_of_lt (by omega), toNat_ofNat_of_lt (by omega), toNat_ofNat_of_lt (by omega), step, first,
      if_neg (by omega), if_neg (by omega), if_neg (by omega), if_pos (by omega), step_more (by omega) hsecond,
      step_more_last (by omega), show ((v / 4096 % 0x10 + 0xE0 - 0xE0) * 64 + (v / 64 % 0x40 + 0x80 - 0x80)) * 64 +
        (v % 0x40 + 0x80 - 0x80) = v by omega, hc]
    rfl
  · -- four bytes
    have hsecond : least (v / 262144 % 0x08 + 0xF0) ≤ v / 4096 % 0x40 + 0x80 ∧
        v / 4096 % 0x40 + 0x80 ≤ greatest (v / 262144 % 0x08 + 0xF0) := by
      unfold least greatest
      constructor <;> split_ifs <;> omega
    rw [List.cons_append, List.cons_append, List.cons_append, List.cons_append, decodeFrom_cons, decodeFrom_cons,
      decodeFrom_cons, decodeFrom_cons, toNat_ofNat_of_lt (by omega), toNat_ofNat_of_lt (by omega),
      toNat_ofNat_of_lt (by omega), toNat_ofNat_of_lt (by omega), step, first, if_neg (by omega), if_neg (by omega),
      if_neg (by omega), if_neg (by omega), if_pos (by omega), step_more (by omega) hsecond, step_more (by omega) (by omega),
      step_more_last (by omega), show (((v / 262144 % 0x08 + 0xF0 - 0xF0) * 64 + (v / 4096 % 0x40 + 0x80 - 0x80)) * 64 +
        (v / 64 % 0x40 + 0x80 - 0x80)) * 64 + (v % 0x40 + 0x80 - 0x80) = v by omega, hc]
    rfl

/-- **What was encoded comes back**, and then what follows is decoded. -/
theorem decode_encode_append (cs : List Char) (bs : List UInt8) : decode (encode cs ++ bs) = cs ++ decode bs := by
  induction cs with
  | nil => rfl
  | cons c cs ih =>
    have hfirst := decodeFrom_encodeChar c (encode cs ++ bs)
    rw [decode, encode, List.flatMap_cons, List.append_assoc, List.cons_append, ← ih]
    exact hfirst

theorem decode_encode (cs : List Char) : decode (encode cs) = cs := by
  simpa [decode, decodeFrom] using decode_encode_append cs []

/-! ## What comes without U+FFFD was encoded -/

/-- The bytes since the last character. -/
inductive Pending : State → List UInt8 → Prop
  | start : Pending .start []
  | two {b : UInt8} : 0xC2 ≤ b.toNat → b.toNat < 0xE0 → Pending (.more 1 (b.toNat - 0xC0) 0x80 0xBF) [b]
  | three {b : UInt8} : 0xE0 ≤ b.toNat → b.toNat < 0xF0 →
      Pending (.more 2 (b.toNat - 0xE0) (least b.toNat) (greatest b.toNat)) [b]
  | threeMore {b c : UInt8} : 0xE0 ≤ b.toNat → b.toNat < 0xF0 → least b.toNat ≤ c.toNat → c.toNat ≤ greatest b.toNat →
      Pending (.more 1 ((b.toNat - 0xE0) * 64 + (c.toNat - 0x80)) 0x80 0xBF) [b, c]
  | four {b : UInt8} : 0xF0 ≤ b.toNat → b.toNat < 0xF5 →
      Pending (.more 3 (b.toNat - 0xF0) (least b.toNat) (greatest b.toNat)) [b]
  | fourMore {b c : UInt8} : 0xF0 ≤ b.toNat → b.toNat < 0xF5 → least b.toNat ≤ c.toNat → c.toNat ≤ greatest b.toNat →
      Pending (.more 2 ((b.toNat - 0xF0) * 64 + (c.toNat - 0x80)) 0x80 0xBF) [b, c]
  | fourLast {b c d : UInt8} : 0xF0 ≤ b.toNat → b.toNat < 0xF5 → least b.toNat ≤ c.toNat → c.toNat ≤ greatest b.toNat →
      0x80 ≤ d.toNat → d.toNat ≤ 0xBF →
      Pending (.more 1 (((b.toNat - 0xF0) * 64 + (c.toNat - 0x80)) * 64 + (d.toNat - 0x80)) 0x80 0xBF) [b, c, d]

lemma toNat_val_ofNat {v : ℕ} (h : v < 0xD800 ∨ (0xDFFF < v ∧ v < 0x110000)) : (Char.ofNat v).val.toNat = v := by
  have hvalid : v.isValidChar := h
  rw [Char.ofNat, dif_pos hvalid]
  show (UInt32.ofNatLT v _).toNat = v
  simp

lemma ofNat_eq {n : ℕ} {b : UInt8} (h : n = b.toNat) : UInt8.ofNat n = b := by
  rw [h]
  exact UInt8.ofNat_toNat

/-- What a byte does to what is pending. -/
inductive Stepped (p : List UInt8) (b : UInt8) : List Char × State → Prop
  | replaced {out : List Char × State} : replacement ∈ out.1 → Stepped p b out
  | completed (c : Char) : p ++ [b] = String.utf8EncodeChar c → Stepped p b ([c], .start)
  | pending {s : State} : Pending s (p ++ [b]) → Stepped p b ([], s)

lemma first_stepped (b : UInt8) : Stepped [] b (first b.toNat) := by
  have hb := b.toNat_lt
  unfold first
  split_ifs with h₁ h₂ h₃ h₄ h₅
  · refine .completed _ ?_
    rw [String.utf8EncodeChar, toNat_val_ofNat (by omega), if_pos (by omega), ofNat_eq rfl]
    rfl
  · exact .replaced (List.mem_singleton_self _)
  · exact .pending (.two (by omega) (by omega))
  · exact .pending (.three (by omega) (by omega))
  · exact .pending (.four (by omega) (by omega))
  · exact .replaced (List.mem_singleton_self _)

/-- A byte after a beginning that does not take it. -/
lemma stepped_of_outside {p : List UInt8} {b : UInt8} {n acc low high : ℕ} (h : ¬ (low ≤ b.toNat ∧ b.toNat ≤ high)) :
    Stepped p b (step (.more n acc low high) b.toNat) := by
  rw [step, if_neg h]
  exact .replaced List.mem_cons_self

/-- **A byte completes a character, or is pending, or leaves a U+FFFD.** -/
theorem step_stepped {s : State} {p : List UInt8} (hp : Pending s p) (b : UInt8) : Stepped p b (step s b.toNat) := by
  cases hp with
  | start => exact first_stepped b
  | @two a ha ha' =>
    by_cases hb : 0x80 ≤ b.toNat ∧ b.toNat ≤ 0xBF
    · rw [step_more_last hb]
      refine .completed _ ?_
      rw [String.utf8EncodeChar, toNat_val_ofNat (by omega), if_neg (by omega), if_pos (by omega),
        ofNat_eq (b := a) (by omega), ofNat_eq (b := b) (by omega)]
      rfl
    · exact stepped_of_outside hb
  | @three a ha ha' =>
    by_cases hb : least a.toNat ≤ b.toNat ∧ b.toNat ≤ greatest a.toNat
    · rw [step_more (by omega) hb]
      exact .pending (.threeMore ha ha' hb.1 hb.2)
    · exact stepped_of_outside hb
  | @threeMore a c ha ha' hlow hhigh =>
    by_cases hb : 0x80 ≤ b.toNat ∧ b.toNat ≤ 0xBF
    · rw [step_more_last hb]
      refine .completed _ ?_
      unfold least at hlow
      unfold greatest at hhigh
      have hc : 0x80 ≤ c.toNat ∧ c.toNat ≤ 0xBF ∧ (a.toNat = 0xE0 → 0xA0 ≤ c.toNat) ∧
          (a.toNat = 0xED → c.toNat ≤ 0x9F) := by
        split_ifs at hlow hhigh <;> omega
      rw [String.utf8EncodeChar, toNat_val_ofNat (by omega), if_neg (by omega), if_neg (by omega), if_pos (by omega),
        ofNat_eq (b := a) (by omega), ofNat_eq (b := c) (by omega), ofNat_eq (b := b) (by omega)]
      rfl
    · exact stepped_of_outside hb
  | @four a ha ha' =>
    by_cases hb : least a.toNat ≤ b.toNat ∧ b.toNat ≤ greatest a.toNat
    · rw [step_more (by omega) hb]
      exact .pending (.fourMore ha ha' hb.1 hb.2)
    · exact stepped_of_outside hb
  | fourMore ha ha' hlow hhigh =>
    by_cases hb : 0x80 ≤ b.toNat ∧ b.toNat ≤ 0xBF
    · rw [step_more (by omega) hb]
      exact .pending (.fourLast ha ha' hlow hhigh hb.1 hb.2)
    · exact stepped_of_outside hb
  | @fourLast a c d ha ha' hlow hhigh hd hd' =>
    by_cases hb : 0x80 ≤ b.toNat ∧ b.toNat ≤ 0xBF
    · rw [step_more_last hb]
      refine .completed _ ?_
      unfold least at hlow
      unfold greatest at hhigh
      have hc : 0x80 ≤ c.toNat ∧ c.toNat ≤ 0xBF ∧ (a.toNat = 0xF0 → 0x90 ≤ c.toNat) ∧
          (a.toNat = 0xF4 → c.toNat ≤ 0x8F) := by
        split_ifs at hlow hhigh <;> omega
      rw [String.utf8EncodeChar, toNat_val_ofNat (by omega), if_neg (by omega), if_neg (by omega), if_neg (by omega),
        ofNat_eq (b := a) (by omega), ofNat_eq (b := c) (by omega), ofNat_eq (b := d) (by omega),
        ofNat_eq (b := b) (by omega)]
      rfl
    · exact stepped_of_outside hb

theorem exists_encode {s : State} {p bs : List UInt8} (hp : Pending s p) (h : replacement ∉ decodeFrom s bs) :
    ∃ cs, p ++ bs = encode cs := by
  induction bs generalizing s p with
  | nil =>
    cases s with
    | start =>
      cases hp
      exact ⟨[], rfl⟩
    | more => exact absurd (List.mem_singleton_self _) h
  | cons b bs ih =>
    rw [decodeFrom_cons, List.mem_append, not_or] at h
    obtain ⟨hnow, hlater⟩ := h
    have hstep := step_stepped hp b
    generalize step s b.toNat = out at hstep hnow hlater
    cases hstep with
    | replaced hmem => exact absurd hmem hnow
    | completed c hc =>
      obtain ⟨cs, hcs⟩ := ih .start hlater
      refine ⟨c :: cs, ?_⟩
      rw [encode, List.flatMap_cons, ← hc, List.append_assoc]
      show p ++ b :: bs = p ++ b :: encode cs
      rw [← hcs]
      rfl
    | pending hp' =>
      obtain ⟨cs, hcs⟩ := ih hp' hlater
      exact ⟨cs, by rw [← hcs]; simp⟩

/-- **A text without U+FFFD was decoded from its own encoding.** -/
theorem encode_decode {bs : List UInt8} (h : replacement ∉ decode bs) : encode (decode bs) = bs := by
  obtain ⟨cs, hcs⟩ := exists_encode .start h
  obtain rfl : bs = encode cs := hcs
  rw [decode_encode]

end Aimw.Lib.Utf8
