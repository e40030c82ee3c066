import Aimw.Audit.Stored
import Aimw.Lib.SortKeys
import Mathlib.Data.String.Basic

/-!
# Keys that are hashed and keys that are read back

`json.dumps` sorts the keys of a dictionary as they are, numbers as numbers, and writes them as texts; read back they are
texts, and sorted as texts.  The rows of a dictionary come out alike exactly if `keysAgree`: `None` and floats that are
not finite are no keys, and two numbers compare as their texts do (`sorted_rows_iff`).
-/

namespace Aimw

open Lib Audit

/-! ## Keys -/

/-- Python takes the two keys for one, as it does `True`, `1` and `1.0`, and never two NaN objects. -/
def PyKey.same (k l : PyKey) : Bool := (k == l && !k.isNaN) || (k.value.isSome && k.value == l.value)

/-- `None` and a float that is not finite are written in two ways, and two numbers are sorted as numbers before and as
texts after. -/
def PyKey.agrees (k l : PyKey) : Bool :=
  keyText k = k.jsonText && match k.value, l.value with
    | some x, some y => decide (x ≤ y ↔ keyText k ≤ keyText l)
    | _, _ => true

/-- The keys are written alike by both, and in the same order. -/
def keysAgree (keys : List PyKey) : Bool := keys.all fun k => keys.all k.agrees

/-! ## Sorting -/

/-- The number of a key that is one. -/
def PyKey.number (k : PyKey) : WithBot (WithTop ℚ) := k.value.getD ⊥

/-- A member as `json.dumps` writes it. -/
def writtenMember (m : PyKey × Json) : String × Json := (m.1.jsonText, m.2)

lemma mapM_eq_some {α β : Type} {f : α → Option β} {g : α → β} (hfg : ∀ a b, f a = some b → b = g a) {l : List α}
    {bs : List β} (h : l.mapM f = some bs) : bs = l.map g ∧ ∀ a ∈ l, (f a).isSome = true := by
  have hl := forall₂_of_mapM h
  clear h
  induction hl with
  | nil => exact ⟨rfl, by simp⟩
  | cons hb _ ih =>
    obtain ⟨heq, hall⟩ := ih
    refine ⟨by rw [List.map_cons, ← heq, hfg _ _ hb], List.forall_mem_cons.2 ⟨?_, hall⟩⟩
    rw [hb, Option.isSome_some]

lemma jsonText_of_asStr {k : PyKey} {s : String} (h : k.asStr = some s) : k.jsonText = s := by
  cases k with
  | str t => exact Option.some.inj h
  | _ => cases h

/-- How the members of a dictionary are sorted: as texts, as numbers, or there is one alone. -/
lemma sortItems_cases {ms : List (PyKey × Json)} {sorted : List (String × Json)} (h : sortItems ms = some sorted) :
    ((∀ m ∈ ms, m.1.asStr.isSome = true) ∧
        sorted = (ms.insertionSort fun a b => a.1.jsonText ≤ b.1.jsonText).map writtenMember) ∨
      ((∀ m ∈ ms, m.1.isNumber = true) ∧
        sorted = (ms.insertionSort fun a b => !b.1.lt a.1).map writtenMember) ∨
      ∃ m, ms = [m] ∧ m.1 = .none ∧ sorted = [writtenMember m] := by
  unfold sortItems at h
  split at h
  · next ss hss =>
    have hwritten : ∀ (m : PyKey × Json) (b : String × Json), (m.1.asStr.map fun k => (k, m.2)) = some b →
        b = writtenMember m := by
      intro m b hb
      obtain ⟨s, hs, rfl⟩ := Option.map_eq_some_iff.1 hb
      rw [writtenMember, jsonText_of_asStr hs]
    obtain ⟨rfl, hall⟩ := mapM_eq_some hwritten hss
    obtain rfl := Option.some.inj h
    refine Or.inl ⟨fun m hm => by simpa only [Option.isSome_map] using hall m hm, ?_⟩
    exact (List.map_insertionSort _ _ writtenMember ms fun _ _ _ _ => Iff.rfl).symm
  · next hstrings =>
    split_ifs at h with hnumbers
    · obtain rfl := Option.some.inj h
      exact Or.inr (Or.inl ⟨List.all_eq_true.1 hnumbers, rfl⟩)
    · split at h
      · next m =>
        obtain rfl := Option.some.inj h
        refine Or.inr (Or.inr ⟨m, rfl, ?_, rfl⟩)
        obtain ⟨k, j⟩ := m
        cases k with
        | none => rfl
        | str s => simp [PyKey.asStr] at hstrings
        | _ => simp [PyKey.isNumber] at hnumbers
      · cases h

/-! ## Rows -/

/-- A member of a dictionary: its key, and its value as it is hashed and as it is read back. -/
abbrev Row : Type := PyKey × Json × Json

def hashedRow (r : Row) : PyKey × Json := (r.1, r.2.1)

def rereadRow (r : Row) : PyKey × Json := (.str (keyText r.1), r.2.2)

/-- Of several rows with a NaN for a key, the last is read back. -/
def readBack : List Row → List Row
  | [] => []
  | r :: rows => if r.1.isNaN && rows.any (fun q => q.1.isNaN) then readBack rows else r :: readBack rows

lemma mem_of_mem_readBack {rows : List Row} {r : Row} (h : r ∈ readBack rows) : r ∈ rows := by
  induction rows with
  | nil => exact h
  | cons q rows ih =>
    rw [readBack] at h
    split_ifs at h
    · exact List.mem_cons_of_mem _ (ih h)
    · rcases List.mem_cons.1 h with rfl | h
      · exact List.mem_cons_self
      · exact List.mem_cons_of_mem _ (ih h)

lemma readBack_eq_self {rows : List Row} (h : ∀ r ∈ rows, r.1.isNaN = false) : readBack rows = rows := by
  induction rows with
  | nil => rfl
  | cons r rows ih =>
    obtain ⟨hr, hrows⟩ := List.forall_mem_cons.1 h
    rw [readBack, hr, Bool.false_and, if_neg Bool.false_ne_true, ih hrows]

lemma jsonText_rereadRow (r : Row) : (rereadRow r).1.jsonText = keyText r.1 := rfl

/-- Read back, the members are sorted by their texts. -/
lemma sortItems_rereadRow (rows : List Row) : sortItems (rows.map rereadRow) =
    some ((rows.insertionSort fun a b => keyText a.1 ≤ keyText b.1).map fun r => (keyText r.1, r.2.2)) := by
  have hstr : ∀ m ∈ rows.map rereadRow, m.1.asStr.isSome = true := by
    intro m hm
    obtain ⟨r, -, rfl⟩ := List.mem_map.1 hm
    rfl
  obtain ⟨sorted, hsorted⟩ := Option.isSome_iff_exists.1 (sortItems_isSome hstr)
  rw [hsorted]
  rcases sortItems_cases hsorted with ⟨-, rfl⟩ | ⟨hnumbers, rfl⟩ | ⟨m, hm, hnone, -⟩
  · have hsort := List.map_insertionSort (fun a b => keyText a.1 ≤ keyText b.1)
      (fun a b : PyKey × Json => a.1.jsonText ≤ b.1.jsonText) rereadRow rows fun a _ b _ => by
        rw [jsonText_rereadRow, jsonText_rereadRow]
    rw [← hsort, List.map_map]
    rfl
  · cases rows with
    | nil => rfl
    | cons r rows => cases hnumbers _ List.mem_cons_self
  · obtain ⟨r, -, rfl⟩ : ∃ r ∈ rows, rereadRow r = m := List.mem_map.1 (hm ▸ List.mem_singleton_self m)
    cases hnone

lemma map_rows_eq_iff {rows : List Row} (htext : ∀ r ∈ rows, keyText r.1 = r.1.jsonText) :
    (rows.map fun r => (keyText r.1, r.2.2)) = rows.map (fun r => writtenMember (hashedRow r)) ↔
      ∀ r ∈ rows, r.2.2 = r.2.1 := by
  rw [List.map_inj_left]
  refine forall₂_congr fun r hr => ?_
  simp [writtenMember, hashedRow, htext r hr]

/-! ## The texts of keys -/

/-- The key that is a number with this text. -/
def readNumber (s : List Char) : Option PyKey :=
  if s.all isFloatChar then
    match readInt s with
    | some i => some (.int i)
    | none => if h : isFloatText s = true then some (.float (.finite ⟨s, h⟩)) else none
  else
    [.bool true, .bool false, .float .nan, .float .inf, .float .negInf].find? fun k => keyText k == String.ofList s

lemma readInt_of_isFloatText {s : List Char} (h : isFloatText s = true) : readInt s = none := by
  rw [isFloatText, Bool.and_eq_true, List.any_eq_true] at h
  obtain ⟨-, c, hc, hpoint⟩ := h
  have hnot : c.isDigit = false ∧ c ≠ '-' := by
    rcases (by simpa using hpoint : c = '.' ∨ c = 'e') with rfl | rfl <;> decide
  cases s with
  | nil => cases hc
  | cons d ds =>
    rw [readInt]
    rcases List.mem_cons.1 hc with rfl | hc
    · rw [if_neg hnot.2, if_neg (by simp [hnot.1])]
    · have hds : ds.all Char.isDigit = false := List.all_eq_false.2 ⟨c, hc, by simp [hnot.1]⟩
      rw [List.all_cons, hds, Bool.and_false]
      simp

/-- A number can be told from its text. -/
lemma readNumber_keyText {k : PyKey} (hk : k.isNumber = true) : readNumber (keyText k).toList = some k := by
  cases k with
  | str s => cases hk
  | none => cases hk
  | int i =>
    have hchars : (decimal i).all isFloatChar = true := by
      refine List.all_eq_true.2 fun c hc => ?_
      rcases decimal_mem hc with rfl | hdigit
      · rfl
      · simp [isFloatChar, hdigit]
    rw [keyText, String.toList_ofList, readNumber, if_pos hchars, readInt_decimal]
  | bool b => cases b <;> decide +kernel
  | float x =>
    cases x with
    | finite x =>
      have hchars : x.text.all isFloatChar = true := (Bool.and_eq_true_iff.1 x.shape).1
      rw [keyText, String.toList_ofList, readNumber, if_pos hchars, readInt_of_isFloatText x.shape, dif_pos x.shape]
    | nan => decide +kernel
    | inf => decide +kernel
    | negInf => decide +kernel

/-- Two numbers that are written alike are the same key. -/
lemma keyText_inj {k l : PyKey} (hk : k.isNumber = true) (hl : l.isNumber = true) (h : keyText k = keyText l) : k = l := by
  have hread := readNumber_keyText hk
  rw [h, readNumber_keyText hl] at hread
  exact (Option.some.inj hread).symm

lemma keyText_str_inj {k l : PyKey} (hk : k.asStr.isSome = true) (hl : l.asStr.isSome = true)
    (h : keyText k = keyText l) : k = l := by
  cases k with
  | str s =>
    cases l with
    | str t => exact congrArg PyKey.str h
    | _ => cases hl
  | _ => cases hk

lemma isUpper_of_isFloatChar {c : Char} (h : isFloatChar c = true) : c.isUpper = false := by
  simp only [isFloatChar, Bool.or_eq_true, beq_iff_eq] at h
  rcases h with (((hdigit | rfl) | rfl) | rfl) | rfl
  · refine Bool.eq_false_iff.2 fun hupper => ?_
    have hge : 65 ≤ c.toNat := (isUpper_iff_toNat.1 hupper).1
    have hle : c.toNat ≤ 57 := (Char.isDigit_iff_toNat.1 hdigit).2
    omega
  all_goals rfl

/-- No number is written with capital letters. -/
lemma isUpper_keyText {k : PyKey} (hk : k.isNumber = true) : (keyText k).toList.any Char.isUpper = false := by
  cases k with
  | str s => cases hk
  | none => cases hk
  | int i =>
    rw [keyText, String.toList_ofList, List.any_eq_false]
    intro c hc
    rcases decimal_mem hc with rfl | hdigit
    · decide
    · rw [isUpper_of_isFloatChar (by simp [isFloatChar, hdigit])]
      exact Bool.false_ne_true
  | bool b => cases b <;> decide +kernel
  | float x =>
    cases x with
    | finite x =>
      have hchars : x.text.all isFloatChar = true := (Bool.and_eq_true_iff.1 x.shape).1
      rw [keyText, String.toList_ofList, List.any_eq_false]
      intro c hc
      rw [isUpper_of_isFloatChar (List.all_eq_true.1 hchars c hc)]
      exact Bool.false_ne_true
    | nan => decide +kernel
    | inf => decide +kernel
    | negInf => decide +kernel

/-- A number that is not finite is hashed under a name that no number is read back with. -/
lemma jsonText_ne_keyText {k l : PyKey} (hk : k.isNumber = true) (hl : l.isNumber = true) (h : keyText k ≠ k.jsonText) :
    k.jsonText ≠ keyText l := by
  intro heq
  have hupper : k.jsonText.toList.any Char.isUpper = true := by
    cases k with
    | float x =>
      cases x with
      | finite x => exact absurd rfl h
      | _ => decide +kernel
    | none => cases hk
    | _ => exact absurd rfl h
  rw [heq, isUpper_keyText hl] at hupper
  cases hupper

lemma isNaN_of_alike {k : PyKey} (h : keyText k = k.jsonText) : k.isNaN = false := by
  cases k with
  | float x =>
    cases x with
    | nan => exact absurd h (by decide +kernel)
    | _ => rfl
  | _ => rfl

lemma isNaN_of_asStr {k : PyKey} (hk : k.asStr.isSome = true) : k.isNaN = false := by
  cases k with
  | str s => rfl
  | _ => cases hk

lemma value_isSome {k : PyKey} (hk : k.isNumber = true) (h : keyText k = k.jsonText) : k.value.isSome = true := by
  cases k with
  | str s => cases hk
  | none => cases hk
  | int i => rfl
  | bool b => rfl
  | float x =>
    cases x with
    | nan => exact absurd h (by decide +kernel)
    | _ => rfl

lemma keysAgree_iff {rows : List Row} : keysAgree (rows.map Prod.fst) = true ↔
    ∀ r ∈ rows, ∀ q ∈ rows, r.1.agrees q.1 = true := by
  simp only [keysAgree, List.all_eq_true, List.forall_mem_map]

lemma agrees_of_value {k l : PyKey} (htext : keyText k = k.jsonText) (hk : k.value.isSome = true)
    (hl : l.value.isSome = true) : k.agrees l = true ↔ (k.number ≤ l.number ↔ keyText k ≤ keyText l) := by
  obtain ⟨x, hx⟩ := Option.isSome_iff_exists.1 hk
  obtain ⟨y, hy⟩ := Option.isSome_iff_exists.1 hl
  simp [PyKey.agrees, PyKey.number, htext, hx, hy]

lemma agrees_of_str {k l : PyKey} (hk : k.asStr.isSome = true) : k.agrees l = true := by
  cases k with
  | str s => simp [PyKey.agrees, PyKey.value, keyText, PyKey.jsonText]
  | _ => cases hk

lemma keyText_of_asStr {k : PyKey} (hk : k.asStr.isSome = true) : keyText k = k.jsonText := by
  cases k with
  | str s => rfl
  | _ => cases hk

/-! ## Rows that come out alike -/

section Rows

variable {rows : List Row}

lemma sort_hashedRow {T : Type} [LinearOrder T] (f : PyKey → T) :
    ((rows.map hashedRow).insertionSort fun a b => f a.1 ≤ f b.1).map writtenMember =
      (rows.insertionSort fun a b => f a.1 ≤ f b.1).map fun r => writtenMember (hashedRow r) := by
  have hsort := List.map_insertionSort (fun a b : Row => f a.1 ≤ f b.1) (fun a b : PyKey × Json => f a.1 ≤ f b.1)
    hashedRow rows fun _ _ _ _ => Iff.rfl
  rw [← hsort, List.map_map]
  rfl

lemma forall_sorted_iff {T : Type} [LinearOrder T] (f : PyKey → T) {p : Row → Prop} :
    (∀ r ∈ rows.insertionSort fun a b => f a.1 ≤ f b.1, p r) ↔ ∀ r ∈ rows, p r :=
  forall_congr' fun r => by rw [List.mem_insertionSort]

lemma alike_iff_keysAgree (htext : ∀ r ∈ rows, keyText r.1 = r.1.jsonText)
    (hvalues : ∀ r ∈ rows, r.1.value.isSome = true) :
    Alike (fun r : Row => r.1.number) (fun r => keyText r.1) rows ↔ keysAgree (rows.map Prod.fst) = true := by
  rw [keysAgree_iff]
  exact forall₂_congr fun r hr => forall₂_congr fun q hq =>
    (agrees_of_value (htext r hr) (hvalues r hr) (hvalues q hq)).symm

/-- The keys of a dictionary are different, as Python compares them. -/
def Keyed (rows : List Row) : Prop := rows.Pairwise fun a b => b.1.same a.1 = false

/-- A key that is there twice is a NaN. -/
lemma clashes_self_of_same {k : PyKey} (h : k.same k = false) : k.clashes k = false := by
  have hnan : k.isNaN = true := by simpa [PyKey.same] using (Bool.or_eq_false_iff.1 h).1
  rw [PyKey.clashes, hnan, Bool.and_self, Bool.not_true, Bool.and_false]

lemma ne_of_same {k l : PyKey} (h : l.same k = false) (hk : k.isNaN = false) : k ≠ l := by
  rintro rfl
  simp [PyKey.same, hk] at h

lemma number_ne_of_same {k l : PyKey} (h : l.same k = false) (hk : k.value.isSome = true) (hl : l.value.isSome = true) :
    k.number ≠ l.number := by
  obtain ⟨x, hx⟩ := Option.isSome_iff_exists.1 hk
  obtain ⟨y, hy⟩ := Option.isSome_iff_exists.1 hl
  intro heq
  have hxy : x = y := by simpa [PyKey.number, hx, hy] using heq
  simp [PyKey.same, hx, hy, hxy] at h

/-- Numbers that are different are written differently. -/
lemma Keyed.nodup_texts (hkeys : Keyed rows) (hnumbers : ∀ r ∈ rows, r.1.isNumber = true)
    (hnan : ∀ r ∈ rows, r.1.isNaN = false) : (rows.map fun r => keyText r.1).Nodup := by
  refine List.pairwise_map.2 (List.Pairwise.imp_of_mem (fun ha hb hsame heq => ?_) hkeys)
  exact ne_of_same hsame (hnan _ ha) (keyText_inj (hnumbers _ ha) (hnumbers _ hb) heq)

lemma Keyed.nodup_numbers (hkeys : Keyed rows) (hvalues : ∀ r ∈ rows, r.1.value.isSome = true) :
    (rows.map fun r => r.1.number).Nodup :=
  List.pairwise_map.2 (List.Pairwise.imp_of_mem
    (fun ha hb hsame => number_ne_of_same hsame (hvalues _ ha) (hvalues _ hb)) hkeys)

/-- Without a NaN, the order is that of the numbers. -/
lemma sort_numbers (hvalues : ∀ r ∈ rows, r.1.value.isSome = true) :
    ((rows.map hashedRow).insertionSort fun a b => !b.1.lt a.1).map writtenMember =
      (rows.insertionSort fun a b => a.1.number ≤ b.1.number).map fun r => writtenMember (hashedRow r) := by
  have horder : ∀ a ∈ rows, ∀ b ∈ rows,
      a.1.number ≤ b.1.number ↔ (!(hashedRow b).1.lt (hashedRow a).1) = true := by
    intro a ha b hb
    obtain ⟨x, hx⟩ := Option.isSome_iff_exists.1 (hvalues a ha)
    obtain ⟨y, hy⟩ := Option.isSome_iff_exists.1 (hvalues b hb)
    simp [PyKey.number, PyKey.lt, hashedRow, hx, hy]
  have hsort := List.map_insertionSort (fun a b : Row => a.1.number ≤ b.1.number)
    (fun a b : PyKey × Json => (!b.1.lt a.1) = true) hashedRow rows horder
  rw [← hsort, List.map_map]
  rfl

/-- **The members come back in the order in which they were hashed** exactly if their keys agree. -/
theorem sorted_rows_iff (hkeys : Keyed rows) {sorted : List (String × Json)}
    (h : sortItems (rows.map hashedRow) = some sorted) :
    sortItems ((readBack rows).map rereadRow) = some sorted ↔
      keysAgree (rows.map Prod.fst) = true ∧ ∀ r ∈ rows, r.2.2 = r.2.1 := by
  rw [sortItems_rereadRow, Option.some.injEq]
  rcases sortItems_cases h with ⟨hstrings, rfl⟩ | ⟨hnumbers, rfl⟩ | ⟨m, hm, hnone, rfl⟩
  · -- strings are sorted as texts in both
    have hstrings : ∀ r ∈ rows, r.1.asStr.isSome = true := fun r hr => hstrings _ (List.mem_map_of_mem hr)
    have htext : ∀ r ∈ rows, keyText r.1 = r.1.jsonText := fun r hr => keyText_of_asStr (hstrings r hr)
    rw [readBack_eq_self fun r hr => isNaN_of_asStr (hstrings r hr)]
    have hagree : keysAgree (rows.map Prod.fst) = true :=
      keysAgree_iff.2 fun r hr q _ => agrees_of_str (hstrings r hr)
    have halike : Alike (fun r : Row => r.1.jsonText) (fun r => keyText r.1) rows := by
      intro a ha b hb
      simp only [htext a ha, htext b hb]
    rw [sort_hashedRow PyKey.jsonText, halike.insertionSort_eq,
      map_rows_eq_iff ((forall_sorted_iff keyText).2 htext), forall_sorted_iff keyText]
    exact ⟨fun hvalues => ⟨hagree, hvalues⟩, fun hboth => hboth.2⟩
  · have hnumbers : ∀ r ∈ rows, r.1.isNumber = true := fun r hr => hnumbers _ (List.mem_map_of_mem hr)
    by_cases htext : ∀ r ∈ rows, keyText r.1 = r.1.jsonText
    · -- numbers are sorted as numbers before, and as texts after
      have hvalues : ∀ r ∈ rows, r.1.value.isSome = true := fun r hr => value_isSome (hnumbers r hr) (htext r hr)
      have hnan : ∀ r ∈ rows, r.1.isNaN = false := fun r hr => isNaN_of_alike (htext r hr)
      rw [readBack_eq_self hnan]
      rw [sort_numbers hvalues, ← alike_iff_keysAgree htext hvalues]
      constructor
      · intro heq
        have htexts := congrArg (List.map Prod.fst) heq
        rw [List.map_map, List.map_map] at htexts
        have halike : Alike (fun r : Row => r.1.number) (fun r => keyText r.1) rows := by
          refine (insertionSort_map_eq_iff (hkeys.nodup_numbers hvalues) (hkeys.nodup_texts hnumbers hnan)).1
            (htexts.trans (List.map_congr_left fun r hr => ?_))
          exact (htext r ((List.mem_insertionSort _).1 hr)).symm
        rw [halike.insertionSort_eq, map_rows_eq_iff ((forall_sorted_iff keyText).2 htext),
          forall_sorted_iff keyText] at heq
        exact ⟨halike, heq⟩
      · rintro ⟨halike, hsame⟩
        rw [halike.insertionSort_eq, map_rows_eq_iff ((forall_sorted_iff keyText).2 htext), forall_sorted_iff keyText]
        exact hsame
    · -- a float that is not finite is written in two ways
      push Not at htext
      obtain ⟨r, hr, hne⟩ := htext
      refine iff_of_false (fun heq => ?_) fun hboth => ?_
      · have hmem : writtenMember (hashedRow r) ∈
            ((rows.map hashedRow).insertionSort fun a b => !b.1.lt a.1).map writtenMember :=
          List.mem_map_of_mem ((List.mem_insertionSort _).2 (List.mem_map_of_mem hr))
        rw [← heq] at hmem
        obtain ⟨q, hq, hqr⟩ := List.mem_map.1 hmem
        have hq := mem_of_mem_readBack ((List.mem_insertionSort _).1 hq)
        exact jsonText_ne_keyText (hnumbers r hr) (hnumbers q hq) hne (congrArg Prod.fst hqr).symm
      · have hagrees := keysAgree_iff.1 hboth.1 r hr r hr
        simp [PyKey.agrees, hne] at hagrees
  · -- `None` is written in two ways
    obtain ⟨r, rfl, rfl⟩ := List.map_eq_singleton_iff.1 hm
    obtain ⟨k, j, j'⟩ := r
    obtain rfl : k = .none := hnone
    refine iff_of_false (fun heq => ?_) fun hboth => ?_
    · have htext : [("None", j')] = [("null", j)] := heq
      simp at htext
    · have hagrees : PyKey.none.agrees .none = true :=
        keysAgree_iff.1 hboth.1 _ List.mem_cons_self _ List.mem_cons_self
      cases hagrees

/-- Of the keys that `json.dumps` can sort, only NaNs are written alike. -/
lemma pairwise_clashes (hkeys : Keyed rows) {sorted : List (String × Json)}
    (h : sortItems (rows.map hashedRow) = some sorted) : rows.Pairwise fun a b => b.1.clashes a.1 = false := by
  have hclash : ∀ {a b : Row}, (keyText a.1 = keyText b.1 → a.1 = b.1) → b.1.same a.1 = false →
      b.1.clashes a.1 = false := by
    intro a b hinj hsame
    by_cases htext : keyText a.1 = keyText b.1
    · rw [hinj htext] at hsame ⊢
      exact clashes_self_of_same hsame
    · rw [PyKey.clashes, beq_eq_false_iff_ne.2 (Ne.symm htext), Bool.false_and]
  rcases sortItems_cases h with ⟨hstrings, -⟩ | ⟨hnumbers, -⟩ | ⟨m, hm, -, -⟩
  · have hstrings : ∀ r ∈ rows, r.1.asStr.isSome = true := fun r hr => hstrings _ (List.mem_map_of_mem hr)
    exact List.Pairwise.imp_of_mem (fun ha hb => hclash (keyText_str_inj (hstrings _ ha) (hstrings _ hb))) hkeys
  · have hnumbers : ∀ r ∈ rows, r.1.isNumber = true := fun r hr => hnumbers _ (List.mem_map_of_mem hr)
    exact List.Pairwise.imp_of_mem (fun ha hb => hclash (keyText_inj (hnumbers _ ha) (hnumbers _ hb))) hkeys
  · obtain ⟨r, rfl, -⟩ := List.map_eq_singleton_iff.1 hm
    exact List.pairwise_singleton _ _

end Rows

end Aimw
