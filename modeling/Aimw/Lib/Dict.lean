import Mathlib.Data.List.Nodup
import Mathlib.Tactic

/-!
# Dictionaries

A Python `dict` with string keys, as the list of its items in insertion order; no key occurs twice.
-/

namespace Aimw.Lib

/-- A dictionary; `items` is what `.items()` goes through. -/
structure Dict (α : Type) where
  items : List (String × α)
  nodup : (items.map Prod.fst).Nodup

namespace Dict

variable {α : Type} (d : Dict α)

def keys : List String := d.items.map Prod.fst

/-- `d.get(k)`. -/
def get? (k : String) : Option α := d.items.lookup k

def empty : Dict α := ⟨[], List.nodup_nil⟩

lemma lookup_eq_some_iff {l : List (String × α)} (hl : (l.map Prod.fst).Nodup) {k : String} {v : α} :
    l.lookup k = some v ↔ (k, v) ∈ l := by
  induction l with
  | nil => simp
  | cons p l ih =>
    obtain ⟨k', v'⟩ := p
    rw [List.map_cons, List.nodup_cons] at hl
    by_cases hk : k = k'
    · subst hk
      have hnot : (k, v) ∉ l := fun h => hl.1 (List.mem_map.2 ⟨_, h, rfl⟩)
      simp only [List.lookup_cons, beq_self_eq_true, List.mem_cons, hnot, or_false, Option.some.injEq,
        Prod.mk.injEq, true_and]
      exact eq_comm
    · have hbeq : (k == k') = false := by simpa using hk
      simp [List.lookup_cons, hbeq, ih hl.2, hk]

theorem get?_eq_some_iff {k : String} {v : α} : d.get? k = some v ↔ (k, v) ∈ d.items :=
  lookup_eq_some_iff d.nodup

theorem get?_isSome_iff {k : String} : (d.get? k).isSome = true ↔ k ∈ d.keys := by
  rw [Option.isSome_iff_exists]
  simp only [get?_eq_some_iff, keys, List.mem_map, Prod.exists, exists_and_right, exists_eq_right]

/-! ## The order of the items -/

/-- The same keys, with related values, in whatever order. -/
def Reordered {β : Type} (r : α → β → Prop) (d : Dict α) (d' : Dict β) : Prop :=
  ∀ k, Option.Rel r (d.get? k) (d'.get? k)

variable {d} {d' : Dict α}

/-- The order of the items does not matter to a lookup. -/
theorem get?_of_perm (h : d.items.Perm d'.items) (k : String) : d.get? k = d'.get? k := by
  ext v
  rw [get?_eq_some_iff, get?_eq_some_iff, h.mem_iff]

lemma reordered_of_perm {r : α → α → Prop} (hr : ∀ v, r v v) (h : d.items.Perm d'.items) : Reordered r d d' := by
  intro k
  rw [get?_of_perm h]
  cases d'.get? k with
  | none => exact .none
  | some v => exact .some (hr v)

lemma Reordered.get? {r : α → α → Prop} (h : Reordered r d d') {k : String} {v : α} (hv : d.get? k = some v) :
    ∃ v', d'.get? k = some v' ∧ r v v' := by
  have hk := h k
  rw [hv] at hk
  cases hv' : d'.get? k with
  | none =>
    rw [hv'] at hk
    cases hk
  | some v' =>
    rw [hv'] at hk
    cases hk with
    | some hr => exact ⟨v', rfl, hr⟩

lemma Reordered.mem {r : α → α → Prop} (h : Reordered r d d') {k : String} {v : α} (hv : (k, v) ∈ d.items) :
    ∃ v', (k, v') ∈ d'.items ∧ r v v' := by
  obtain ⟨v', hv', hr⟩ := h.get? (d.get?_eq_some_iff.2 hv)
  exact ⟨v', d'.get?_eq_some_iff.1 hv', hr⟩

theorem Reordered.symm {r : α → α → Prop} (hr : ∀ v v', r v v' → r v' v) (h : Reordered r d d') :
    Reordered r d' d := by
  intro k
  have hk := h k
  cases hv : d.get? k <;> cases hv' : d'.get? k <;> rw [hv, hv'] at hk <;> cases hk
  · exact .none
  · exact .some (hr _ _ ‹_›)

/-! ## Assignment -/

/-- The value of `k` replaced where it stands, or `k` put at the end. -/
def setItem (k : String) (v : α) : List (String × α) → List (String × α)
  | [] => [(k, v)]
  | (k', v') :: l => if k' = k then (k, v) :: l else (k', v') :: setItem k v l

lemma setItem_keys (k : String) (v : α) (l : List (String × α)) :
    (setItem k v l).map Prod.fst = if k ∈ l.map Prod.fst then l.map Prod.fst else l.map Prod.fst ++ [k] := by
  induction l with
  | nil => simp [setItem]
  | cons p l ih =>
    by_cases hk : p.1 = k
    · simp [setItem, hk]
    · have hk' : ¬ k = p.1 := fun h => hk h.symm
      simp only [setItem, if_neg hk, List.map_cons, ih, List.mem_cons, hk', false_or]
      split_ifs <;> rfl

/-- `d[k] = v`. -/
def set (d : Dict α) (k : String) (v : α) : Dict α where
  items := setItem k v d.items
  nodup := by
    rw [setItem_keys]
    split_ifs with hk
    · exact d.nodup
    · refine List.nodup_append.2 ⟨d.nodup, List.nodup_singleton k, ?_⟩
      rintro a ha b hb rfl
      exact hk (List.mem_singleton.1 hb ▸ ha)

theorem get?_set (d : Dict α) (k : String) (v : α) (k' : String) :
    (d.set k v).get? k' = if k' = k then some v else d.get? k' := by
  have hitems : ∀ l : List (String × α), (setItem k v l).lookup k' = if k' = k then some v else l.lookup k' := by
    intro l
    induction l with
    | nil =>
      rw [setItem, List.lookup_cons]
      split_ifs with hk
      · rw [hk, beq_self_eq_true]
      · rw [beq_eq_false_iff_ne.2 hk]
    | cons p l ih =>
      obtain ⟨j, w⟩ := p
      rw [setItem]
      split_ifs with hj hk hk
      · rw [List.lookup_cons, hk, beq_self_eq_true]
      · rw [List.lookup_cons, List.lookup_cons, hj, beq_eq_false_iff_ne.2 hk]
      · rw [List.lookup_cons, ih, if_pos hk, beq_eq_false_iff_ne.2 fun h => hj (h.symm.trans hk)]
      · rw [List.lookup_cons, List.lookup_cons, ih, if_neg hk]
  exact hitems d.items

/-! ## Grouping -/

/-- `append v` to the list of `k`, which is created where it is missing. -/
def pushItem (k : String) (v : α) : List (String × List α) → List (String × List α)
  | [] => [(k, [v])]
  | (k', vs) :: l => if k' = k then (k', vs ++ [v]) :: l else (k', vs) :: pushItem k v l

lemma pushItem_keys (k : String) (v : α) (l : List (String × List α)) :
    (pushItem k v l).map Prod.fst = if k ∈ l.map Prod.fst then l.map Prod.fst else l.map Prod.fst ++ [k] := by
  induction l with
  | nil => simp [pushItem]
  | cons p l ih =>
    by_cases hk : p.1 = k
    · simp [pushItem, hk]
    · have hk' : ¬ k = p.1 := fun h => hk h.symm
      simp only [pushItem, if_neg hk, List.map_cons, ih, List.mem_cons, hk', false_or]
      split_ifs <;> rfl

/-- `d.setdefault(k, []).append(v)`. -/
def push (d : Dict (List α)) (k : String) (v : α) : Dict (List α) where
  items := pushItem k v d.items
  nodup := by
    rw [pushItem_keys]
    split_ifs with hk
    · exact d.nodup
    · refine List.nodup_append.2 ⟨d.nodup, List.nodup_singleton k, ?_⟩
      rintro a ha b hb rfl
      exact hk (List.mem_singleton.1 hb ▸ ha)

/-- The values of the rows, grouped by key. -/
def group (rows : List (String × α)) : Dict (List α) := rows.foldl (fun d r => d.push r.1 r.2) empty

/-- Every key has at least one value, and the values of a key are those of its rows. -/
def Groups (d : Dict (List α)) (rows : List (String × α)) : Prop :=
  (∀ k vs, (k, vs) ∈ d.items → vs ≠ [] ∧ ∀ v, v ∈ vs ↔ (k, v) ∈ rows) ∧
    ∀ k v, (k, v) ∈ rows → ∃ vs, (k, vs) ∈ d.items

lemma mem_pushItem {k : String} {v : α} {l : List (String × List α)} (hl : (l.map Prod.fst).Nodup) {k' : String}
    {vs : List α} : (k', vs) ∈ pushItem k v l ↔
      (k' ≠ k ∧ (k', vs) ∈ l) ∨
        (k' = k ∧ ((∃ ws, (k, ws) ∈ l ∧ vs = ws ++ [v]) ∨ (k ∉ l.map Prod.fst ∧ vs = [v]))) := by
  induction l with
  | nil => simp [pushItem]
  | cons p l ih =>
    obtain ⟨a, ws⟩ := p
    rw [List.map_cons, List.nodup_cons] at hl
    have hkey : ∀ us, (a, us) ∉ l := fun us hus => hl.1 (List.mem_map.2 ⟨_, hus, rfl⟩)
    by_cases ha : a = k
    · subst ha
      by_cases hk : k' = a
      · subst hk
        simp [pushItem, hkey]
      · simp [pushItem, hk]
    · have hne : k ≠ a := fun h => ha h.symm
      simp only [pushItem, if_neg ha, List.mem_cons, Prod.mk.injEq, ih hl.2, List.map_cons, hne, false_and, false_or]
      by_cases hk : k' = k
      · subst hk
        simp [hne]
      · simp [hk]

lemma Groups.push {d : Dict (List α)} {rows : List (String × α)} (h : Groups d rows) (k : String) (v : α) :
    Groups (d.push k v) (rows ++ [(k, v)]) := by
  obtain ⟨hval, hkey⟩ := h
  constructor
  · intro k' vs hmem
    rcases (mem_pushItem d.nodup).1 hmem with ⟨hne, hold⟩ | ⟨rfl, ⟨ws, hold, rfl⟩ | ⟨hnew, rfl⟩⟩
    · obtain ⟨h1, h2⟩ := hval k' vs hold
      exact ⟨h1, fun u => by simp [h2, hne]⟩
    · obtain ⟨-, h2⟩ := hval k' ws hold
      exact ⟨by simp, fun u => by simp [h2]⟩
    · have hnone : ∀ u, (k', u) ∉ rows := by
        intro u hu
        obtain ⟨ws, hws⟩ := hkey k' u hu
        exact hnew (List.mem_map.2 ⟨_, hws, rfl⟩)
      exact ⟨by simp, fun u => by simp [hnone]⟩
  · intro k' u hu
    by_cases hk : k' = k
    · subst hk
      by_cases hold : k' ∈ d.items.map Prod.fst
      · obtain ⟨⟨_, ws⟩, hws, rfl⟩ := List.mem_map.1 hold
        exact ⟨ws ++ [v], (mem_pushItem d.nodup).2 (Or.inr ⟨rfl, Or.inl ⟨ws, hws, rfl⟩⟩)⟩
      · exact ⟨[v], (mem_pushItem d.nodup).2 (Or.inr ⟨rfl, Or.inr ⟨hold, rfl⟩⟩)⟩
    · have hu : (k', u) ∈ rows := by simpa [hk] using hu
      obtain ⟨ws, hws⟩ := hkey k' u hu
      exact ⟨ws, (mem_pushItem d.nodup).2 (Or.inl ⟨hk, hws⟩)⟩

theorem groups_group (rows : List (String × α)) : Groups (group rows) rows := by
  induction rows using List.reverseRecOn with
  | nil => exact ⟨by simp [group, empty], by simp⟩
  | append_singleton rows r ih =>
    rw [group, List.foldl_append]
    exact ih.push r.1 r.2

end Dict

end Aimw.Lib
