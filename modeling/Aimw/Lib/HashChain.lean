import Mathlib.Data.List.Forall2
import Mathlib.Tactic

/-!
# Chains of records

`Linked link h rs k` says that the records `rs`, walked from the head `h`, end at the head `k`, where
`link h r k` is one step.  A log with a running hash is the case in which the head is the hash of the last
record; `Linked.same_history` is then the commitment of the head to everything before it.
-/

namespace Aimw.Lib

variable {H R : Type} {link : H → R → H → Prop}

/-- The records `rs` lead from the head `h` to the head `k`. -/
inductive Linked (link : H → R → H → Prop) : H → List R → H → Prop
  | nil (h : H) : Linked link h [] h
  | cons {h k m : H} {r : R} {rs : List R} : link h r k → Linked link k rs m → Linked link h (r :: rs) m

theorem linked_nil_iff {h k : H} : Linked link h [] k ↔ h = k := by
  constructor
  · rintro ⟨⟩; rfl
  · rintro rfl; exact .nil _

theorem linked_cons_iff {h m : H} {r : R} {rs : List R} :
    Linked link h (r :: rs) m ↔ ∃ k, link h r k ∧ Linked link k rs m := by
  constructor
  · rintro (_ | ⟨hr, hrs⟩)
    exact ⟨_, hr, hrs⟩
  · rintro ⟨k, hr, hrs⟩
    exact .cons hr hrs

theorem linked_append_iff {h m : H} {rs ss : List R} :
    Linked link h (rs ++ ss) m ↔ ∃ k, Linked link h rs k ∧ Linked link k ss m := by
  induction rs generalizing h with
  | nil => simp [linked_nil_iff]
  | cons r rs ih =>
    simp only [List.cons_append, linked_cons_iff, ih]
    constructor
    · rintro ⟨k, hr, l, hl, hs⟩
      exact ⟨l, ⟨k, hr, hl⟩, hs⟩
    · rintro ⟨l, ⟨k, hr, hl⟩, hs⟩
      exact ⟨k, hr, l, hl, hs⟩

theorem linked_concat_iff {h m : H} {rs : List R} {r : R} :
    Linked link h (rs ++ [r]) m ↔ ∃ k, Linked link h rs k ∧ link k r m := by
  simp [linked_append_iff, linked_cons_iff, linked_nil_iff]

theorem Linked.imp {link' : H → R → H → Prop} {h k : H} {rs : List R}
    (himp : ∀ a, ∀ r ∈ rs, ∀ b, link a r b → link' a r b) (hrs : Linked link h rs k) : Linked link' h rs k := by
  induction hrs with
  | nil => exact .nil _
  | @cons a k m r rs hr _ ih =>
    exact .cons (himp a r (by simp) k hr) (ih fun a s hs b => himp a s (by simp [hs]) b)

theorem linked_map_iff {S : Type} {f : S → R} {h k : H} {xs : List S} :
    Linked link h (xs.map f) k ↔ Linked (fun a x b => link a (f x) b) h xs k := by
  induction xs generalizing h with
  | nil => rw [List.map_nil, linked_nil_iff, linked_nil_iff]
  | cons x xs ih => simp only [List.map_cons, linked_cons_iff, ih]

/-- The head commits to the history.  Two chains from the same start `g` that end at the same head agree
record by record, if a step can be undone (the new head determines the old one and, up to `E`, the record)
and no step leads back to `g`. -/
theorem Linked.same_history {E : R → R → Prop} {g k : H} {xs ys : List R} (hx : Linked link g xs k)
    (hy : Linked link g ys k)
    (hinj : ∀ x ∈ xs, ∀ y ∈ ys, ∀ a b m, link a x m → link b y m → a = b ∧ E x y)
    (hgx : ∀ x ∈ xs, ∀ a, ¬ link a x g) (hgy : ∀ y ∈ ys, ∀ a, ¬ link a y g) : List.Forall₂ E xs ys := by
  -- backwards, from the common head
  induction xs using List.reverseRecOn generalizing ys k with
  | nil =>
    obtain rfl := linked_nil_iff.1 hx
    rcases List.eq_nil_or_concat ys with rfl | ⟨ys, y, rfl⟩
    · exact .nil
    · rw [List.concat_eq_append] at hy hgy
      obtain ⟨b, -, hb⟩ := linked_concat_iff.1 hy
      exact absurd hb (hgy y (by simp) b)
  | append_singleton xs x ih =>
    obtain ⟨a, hxs, ha⟩ := linked_concat_iff.1 hx
    rcases List.eq_nil_or_concat ys with rfl | ⟨ys, y, rfl⟩
    · obtain rfl := linked_nil_iff.1 hy
      exact absurd ha (hgx x (by simp) a)
    · rw [List.concat_eq_append] at *
      obtain ⟨b, hys, hb⟩ := linked_concat_iff.1 hy
      obtain ⟨rfl, hxy⟩ := hinj x (by simp) y (by simp) a b k ha hb
      have hrec := ih hxs hys (fun x hx y hy => hinj x (by simp [hx]) y (by simp [hy]))
        (fun x hx => hgx x (by simp [hx])) (fun y hy => hgy y (by simp [hy]))
      exact List.rel_append hrec (.cons hxy .nil)

/-- A record fixes where it stands: `link` gives it one head before it and one after it. -/
def Fixed (link : H → R → H → Prop) : Prop := ∀ r a b k m, link a r k → link b r m → a = b ∧ k = m

/-- Only the end of a chain can be cut off.  A chain from `g` that is made of records of the chain `xs` is the
beginning of `xs`. -/
theorem Linked.prefix_of_subset (hfixed : Fixed link) {g k m : H} {xs ys : List R} (hx : Linked link g xs k)
    (hy : Linked link g ys m) (hsub : ∀ y ∈ ys, y ∈ xs)
    (hinj : ∀ x ∈ xs, ∀ y ∈ xs, ∀ a b m, link a x m → link b y m → a = b) (hg : ∀ x ∈ xs, ∀ a, ¬ link a x g) :
    ys <+: xs := by
  induction ys using List.reverseRecOn generalizing m with
  | nil => exact List.nil_prefix
  | append_singleton ys y ih =>
    obtain ⟨a, hys, hy⟩ := linked_concat_iff.1 hy
    obtain ⟨zs, rfl⟩ := ih hys fun y hy => hsub y (by simp [hy])
    -- `y` stands somewhere in the chain, and the records before it lead where `ys` leads
    obtain ⟨us, vs, hsplit⟩ := List.append_of_mem (hsub y (by simp))
    have hx' := hx
    rw [hsplit] at hx'
    obtain ⟨b, hus, hrest⟩ := linked_append_iff.1 hx'
    obtain ⟨m', hy', -⟩ := linked_cons_iff.1 hrest
    obtain ⟨rfl, rfl⟩ := hfixed _ _ _ _ _ hy hy'
    have husub : ∀ u ∈ us, u ∈ ys ++ zs := fun u hu => hsplit ▸ List.mem_append_left _ hu
    have hlength := (hus.same_history (E := fun _ _ => True) hys
      (fun x hx y hy a b m ha hb => ⟨hinj x (husub x hx) y (List.mem_append_left _ hy) a b m ha hb, trivial⟩)
      (fun x hx => hg x (husub x hx)) fun y hy => hg y (List.mem_append_left _ hy)).length_eq
    obtain ⟨rfl, hzs⟩ := List.append_inj hsplit.symm hlength
    rw [← hzs]
    exact ⟨vs, by simp⟩

end Aimw.Lib
