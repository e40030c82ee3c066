import Mathlib.Data.Set.Basic

/-!
# Layered access rules

Access to the functions of a tool in layers: the platform admits the subject, the tool is known and visible to it,
the function is open, no argument is forbidden, every gate on an argument's value lets it through, and the calls so
far are within the limit.  A list of roles that a layer asks for is met by a subject with one of them.

* `Permits.other_roles_iff`, `Permits.mono` — what other roles have to meet to keep a permission;
* `permits_congr` — rules that agree on the tool permit the same;
* `Stricter.permits` — rules that are stricter in every layer permit less.
-/

namespace Aimw.Lib

variable {Role Tool Fn Param Value Calls : Type}

/-- The subject has one of the required roles. -/
def Meets (roles required : Set Role) : Prop := ∃ r ∈ required, r ∈ roles

/-- The call of a function, with the values of the arguments that are there. -/
structure Invocation (Tool Fn Param Value : Type) where
  tool : Tool
  fn : Fn
  arg : Param → Option Value

structure AccessRules (Role Tool Fn Param Value Calls : Type) where
  /-- role lists that every subject has to meet -/
  platform : Set (Set Role)
  known : Set Tool
  /-- the roles that see the tool; it is visible to everybody if there are none -/
  visibleTo : Tool → Set Role
  functions : Tool → Set Fn
  forbidden : Tool → Param → Set Value
  /-- an argument with this value asks for one of these roles -/
  gates : Tool → Set (Param × Value × Set Role)
  /-- the numbers of calls so far that leave room for one more -/
  within : Set Calls

namespace AccessRules

variable (G : AccessRules Role Tool Fn Param Value Calls)

/-- The tool is there for a subject with these roles. -/
def Sees (roles : Set Role) (tool : Tool) : Prop :=
  (∀ required ∈ G.platform, Meets roles required) ∧ tool ∈ G.known ∧
    (G.visibleTo tool = ∅ ∨ Meets roles (G.visibleTo tool))

/-- The tool is there, and has the function. -/
def Offers (roles : Set Role) (tool : Tool) (fn : Fn) : Prop := G.Sees roles tool ∧ fn ∈ G.functions tool

/-- All layers let the call pass. -/
structure Permits (roles : Set Role) (call : Invocation Tool Fn Param Value) (calls : Calls) : Prop where
  sees : G.Sees roles call.tool
  open_ : call.fn ∈ G.functions call.tool
  clean : ∀ p v, call.arg p = some v → v ∉ G.forbidden call.tool p
  gated : ∀ p v required, (p, v, required) ∈ G.gates call.tool → call.arg p = some v → Meets roles required
  room : calls ∈ G.within

end AccessRules

lemma Meets.mono {roles roles' required : Set Role} (h : Meets roles required) (hsub : roles ⊆ roles') :
    Meets roles' required := by
  obtain ⟨r, hr, hmem⟩ := h
  exact ⟨r, hr, hsub hmem⟩

lemma Meets.widen {roles required required' : Set Role} (h : Meets roles required') (hsub : required' ⊆ required) :
    Meets roles required := by
  obtain ⟨r, hr, hmem⟩ := h
  exact ⟨r, hsub hr, hmem⟩

namespace AccessRules

variable {G : AccessRules Role Tool Fn Param Value Calls} {roles roles' : Set Role}

theorem Sees.mono {tool : Tool} (h : G.Sees roles tool) (hsub : roles ⊆ roles') : G.Sees roles' tool :=
  ⟨fun required hr => (h.1 required hr).mono hsub, h.2.1, h.2.2.imp_right fun hv => hv.mono hsub⟩

/-- Only what is offered is permitted. -/
theorem Permits.offers {call : Invocation Tool Fn Param Value} {calls : Calls} (h : G.Permits roles call calls) :
    G.Offers roles call.tool call.fn :=
  ⟨h.sees, h.open_⟩

/-- A call without arguments passes the layers that look at these. -/
theorem permits_iff_offers {call : Invocation Tool Fn Param Value} {calls : Calls} (hargs : ∀ p, call.arg p = none) :
    G.Permits roles call calls ↔ G.Offers roles call.tool call.fn ∧ calls ∈ G.within := by
  constructor
  · intro h
    exact ⟨h.offers, h.room⟩
  · rintro ⟨⟨hsees, hfn⟩, hroom⟩
    refine ⟨hsees, hfn, ?_, ?_, hroom⟩
    · intro p v harg
      rw [hargs] at harg
      cases harg
    · intro p v required _ harg
      rw [hargs] at harg
      cases harg

/-- **A permitted call stays permitted with other roles iff these meet every layer that asks for roles.** -/
theorem Permits.other_roles_iff {call : Invocation Tool Fn Param Value} {calls : Calls} (h : G.Permits roles call calls) :
    G.Permits roles' call calls ↔ (∀ required ∈ G.platform, Meets roles' required) ∧
      (G.visibleTo call.tool = ∅ ∨ Meets roles' (G.visibleTo call.tool)) ∧
      ∀ p v required, (p, v, required) ∈ G.gates call.tool → call.arg p = some v → Meets roles' required := by
  constructor
  · intro h'
    exact ⟨h'.sees.1, h'.sees.2.2, h'.gated⟩
  · rintro ⟨hplatform, hvisible, hgated⟩
    exact ⟨⟨hplatform, h.sees.2.1, hvisible⟩, h.open_, h.clean, hgated, h.room⟩

/-- **More roles permit more.** -/
theorem Permits.mono {call : Invocation Tool Fn Param Value} {calls : Calls} (h : G.Permits roles call calls)
    (hsub : roles ⊆ roles') : G.Permits roles' call calls := by
  rw [h.other_roles_iff]
  refine ⟨(h.sees.mono hsub).1, (h.sees.mono hsub).2.2, ?_⟩
  intro p v required hgate harg
  exact (h.gated p v required hgate harg).mono hsub

variable {H : AccessRules Role Tool Fn Param Value Calls} {call : Invocation Tool Fn Param Value} {calls : Calls}

/-- A permitted call is permitted by all rules of a platform the subject is on that agree on the tool. -/
theorem Permits.transfer (h : G.Permits roles call calls) (hplatform : ∀ required ∈ H.platform, Meets roles required)
    (hknown : call.tool ∈ H.known)
    (htool : H.visibleTo call.tool = G.visibleTo call.tool ∧ H.functions call.tool = G.functions call.tool ∧
      H.forbidden call.tool = G.forbidden call.tool ∧ H.gates call.tool = G.gates call.tool)
    (hwithin : H.within = G.within) : H.Permits roles call calls := by
  obtain ⟨hvisible, hfunctions, hforbidden, hgates⟩ := htool
  refine ⟨⟨hplatform, hknown, ?_⟩, ?_, ?_, ?_, ?_⟩
  · rw [hvisible]
    exact h.sees.2.2
  · rw [hfunctions]
    exact h.open_
  · rw [hforbidden]
    exact h.clean
  · rw [hgates]
    exact h.gated
  · rw [hwithin]
    exact h.room

/-- **Rules that agree on the tool, for a subject that both platforms admit or neither does, permit the same.** -/
theorem permits_congr
    (hplatform : (∀ required ∈ G.platform, Meets roles required) ↔ ∀ required ∈ H.platform, Meets roles required)
    (hknown : call.tool ∈ G.known ↔ call.tool ∈ H.known)
    (htool : call.tool ∈ G.known → G.visibleTo call.tool = H.visibleTo call.tool ∧
      G.functions call.tool = H.functions call.tool ∧ G.forbidden call.tool = H.forbidden call.tool ∧
      G.gates call.tool = H.gates call.tool)
    (hwithin : G.within = H.within) : G.Permits roles call calls ↔ H.Permits roles call calls := by
  constructor
  · intro h
    obtain ⟨hv, hf, hfor, hg⟩ := htool h.sees.2.1
    exact h.transfer (hplatform.1 h.sees.1) (hknown.1 h.sees.2.1) ⟨hv.symm, hf.symm, hfor.symm, hg.symm⟩ hwithin.symm
  · intro h
    have hk := hknown.2 h.sees.2.1
    exact h.transfer (hplatform.2 h.sees.1) hk (htool hk) hwithin

/-! ## Stricter rules -/

/-- Every layer of `H` lets through less than that of `G`. -/
structure Stricter (G H : AccessRules Role Tool Fn Param Value Calls) : Prop where
  platform : ∀ required ∈ G.platform, ∃ required' ∈ H.platform, required' ⊆ required
  known : H.known ⊆ G.known
  visibleTo : ∀ t, H.visibleTo t = G.visibleTo t ∨ (H.visibleTo t ≠ ∅ ∧ H.visibleTo t ⊆ G.visibleTo t)
  functions : ∀ t, H.functions t ⊆ G.functions t
  forbidden : ∀ t p, G.forbidden t p ⊆ H.forbidden t p
  gates : ∀ t, G.gates t ⊆ H.gates t
  within : H.within ⊆ G.within

/-- What is seen under stricter rules is seen. -/
theorem Stricter.sees (h : G.Stricter H) {tool : Tool} (hs : H.Sees roles tool) : G.Sees roles tool := by
  obtain ⟨hplatform, hknown, hvisible⟩ := hs
  refine ⟨?_, h.known hknown, ?_⟩
  · intro required hr
    obtain ⟨required', hr', hsub⟩ := h.platform required hr
    exact (hplatform required' hr').widen hsub
  · rcases h.visibleTo tool with heq | ⟨hne, hsub⟩
    · rwa [heq] at hvisible
    · exact Or.inr ((hvisible.resolve_left hne).widen hsub)

/-- **What stricter rules permit is permitted.** -/
theorem Stricter.permits (h : G.Stricter H) (hp : H.Permits roles call calls) : G.Permits roles call calls := by
  refine ⟨h.sees hp.sees, h.functions _ hp.open_, ?_, ?_, h.within hp.room⟩
  · intro p v harg hforbidden
    exact hp.clean p v harg (h.forbidden _ _ hforbidden)
  · intro p v required hgate harg
    exact hp.gated p v required (h.gates _ hgate) harg

end AccessRules

end Aimw.Lib
