import ApiModel.Proofs.Assembly.Settled
import ApiModel.Proofs.Documentation
import ApiModel.Proofs.Graph.Forest
import ApiModel.Proofs.Graph.Passes
import ApiModel.Proofs.Reduction

/-!
# What passes keep of ownership

Passes never nest anything anew, so messages stay nested by descending rank. Indexing tells every
listed method its service, and no pass forgets it.
-/

namespace ApiModel.Model

variable {m other : Model} {rank : MessageRef → Nat} {options : SourceOptions}

/-! ## Ranks -/

namespace Ranked

/-- Ranks are those of every model that nests no other messages. -/
theorem of_subset (h : Ranked rank m)
    (hnested : ∀ r, (other.message r).messages ⊆ (m.message r).messages) : Ranked rank other :=
  fun r c hc => h r c (hnested r hc)

/-- Ranks are those of every model with the same listing. -/
theorem of_sameListing (h : Ranked rank m) (hsame : SameListing m other) : Ranked rank other :=
  h.of_subset fun r => by rw [hsame.nestedMessages r]; exact List.Subset.refl _

/-- Assembly keeps the ranks, however far it gets. -/
theorem crossReference (h : Ranked rank m) : Ranked rank m.crossReference.model :=
  h.of_sameListing ((sameListing_buildIndices m).trans (sameSource_crossReference m).toSameListing)

/-- Skipping keeps the ranks. -/
theorem skipElements (h : Ranked rank m) (hskip : m.skipElements options = .ok other) :
    Ranked rank other :=
  h.of_subset fun r => ((reduction_skipElements hskip).nestedMessages r).subset

end Ranked

/-! ## Services of methods -/

/-- Whether listed methods know the services that list them. -/
def Owned (m : Model) : Prop :=
  ∀ s ∈ m.services, ∀ r ∈ (m.service s).methods, (m.method r).service = some s

/-- Indexing a sound model tells every listed method its service. -/
theorem Sound.owned_buildIndices (h : Sound m) : Owned m.buildIndices := by
  have hsame := sameListing_buildIndices m
  intro s hs r hr
  rw [hsame.services] at hs
  rw [hsame.methods] at hr
  have hlink : (s, r) ∈ m.listedMethods :=
    List.mem_flatMap.2 ⟨s, hs, List.mem_map.2 ⟨r, hr, rfl⟩⟩
  obtain ⟨t, ht⟩ := exists_lastOwner? (List.mem_map_of_mem hlink)
  obtain ⟨-, x, hx, hrx⟩ := h.of_mem_listedMethods hlink
  obtain ⟨-, y, hy, hry⟩ := h.of_mem_listedMethods (mem_of_lastOwner? ht)
  obtain rfl : s = t := h.oneService s t x y r hx hy hrx hry
  have hheld : methodArena.Holds m.withIndices r := (h.service s x hx).methods r hrx
  rw [buildIndices_eq]
  change (methodArena.get (methodArena.map m.withIndices (owned m.listedMethods)) r).service =
    some s
  rw [methodArena.get_map hheld, owned, ht, Option.some_or]

namespace Owned

/-- Assembly tells every listed method its service, however far it gets. -/
theorem crossReference (h : Sound m) : Owned m.crossReference.model := by
  have hsame := sameSource_crossReference m
  intro s hs r hr
  rw [hsame.services] at hs
  rw [hsame.methods] at hr
  rw [service_of_source (hsame.methodSource r)]
  exact h.owned_buildIndices s hs r hr

/-- Skipping leaves listed methods that know their services. -/
theorem skipElements (h : Owned m) (hsound : Sound m) (hskip : m.skipElements options = .ok other) :
    Owned other := by
  rcases skipElements_eq_ok.1 hskip with ⟨-, rfl⟩ | ⟨-, -, rfl⟩
  · exact h
  · rw [Selection.apply_eq]
    exact (hsound.prunedServices _ _).owned_buildIndices

/-- Documentation leaves listed methods that know their services. -/
theorem of_sameButTexts (h : Owned m) (hsame : SameButTexts m other) : Owned other := by
  intro s hs r hr
  rw [hsame.services] at hs
  rw [hsame.methods] at hr
  have hservice := congrArg Method.service (hsame.methodText r)
  exact hservice.trans (h s hs r hr)

end Owned

end ApiModel.Model
