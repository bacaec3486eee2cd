import DesignTokens.Token
import Mathlib.Logic.Relation

/-!
# Proofs/Schedule/Reach — where the dependencies of a key lead

Paths over the edges of a dependency graph.  A key is **broken** when a path from it leaves the
graph; being broken is passed on against the edges, and a set of keys that is closed under
dependencies holds no broken key.
-/

namespace DesignTokens

open Relation

namespace Graph

variable {g : Graph} {a b k d : String}

/-- `d` is among the dependencies of the key `k`. -/
def Edge (g : Graph) (k d : String) : Prop := ∃ deps, g.get? k = some deps ∧ d ∈ deps

/-- A path of dependencies, possibly of none, leads from one name to another. -/
def Leads (g : Graph) : String → String → Prop := ReflTransGen g.Edge

/-- A path of at least one dependency leads from one name to another. -/
def DependsOn (g : Graph) : String → String → Prop := TransGen g.Edge

/-- A path of dependencies leads to a name that is no key. -/
def Broken (g : Graph) (k : String) : Prop := ∃ name, g.Leads k name ∧ name ∉ g.keys

theorem Edge.mem_keys (h : g.Edge k d) : k ∈ g.keys := by
  obtain ⟨deps, hdeps, -⟩ := h
  exact OrderedMap.mem_keys_of_get? hdeps

theorem Edge.dependsOn (h : g.Edge k d) : g.DependsOn k d := TransGen.single h

theorem broken_of_not_mem (h : k ∉ g.keys) : g.Broken k := ⟨k, ReflTransGen.refl, h⟩

/-- What depends on a broken key is broken. -/
theorem Edge.broken (h : g.Edge k d) (hd : g.Broken d) : g.Broken k := by
  obtain ⟨name, hl, hname⟩ := hd
  exact ⟨name, ReflTransGen.head h hl, hname⟩

theorem Leads.mem_of_closed {S : String → Prop} (hl : g.Leads a b)
    (hclosed : ∀ k d, S k → g.Edge k d → S d) (h : S a) : S b := by
  induction hl with
  | refl => exact h
  | tail _ he ih => exact hclosed _ _ ih he

/-- **A set of keys that is closed under dependencies holds no broken key.** -/
theorem not_broken_of_closed {S : String → Prop} (hkeys : ∀ k, S k → k ∈ g.keys)
    (hclosed : ∀ k d, S k → g.Edge k d → S d) (h : S k) : ¬ g.Broken k := by
  rintro ⟨name, hl, hname⟩
  exact hname (hkeys name (hl.mem_of_closed hclosed h))

/-- An edge that a path leads back from closes a cycle through both its ends. -/
theorem Edge.dependsOn_of_leads (h : g.Edge a b) (hl : g.Leads b a) : g.DependsOn b a := by
  rcases reflTransGen_iff_eq_or_transGen.1 hl with he | ht
  · exact TransGen.single (he ▸ h)
  · exact ht

/-- Graphs that give the same for each name have the same keys. -/
theorem mem_keys_congr {g' : Graph} (h : ∀ k, g.get? k = g'.get? k) : k ∈ g.keys ↔ k ∈ g'.keys := by
  rw [OrderedMap.mem_keys_iff, OrderedMap.mem_keys_iff, h k]

/-- **Which keys are broken does not hang on their order**, but on what each of them depends on. -/
theorem broken_congr {g' : Graph} (h : ∀ k, g.get? k = g'.get? k) : g.Broken k ↔ g'.Broken k := by
  have hedge : g.Edge = g'.Edge := by
    funext a b
    rw [Edge, Edge, h a]
  simp only [Broken, Leads, hedge, mem_keys_congr h]

/-- **Where each dependency has a lesser rank, no key depends on itself.** -/
theorem not_dependsOn_self (rank : String → Nat)
    (h : ∀ e ∈ g.entries, ∀ d ∈ e.2, rank d < rank e.1) : ¬ g.DependsOn k k := by
  have hedge : ∀ {a b}, g.Edge a b → rank b < rank a := by
    rintro a b ⟨deps, ha, hb⟩
    exact h (a, deps) (OrderedMap.get?_eq_some_iff.1 ha) b hb
  have hpath : ∀ {a b}, g.DependsOn a b → rank b < rank a := by
    intro a b hab
    induction hab with
    | single he => exact hedge he
    | tail _ he ih => exact Nat.lt_trans (hedge he) ih
  exact fun hk => Nat.lt_irrefl _ (hpath hk)

end Graph

end DesignTokens
