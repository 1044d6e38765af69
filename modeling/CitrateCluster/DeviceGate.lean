import Mathlib.Data.Set.Basic

namespace CitrateCluster.DeviceGate

variable {α β : Type}

/-- What decides who may mesh in a group: the addresses it lists, those of them listed as
members, the member that each linked device acts for, and the members retired to device keys. -/
@[ext]
structure Gate (α : Type) where
  listed : Set α
  members : Set α
  members_listed : members ⊆ listed
  owner : α → α → Prop
  retired : Set α

/-- A link counts while its member passes the gate and its device is no listed address. -/
def Gate.Counts (g : Gate α) (d m : α) : Prop := g.owner d m ∧ d ∉ g.listed ∧ m ∈ g.members

def Gate.onDeviceKeys (g : Gate α) : Set α := {m | m ∈ g.retired ∨ ∃ d, g.Counts d m}

def Gate.admitted (g : Gate α) : Set α :=
  {a | (a ∈ g.members ∧ a ∉ g.onDeviceKeys) ∨ ∃ m, g.Counts a m}

theorem Gate.mem_admitted_of_retired {g : Gate α} {a : α} (h : a ∈ g.retired) :
    a ∈ g.admitted ↔ ∃ m, g.Counts a m := by
  constructor
  · rintro (⟨_, hk⟩ | hc)
    · exact absurd (Or.inl h) hk
    · exact hc
  · exact Or.inr

/-- A gate over the same listed addresses that keeps fewer links, retires more members, and among
them every member of whom it drops a link. -/
structure Gate.Narrower (g' g : Gate α) : Prop where
  listed : g'.listed = g.listed
  members : g'.members = g.members
  owner : ∀ d m, g'.owner d m → g.owner d m
  retired : g.retired ⊆ g'.retired
  dropped : ∀ d m, g.owner d m → g'.owner d m ∨ m ∈ g'.retired

/-- A dropped link takes its member off no device key. -/
theorem Gate.Narrower.onDeviceKeys {g' g : Gate α} (h : g'.Narrower g) :
    g.onDeviceKeys ⊆ g'.onDeviceKeys := by
  rintro m (hm | ⟨d, hown, hd, hmem⟩)
  · exact .inl (h.retired hm)
  · obtain hown | hm := h.dropped d m hown
    · exact .inr ⟨d, hown, h.listed ▸ hd, h.members ▸ hmem⟩
    · exact .inl hm

/-- The one member that claims a device without contest, unless it has revoked it. -/
def SoleClaim (claims : α → β → Prop) (revoked : Set (β × α)) (d : α) (m : β) : Prop :=
  claims d m ∧ (∀ m', claims d m' → m' = m) ∧ (m, d) ∉ revoked

theorem SoleClaim.congr {claims claims' : α → β → Prop} {revoked revoked' : Set (β × α)}
    (hc : ∀ d m, claims d m ↔ claims' d m) (hr : revoked = revoked') (d : α) (m : β) :
    SoleClaim claims revoked d m ↔ SoleClaim claims' revoked' d m := by
  simp only [SoleClaim, hc, hr]

end CitrateCluster.DeviceGate
