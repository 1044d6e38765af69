import Mathlib.Logic.Function.Basic

namespace CitrateCluster.Directory

section Permissions

/-- Whom a process runs as. -/
structure Cred where
  uid : Nat
  groups : List Nat
  deriving DecidableEq, Repr

/-- Of a file or a directory. -/
structure Stat where
  owner : Nat
  group : Nat
  mode : Nat
  isDir : Bool
  deriving DecidableEq, Repr

inductive Access where
  | search
  | write

def Access.bit : Access → Nat
  | .search => 0
  | .write => 1

/-- The bits of a mode are the owner's, else the group's, else those of all others. -/
def Cred.shift (c : Cred) (p : Stat) : Nat :=
  if c.uid = p.owner then 6 else if p.group ∈ c.groups then 3 else 0

def Cred.may (c : Cred) (p : Stat) (a : Access) : Bool :=
  c.uid == 0 || p.mode.testBit (c.shift p + a.bit)

/-- A file's owner changes its group and mode, and root its owner as well. -/
def Cred.mayChange (c : Cred) (old new : Stat) : Bool :=
  new.isDir == old.isDir && (c.uid == 0 || (c.uid == old.owner && new.owner == old.owner))

end Permissions

section Operations

/-- A directory: what its names stand for, among the files that there are. -/
structure Dir where
  stat : Stat
  names : String → Option Nat
  files : Nat → Option Stat

/-- A system call on a directory. A rename is a `put` and an `unlink` of the old name. -/
inductive Op where
  | create (name : String) (i : Nat) (group mode : Nat) (isDir : Bool)
  | put (name : String) (i : Nat)
  | unlink (name : String) (isDir : Bool)
  | setFile (i : Nat) (p : Stat)
  | setDir (p : Stat)

namespace Dir

def lookup (d : Dir) (name : String) : Option Stat := (d.names name).bind d.files

def writable (d : Dir) (c : Cred) : Bool := c.may d.stat .search && c.may d.stat .write

/-- The sticky bit reserves a name to the owners of the file and the directory. -/
def removable (d : Dir) (c : Cred) (name : String) : Bool :=
  d.writable c && (d.lookup name).any fun p =>
    !d.stat.mode.testBit 9 || c.uid == 0 || c.uid == d.stat.owner || c.uid == p.owner

def apply (d : Dir) (c : Cred) : Op → Option Dir
  | .create name i group mode isDir =>
    if d.writable c ∧ d.names name = none ∧ d.files i = none then
      some { d with
        names := Function.update d.names name (some i)
        files := Function.update d.files i (some ⟨c.uid, group, mode, isDir⟩) }
    else none
  | .put name i =>
    if d.writable c ∧ (d.files i).isSome ∧ (d.names name = none ∨ d.removable c name) then
      some { d with names := Function.update d.names name (some i) }
    else none
  | .unlink name isDir =>
    if d.removable c name ∧ (d.lookup name).any (·.isDir == isDir) then
      some { d with names := Function.update d.names name none }
    else none
  | .setFile i p =>
    if (d.files i).any fun old => c.mayChange old p then
      some { d with files := Function.update d.files i (some p) }
    else none
  | .setDir p => if c.mayChange d.stat p then some { d with stat := p } else none

end Dir

end Operations

section Guarded

variable {me : Nat} {d d' : Dir} {c : Cred} {p : Stat} {name : String}

/-- Root's, or one's own. -/
def Trusted (me uid : Nat) : Prop := uid = me ∨ uid = 0

/-- Strangers do not own the directory. They do not write to it either, or else they remove only
what is theirs. -/
structure Guarded (me : Nat) (p : Stat) : Prop where
  owned : Trusted me p.owner
  closed : p.mode &&& 0o022 = 0 ∨ p.mode.testBit 9

theorem not_may_of_masked {a : Access} {mask : Nat} (howner : c.uid ≠ p.owner) (hroot : c.uid ≠ 0)
    (h : p.mode &&& mask = 0) (hgroup : mask.testBit (3 + a.bit)) (hother : mask.testBit a.bit) :
    c.may p a = false := by
  have hclear : ∀ k, mask.testBit k → p.mode.testBit k = false := by
    intro k hk
    have hand := congrArg (·.testBit k) h
    simpa [hk] using hand
  have hshift : c.shift p = 3 ∨ c.shift p = 0 := by
    rw [Cred.shift, if_neg howner]
    split
    · exact .inl rfl
    · exact .inr rfl
  rw [Cred.may, beq_eq_false_iff_ne.mpr hroot, Bool.false_or]
  obtain hshift | hshift := hshift
  · rw [hshift, hclear _ hgroup]
  · rw [hshift, Nat.zero_add, hclear _ hother]

theorem not_mayChange {old new : Stat} (hold : Trusted me old.owner) (hc : ¬ Trusted me c.uid) :
    c.mayChange old new = false := by
  have hroot : c.uid ≠ 0 := fun h => hc (.inr h)
  have howner : c.uid ≠ old.owner := fun h => hc (h ▸ hold)
  simp [Cred.mayChange, hroot, howner]

/-- What a stranger removes from a guarded directory is its own. -/
theorem Guarded.owner_eq (hg : Guarded me d.stat) (hc : ¬ Trusted me c.uid)
    (h : d.removable c name) (hp : d.lookup name = some p) : p.owner = c.uid := by
  have hroot : c.uid ≠ 0 := fun h => hc (.inr h)
  have howner : c.uid ≠ d.stat.owner := fun h => hc (h ▸ hg.owned)
  rw [Dir.removable, Dir.writable, hp, Option.any_some] at h
  obtain hclosed | hsticky := hg.closed
  · rw [not_may_of_masked (a := .write) howner hroot hclosed rfl rfl] at h
    simp at h
  · simp only [hsticky, Bool.not_true, Bool.false_or, Bool.and_eq_true, Bool.or_eq_true,
      beq_iff_eq, hroot, howner, false_or] at h
    exact h.2.symm

/-- Whatever a stranger does to a guarded directory, the names of trusted files stay theirs. -/
theorem Guarded.apply (hg : Guarded me d.stat) (hc : ¬ Trusted me c.uid) {op : Op}
    (h : d.apply c op = some d') :
    d'.stat = d.stat ∧ ∀ i p, d.files i = some p → Trusted me p.owner →
      d'.files i = some p ∧ ∀ name, d.names name = some i → d'.names name = some i := by
  have hkept : ∀ {name i p}, d.removable c name → d.files i = some p → Trusted me p.owner →
      d.names name ≠ some i := by
    intro name i p hremovable hi hp hname
    have hlookup : d.lookup name = some p := by rw [Dir.lookup, hname, Option.bind_some, hi]
    exact hc (hg.owner_eq hc hremovable hlookup ▸ hp)
  cases op with
  | create name j group mode isDir =>
    simp only [Dir.apply, Option.ite_none_right_eq_some, Option.some.injEq] at h
    obtain ⟨⟨_, hname, hj⟩, rfl⟩ := h
    refine ⟨rfl, fun i p hi hp => ⟨?_, fun name' hname' => ?_⟩⟩
    · exact (Function.update_of_ne (by rintro rfl; simp [hj] at hi) ..).trans hi
    · exact (Function.update_of_ne (by rintro rfl; simp [hname] at hname') ..).trans hname'
  | put name j =>
    simp only [Dir.apply, Option.ite_none_right_eq_some, Option.some.injEq] at h
    obtain ⟨⟨_, _, hfree⟩, rfl⟩ := h
    refine ⟨rfl, fun i p hi hp => ⟨hi, fun name' hname' => ?_⟩⟩
    refine (Function.update_of_ne ?_ ..).trans hname'
    rintro rfl
    obtain hfree | hremovable := hfree
    · simp [hfree] at hname'
    · exact hkept hremovable hi hp hname'
  | unlink name isDir =>
    simp only [Dir.apply, Option.ite_none_right_eq_some, Option.some.injEq] at h
    obtain ⟨⟨hremovable, _⟩, rfl⟩ := h
    refine ⟨rfl, fun i p hi hp => ⟨hi, fun name' hname' => ?_⟩⟩
    refine (Function.update_of_ne ?_ ..).trans hname'
    rintro rfl
    exact hkept hremovable hi hp hname'
  | setFile j p' =>
    simp only [Dir.apply, Option.ite_none_right_eq_some, Option.some.injEq] at h
    obtain ⟨hchange, rfl⟩ := h
    refine ⟨rfl, fun i p hi hp => ⟨?_, fun name' hname' => hname'⟩⟩
    refine (Function.update_of_ne ?_ ..).trans hi
    rintro rfl
    rw [hi, Option.any_some, not_mayChange hp hc] at hchange
    cases hchange
  | setDir p' =>
    simp only [Dir.apply, Option.ite_none_right_eq_some, Option.some.injEq] at h
    rw [not_mayChange hg.owned hc] at h
    simp at h

end Guarded

end CitrateCluster.Directory
