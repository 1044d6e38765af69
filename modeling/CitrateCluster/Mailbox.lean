import CitrateCluster.Ipc
import Mathlib.Data.List.Forall2

namespace CitrateCluster.Mailbox

open Std (ExtTreeMap)
open Text Roster Collections Transport Daemon Ipc

def wellFormed (m : MeshMessage) : Bool := isValidCid m.data

/-- The mailboxes of the groups that a daemon serves, the mailbox that a new group would start with,
and the group the daemon is pinned to. -/
structure Mailboxes where
  boxes : ExtTreeMap String (List MeshMessage)
  fresh : String → Option (List MeshMessage)
  pinned : Option String

/-- What reaches the mailboxes: messages for a group, or a request. -/
inductive Mail where
  | deliver (group : String) (messages : List MeshMessage)
  | request (r : Request)

/-- Whether a request looks into the mailbox of a group, and if so whether it shows what it finds. -/
def visit (g : String) : Mail → Option Bool
  | .request (.poll k) => if k = g then some true else none
  | .request (.status k) | .request (.sharedFiles k _ _) => if k = g then some false else none
  | _ => none

/-- The well-formed messages that are delivered to a group. -/
def arrivals (g : String) : Mail → List MeshMessage
  | .deliver k ms => if k = g then ms.filter wellFormed else []
  | .request _ => []

namespace Mailboxes

def waiting (m : Mailboxes) (g : String) : List MeshMessage := m.boxes[g]?.getD []

def receive (m : Mailboxes) (g : String) (ms : List MeshMessage) : Mailboxes :=
  match m.boxes[g]? with
  | some box => { m with boxes := m.boxes.insert g (box ++ ms.filter wellFormed) }
  | none => m

/-- A visit leaves a mailbox empty. -/
def take (m : Mailboxes) (g : String) : Mailboxes :=
  match m.boxes[g]? with
  | some _ => { m with boxes := m.boxes.insert g [] }
  | none => m

/-- A group that is not served yet is started if the daemon may and can serve it. -/
def start (m : Mailboxes) (g : String) : Mailboxes :=
  if m.pinned.any (· != g) || m.boxes.contains g || (trim g).isEmpty ||
      decide (maxGroups ≤ m.boxes.size) then m
  else
    match m.fresh g with
    | some box => { m with boxes := m.boxes.insert g box }
    | none => m

def step (m : Mailboxes) : Mail → Mailboxes
  | .deliver g ms => m.receive g ms
  | .request (.poll g) | .request (.status g) | .request (.sharedFiles g _ _) => m.take g
  | .request (.setRoster g _ _ _) | .request (.join g) => m.start g
  | .request (.leave g) => { m with boxes := m.boxes.erase g }
  | .request _ => m

def run (m : Mailboxes) (es : List Mail) : Mailboxes := es.foldl step m

/-- What the visits to a mailbox find, and whether they show it. -/
def visits (g : String) : Mailboxes → List Mail → List (Bool × List MeshMessage)
  | _, [] => []
  | m, e :: es => ((visit g e).map fun shown => (shown, m.waiting g)).toList ++ visits g (m.step e) es

/-- What the polls of a group return. -/
def polls (g : String) (m : Mailboxes) (es : List Mail) : List (List MeshMessage) :=
  ((m.visits g es).filter (·.1)).map (·.2)

end Mailboxes

/-- Requests that read the status or the files of a group are put in, each where no message waits. -/
inductive Inserts (g : String) : Mailboxes → List Mail → List Mail → Prop where
  | nil (m : Mailboxes) : Inserts g m [] []
  | keep {m : Mailboxes} {e : Mail} {es es' : List Mail} (h : Inserts g (m.step e) es es') :
      Inserts g m (e :: es) (e :: es')
  | read {m : Mailboxes} {r : Request} {es es' : List Mail} (hr : visit g (.request r) = some false)
      (hidle : m.waiting g = []) (h : Inserts g (m.step (.request r)) es es') :
      Inserts g m es (.request r :: es')

section Machine

variable {m : Mailboxes} {g k : String} {e : Mail} {es es' : List Mail}

theorem visit_cases {shown : Bool} (h : visit g e = some shown) : m.step e = m.take g := by
  rw [visit.eq_def] at h
  split at h
  all_goals first
    | cases h
    | (split at h
       · next hk => subst hk; rfl
       · cases h)

/-- A visit to an empty mailbox changes nothing. -/
theorem take_of_idle (h : m.waiting g = []) : m.take g = m := by
  rw [Mailboxes.take]
  split
  · next box hbox =>
    rw [Mailboxes.waiting, hbox, Option.getD_some] at h
    rw [insert_eq_self (h ▸ hbox)]
  · rfl

/-- So what is put in where no message waits is not noticed. -/
theorem visits_of_inserts (h : Inserts g m es es') (k : String) :
    (m.visits k es').filter (·.1) = (m.visits k es).filter (·.1) := by
  induction h with
  | nil => rfl
  | keep _ ih => rw [Mailboxes.visits, Mailboxes.visits, List.filter_append, List.filter_append, ih]
  | @read m r es es' hr hidle _ ih =>
    rw [visit_cases hr, take_of_idle hidle] at ih
    rw [Mailboxes.visits, visit_cases hr, take_of_idle hidle, List.filter_append, ih]
    have hquiet : ∀ shown, visit k (.request r) = some shown → shown = false := by
      intro shown hs
      cases r with
      | poll => simp [visit] at hr
      | status => simp_all [visit]
      | sharedFiles => simp_all [visit]
      | _ => simp [visit] at hs
    cases hv : visit k (.request r) with
    | none => rfl
    | some shown => simp [hquiet shown hv]

theorem polls_of_inserts (h : Inserts g m es es') (k : String) : m.polls k es' = m.polls k es := by
  rw [Mailboxes.polls, Mailboxes.polls, visits_of_inserts h]

theorem getElem?_receive (m : Mailboxes) (k g : String) (ms : List MeshMessage) :
    (m.receive k ms).boxes[g]? =
      if k = g then m.boxes[g]?.map (· ++ ms.filter wellFormed) else m.boxes[g]? := by
  rw [Mailboxes.receive]
  by_cases hk : k = g
  · subst hk
    cases hm : m.boxes[k]? <;> simp [hm]
  · cases hm : m.boxes[k]? <;> simp [hk, ExtTreeMap.getElem?_insert]

theorem getElem?_take (m : Mailboxes) (k g : String) :
    (m.take k).boxes[g]? = if k = g then m.boxes[g]?.map fun _ => [] else m.boxes[g]? := by
  rw [Mailboxes.take]
  by_cases hk : k = g
  · subst hk
    cases hm : m.boxes[k]? <;> simp [hm]
  · cases hm : m.boxes[k]? <;> simp [hk, ExtTreeMap.getElem?_insert]

theorem getElem?_start {box : List MeshMessage} (h : m.boxes[g]? = some box) (k : String) :
    (m.start k).boxes[g]? = some box := by
  rw [Mailboxes.start]
  split
  · exact h
  · next hk =>
    split
    · simp only [Bool.or_eq_true, not_or, Bool.not_eq_true] at hk
      have hne : k ≠ g := by
        rintro rfl
        have hin : m.boxes.contains k = true := by
          rw [ExtTreeMap.contains_eq_isSome_getElem?, h]
          rfl
        rw [hk.1.1.2] at hin
        cases hin
      simp [ExtTreeMap.getElem?_insert, hne, h]
    · exact h

/-- While a group is served, no message is lost or taken twice: a visit takes what waits, in order,
and nothing else is removed. -/
theorem step_conserves {box : List MeshMessage} (h : m.boxes[g]? = some box)
    (he : e ≠ .request (.leave g)) : ∃ box', (m.step e).boxes[g]? = some box' ∧
      ((visit g e).map fun _ => box).getD [] ++ box' = box ++ arrivals g e := by
  have htake : ∀ k shown, (visit g e = if k = g then some shown else none) →
      m.step e = m.take k → arrivals g e = [] → ∃ box', (m.step e).boxes[g]? = some box' ∧
        ((visit g e).map fun _ => box).getD [] ++ box' = box ++ arrivals g e := by
    intro k shown hv hstep harr
    rw [hstep, getElem?_take, hv, harr]
    by_cases hk : k = g
    · exact ⟨[], by simp [hk, h], by simp [hk]⟩
    · exact ⟨box, by simp [hk, h], by simp [hk]⟩
  cases e with
  | deliver k ms =>
    rw [Mailboxes.step, getElem?_receive]
    by_cases hk : k = g
    · exact ⟨box ++ ms.filter wellFormed, by simp [hk, h], by simp [visit, arrivals, hk]⟩
    · exact ⟨box, by simp [hk, h], by simp [visit, arrivals, hk]⟩
  | request r =>
    cases r with
    | poll k => exact htake k true rfl rfl rfl
    | status k => exact htake k false rfl rfl rfl
    | sharedFiles k offset limit => exact htake k false rfl rfl rfl
    | setRoster k => exact ⟨box, getElem?_start h k, (List.append_nil box).symm⟩
    | join k => exact ⟨box, getElem?_start h k, (List.append_nil box).symm⟩
    | leave k =>
      have hk : k ≠ g := fun hk => he (by rw [hk])
      exact ⟨box, by simp [Mailboxes.step, ExtTreeMap.getElem?_erase, hk, h],
        (List.append_nil box).symm⟩
    | _ => exact ⟨box, h, (List.append_nil box).symm⟩

/-- Over a run, what the visits take and what still waits is what waited and what arrived. -/
theorem run_conserves {box : List MeshMessage} (h : m.boxes[g]? = some box)
    (hes : ∀ e ∈ es, e ≠ .request (.leave g)) :
    ((m.visits g es).map (·.2)).flatten ++ (m.run es).waiting g = box ++ es.flatMap (arrivals g) := by
  induction es generalizing m box with
  | nil => simp [Mailboxes.visits, Mailboxes.run, Mailboxes.waiting, h]
  | cons e es ih =>
    obtain ⟨box', hbox', hstep⟩ := step_conserves h (hes e List.mem_cons_self)
    have hrest := ih hbox' fun e' he' => hes e' (List.mem_cons_of_mem e he')
    have hhead : ((((visit g e).map fun shown => (shown, m.waiting g)).toList).map (·.2)).flatten =
        ((visit g e).map fun _ => box).getD [] := by
      rw [Mailboxes.waiting, h, Option.getD_some]
      cases visit g e <;> simp
    calc (((m.visits g (e :: es)).map (·.2)).flatten ++ (m.run (e :: es)).waiting g)
      _ = ((visit g e).map fun _ => box).getD [] ++
          (((m.step e).visits g es).map (·.2)).flatten ++ ((m.step e).run es).waiting g := by
        rw [Mailboxes.visits, List.map_append, List.flatten_append, hhead]
        rfl
      _ = ((visit g e).map fun _ => box).getD [] ++ box' ++ es.flatMap (arrivals g) := by
        rw [List.append_assoc, hrest, List.append_assoc]
      _ = box ++ (e :: es).flatMap (arrivals g) := by
        rw [hstep, List.flatMap_cons, List.append_assoc]

end Machine

end CitrateCluster.Mailbox
