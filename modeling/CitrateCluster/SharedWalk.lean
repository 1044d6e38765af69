import CitrateCluster.Offboarding
import CitrateCluster.Paging
import CitrateCluster.StateWrites

namespace CitrateCluster.SharedWalk

open Std (ExtTreeMap ExtTreeSet)
open Text Roster Collections Device Registry Transport Session Daemon ClusterDaemon Ipc DaemonStep
  StateWrites
open Offboarding (sharedOf)

variable {T : Type} {V : LinkVerifier} {d d' : ClusterDaemon T} {g k : String}

/-- The shared set of a group grows by well-formed files, as far as the cap lets it. -/
abbrev SharedGrows (g : String) (d d' : ClusterDaemon T) : Prop :=
  Grows (isValidCid · = true) (sharedOf d g) (sharedOf d' g)

section Growth

variable [MeshTransport T]

/-- Nothing but `leave` takes a file from the shared set of a group. -/
theorem sharedGrows_step (d : ClusterDaemon T) {e : Event T} (he : e ≠ .request (.leave g)) :
    SharedGrows g d (step V d e) := by
  cases hk : eventGroup e with
  | none =>
    cases e with
    | factory => exact .refl
    | _ => cases hk
  | some k =>
    by_cases hkg : k = g
    · subst hkg
      exact (keeps_step d hk he).grows
    · rw [SharedGrows, sharedOf, sharedOf,
        (sameAt_writes (writes_step (V := V) d hk) (Ne.symm hkg)).sharedFiles]
      exact .refl

theorem sharedGrows_foldl {es : List (Event T)} (he : ∀ e ∈ es, e ≠ .request (.leave g))
    (d : ClusterDaemon T) : SharedGrows g d (es.foldl (step V) d) := by
  induction es generalizing d with
  | nil => exact .refl
  | cons e es ih =>
    exact (sharedGrows_step d (he e List.mem_cons_self)).trans
      (ih (fun e' he' => he e' (List.mem_cons_of_mem e he')) _)

/-- A page is cut from the shared set after the drain, and its total is the size of that set. -/
theorem handleRequest_sharedFiles (d : ClusterDaemon T) (g : String) (offset : Nat)
    (limit : Option Nat) :
    (handleRequest V d (.sharedFiles g offset limit)).1 =
      let set := sharedOf (handleRequest V d (.sharedFiles g offset limit)).2 g
      .sharedFiles ((set.toList.drop offset).take
        (min (limit.getD maxSharedFilesPage) maxSharedFilesPage)) offset set.size := by
  simp only [handleRequest, sharedFilesPage]
  split
  · next h => simp [sharedOf, h]
  · next set h => simp [sharedOf, h]

end Growth

section Walk

variable [MeshTransport T] (V : LinkVerifier) (g : String) (between : Nat → List (Event T))
  (limit : Nat → Option Nat) (d : ClusterDaemon T)

def filesOf : Response → List String
  | .sharedFiles files _ _ => files
  | _ => []

/-- The daemon before a page request of a client, and the offset of the request. The client asks for
the next page at the end of the last one, and other things may happen in between. -/
def walk : Nat → ClusterDaemon T × Nat
  | 0 => ((between 0).foldl (step V) d, 0)
  | k + 1 =>
    let (d, offset) := walk k
    let (response, d) := handleRequest V d (.sharedFiles g offset (limit k))
    ((between (k + 1)).foldl (step V) d, offset + (filesOf response).length)

/-- The answer to a page request, and the daemon after it. -/
def answer (k : Nat) : Response × ClusterDaemon T :=
  handleRequest V (walk V g between limit d k).1
    (.sharedFiles g (walk V g between limit d k).2 (limit k))

/-- The files of a page. -/
def page (k : Nat) : List String := filesOf (answer V g between limit d k).1

/-- The shared set that a page was cut from. -/
def pageSet (k : Nat) : ExtTreeSet String := sharedOf (answer V g between limit d k).2 g

/-- The client's pages are those of a walk through the shared set as it grows. -/
theorem isWalk : Paging.Walk (fun k => (pageSet V g between limit d k).toList)
    (fun k => min ((limit k).getD maxSharedFilesPage) maxSharedFilesPage)
    (fun k => (walk V g between limit d k).2) (page V g between limit d) where
  start := rfl
  cut k := by
    rw [page, answer, handleRequest_sharedFiles]
    rfl
  advance k := rfl

variable {V g between limit d}

theorem sharedGrows_answer (k : Nat) : Grows (isValidCid · = true)
    (sharedOf (walk V g between limit d k).1 g) (pageSet V g between limit d k) :=
  sharedGrows_step (e := .request (.sharedFiles g _ (limit k))) _ (by simp)

section Staying

variable (hstay : ∀ k, ∀ e ∈ between k, e ≠ .request (.leave g))
include hstay

theorem sharedGrows_start :
    Grows (isValidCid · = true) (sharedOf d g) (pageSet V g between limit d 0) :=
  (sharedGrows_foldl (hstay 0) d).trans (sharedGrows_answer 0)

theorem sharedGrows_next (k : Nat) : Grows (isValidCid · = true) (pageSet V g between limit d k)
    (pageSet V g between limit d (k + 1)) :=
  (sharedGrows_foldl (hstay (k + 1)) (answer V g between limit d k).2).trans
    (sharedGrows_answer (k + 1))

theorem sharedGrows_of_le {j k : Nat} (hjk : j ≤ k) : Grows (isValidCid · = true)
    (pageSet V g between limit d j) (pageSet V g between limit d k) := by
  induction k, hjk using Nat.le_induction with
  | base => exact .refl
  | succ k _ ih => exact ih.trans (sharedGrows_next hstay k)

theorem length_pageSet_le (k : Nat) : (pageSet V g between limit d k).toList.length ≤
    max (sharedOf d g).size maxSharedFiles := by
  rw [ExtTreeSet.length_toList]
  exact ((sharedGrows_start hstay).trans (sharedGrows_of_le hstay (Nat.zero_le k))).size_le_max

theorem pageSet_sublist (k : Nat) : (pageSet V g between limit d k).toList.Sublist
    (pageSet V g between limit d (k + 1)).toList :=
  sublist_toList fun _ => (sharedGrows_next hstay k).mono

/-- A set that is the same at both ends of a walk was the same all along. -/
theorem pageSet_eq {k n : Nat} (hk : k ≤ n)
    (hsame : pageSet V g between limit d n = pageSet V g between limit d 0) :
    pageSet V g between limit d k = pageSet V g between limit d 0 := by
  apply ExtTreeSet.ext_mem
  intro cid
  constructor
  · intro hm
    rw [← hsame]
    exact (sharedGrows_of_le hstay hk).mono hm
  · exact (sharedGrows_of_le hstay (Nat.zero_le k)).mono

/-- A client that walks through the shared files of a group, which it does not leave, comes to an end
and has then seen all that was shared when it began, whatever happens between its requests. If nothing
new arrived it has seen exactly the shared set, in order, and each total was the size of that set. -/
theorem walk_misses_nothing (hlimit : ∀ k l, limit k = some l → 1 ≤ l) :
    ∃ n, page V g between limit d n = [] ∧ (∀ k < n, page V g between limit d k ≠ []) ∧
      (∀ cid ∈ sharedOf d g, ∃ k < n, cid ∈ page V g between limit d k) ∧
      (pageSet V g between limit d n = pageSet V g between limit d 0 →
        (List.range n).flatMap (page V g between limit d) =
            (pageSet V g between limit d 0).toList ∧
          (pageSet V g between limit d 0).toList.Pairwise (· < ·) ∧
          ∀ k ≤ n, (answer V g between limit d k).1 = .sharedFiles (page V g between limit d k)
            (walk V g between limit d k).2 (pageSet V g between limit d 0).size) := by
  have hwalk := isWalk V g between limit d
  have hpos : ∀ k, 1 ≤ min ((limit k).getD maxSharedFilesPage) maxSharedFilesPage := by
    intro k
    apply le_min _ (by decide)
    cases hl : limit k with
    | none => exact Nat.le_of_ble_eq_true rfl
    | some l => exact hlimit k l hl
  obtain ⟨n, hn, hbefore⟩ := hwalk.ends (length_pageSet_le hstay)
  refine ⟨n, hn, hbefore, fun cid hm => ?_, fun hsame => ⟨?_, ?_, fun k hk => ?_⟩⟩
  · apply hwalk.complete (pageSet_sublist hstay) (hpos n) hn
    exact ExtTreeSet.mem_toList.mpr ((sharedGrows_start hstay).mono hm)
  · apply hwalk.flatMap_page _ (hpos n) hn
    intro k hk
    exact congrArg ExtTreeSet.toList (pageSet_eq hstay hk hsame)
  · exact ExtTreeSet.ordered_toList.imp compare_lt_iff_lt.mp
  · rw [← pageSet_eq hstay hk hsame, page, answer, handleRequest_sharedFiles]
    rfl

end Staying

/-- Two files are shared, and a third before the second page. -/
def sampleDaemon : ClusterDaemon InProcessTransport :=
  ([.request (.setRoster "group" [(m1, "member")] [] []),
    .request (.shareFile "group" (cidOf '2')), .request (.shareFile "group" (cidOf '3'))] :
      List (Event InProcessTransport)).foldl (step plainVerifier) Admission.nodeDaemon

def sampleArrivals (k : Nat) : List (Event InProcessTransport) :=
  if k = 1 then [.request (.shareFile "group" (cidOf '1'))] else []

theorem walk_misses_nothing_sample :
    ∃ n, page plainVerifier "group" sampleArrivals (fun _ => some 1) sampleDaemon n = [] ∧
      ∃ k < n, cidOf '3' ∈
        page plainVerifier "group" sampleArrivals (fun _ => some 1) sampleDaemon k := by
  have hstay : ∀ k, ∀ e ∈ sampleArrivals k, e ≠ .request (.leave "group") := by
    intro k e he
    rw [sampleArrivals] at he
    split at he
    · rw [List.mem_singleton.mp he]
      simp
    · cases he
  have hshared : (sharedOf sampleDaemon "group").contains (cidOf '3') = true := by decide +kernel
  obtain ⟨n, hn, _, hall, _⟩ := walk_misses_nothing (V := plainVerifier) (d := sampleDaemon) hstay
    (fun _ _ hl => Nat.le_of_eq (Option.some.inj hl))
  exact ⟨n, hn, hall _ (ExtTreeSet.contains_iff_mem.mp hshared)⟩

end Walk

end CitrateCluster.SharedWalk
