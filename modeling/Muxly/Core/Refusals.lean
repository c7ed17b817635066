/-
# Muxly.Core.Refusals -- the reads of a valid document fail with errors only

A failure of a read is reported to the request, or it is a panic, which ends the daemon. On a valid
document a panic has one cause: an id that is 0. Every read whose ids are not 0 reports what it
does not find, its loops have fuel enough, and it follows no dangling id. A selector names the id 0
when one of its segments reads as the number 0.
-/
import Muxly.Control.Outcome
import Muxly.Core.Placement
import Muxly.Core.Topology

namespace Muxly.Core

open Muxly.Control Muxly.Tree

/-- A failure that the request is told about. -/
def Reported (failure : Failure) : Prop := ∃ e, failure = .error e

theorem reported_error (e : Err) : Reported (.error e) := ⟨e, rfl⟩

/-- A result, or a failure that the request is told about. -/
abbrev Reports {α : Type} (x : Except Failure α) : Prop := StopsWith Reported x

theorem reports_throw {α : Type} (e : Err) : Reports (throw (.error e) : Except Failure α) :=
  stopsWith_error (reported_error e)

/-- A read that is known to return. -/
theorem reports_of_ok {α : Type} {x : Except Failure α} {a : α} (h : x = .ok a) : Reports x :=
  h ▸ stopsWith_ok a

namespace Document

variable {d : Document}

/-! ## Lookups -/

theorem reported_missing {x : Nat} (hx : x ≠ 0) (e : Err) : Reported (missing x e) := by
  rw [missing, if_neg hx]
  exact reported_error e

theorem reports_findNode {x : Nat} (hx : x ≠ 0) : Reports (d.findNode x) :=
  reports_of_ok (findNode_of_ne_zero hx)

theorem reports_nodeOr {x : Nat} (hx : x ≠ 0) (e : Err) : Reports (d.nodeOr x e) := by
  intro failure h
  cases hn : d.lookup x with
  | some n =>
      rw [nodeOr_of_lookup hn] at h
      cases h
  | none =>
      rw [nodeOr_of_missing hn] at h
      cases h
      exact reported_missing hx e

/-- A lookup whose id is known to be live. -/
theorem reports_live {x : Nat} (hx : ∃ n, d.lookup x = some n) (e : Err) :
    Reports (d.nodeOr x e) := by
  obtain ⟨n, hn⟩ := hx
  exact reports_nodeOr (lookup_pos hn) e

/-! ## Climbs and descents -/

section Walks

variable (hv : Valid d)
include hv

theorem reports_domainRoot (enabled : ConcurrentContainerKinds) {x : Nat} (hx : x ≠ 0) :
    Reports (d.concurrentContainerDomainRoot x enabled) := by
  by_cases hroot : x = d.rootNodeId
  · rw [concurrentContainerDomainRoot, if_pos hroot]
    exact stopsWith_ok _
  · cases hn : d.lookup x with
    | some n =>
        -- Every live node but the root has a domain root, and the climb finds it.
        obtain ⟨r, hr⟩ := exists_domainRoot enabled hv.shape hv.linked hn
          (hv.shape.rootNodeId ▸ hroot)
        exact reports_of_ok (hr.eq hv.shape)
    | none =>
        rw [concurrentContainerDomainRoot, if_neg hroot, domainRootLoop, nodeOr_of_missing hn,
          error_bind]
        exact stopsWith_error (reported_missing hx _)

theorem reports_subtreeContains (enabled : ConcurrentContainerKinds) {x : Nat} (hx : x ≠ 0) :
    Reports (d.subtreeContainsEnabledContainerKinds x enabled) := by
  cases hn : d.lookup x with
  | some n => exact reports_of_ok (hv.shape.subtreeContains_eq hn enabled)
  | none =>
      rw [subtreeContainsEnabledContainerKinds, nodeOr_of_missing hn, error_bind]
      exact stopsWith_error (reported_missing hx _)

/-! ## Searches -/

omit hv in
/-- A search that stops at the first hit returns what is there. -/
theorem foldlM_first {α : Type} (hit : Nat → Bool) (answer : Nat → Option α) (xs : List Nat) :
    Early.conclude none (xs.foldlM (fun (_ : Unit) y =>
      if hit y then (.error (Early.found (answer y)) : Except (Early (Option α)) Unit)
      else .ok ()) ()) = .ok ((xs.find? hit).bind answer) := by
  induction xs with
  | nil => rfl
  | cons x rest ih =>
      rw [List.foldlM_cons, List.find?_cons]
      cases hit x with
      | true => rfl
      | false => exact ih

/-- The search by a backend id always ends, and finds live nodes only. -/
theorem findNodeByBackendId_live (backendId : Bytes) :
    ∃ found, d.findNodeByBackendId backendId = .ok found ∧
      ∀ n, found = some n → d.lookup n.id = some n := by
  obtain ⟨r, hr, -⟩ := hv.shape.root
  have hlist : [1].flatMap hv.shape.forest.preorder = hv.shape.forest.preorder 1 := by simp
  let hit : Nat → Bool := fun y => (d.lookup y).bind (·.backendId) == some backendId
  refine ⟨((hv.shape.forest.preorder 1).find? hit).bind d.lookup, ?_, ?_⟩
  · rw [← foldlM_first, ← hlist, findNodeByBackendId, hv.shape.rootNodeId]
    refine congrArg (Early.conclude none) (stackLoop_preorder hv.shape.forest
      (Early.failed Failure.outOfFuel) (f := fun _ y =>
        if hit y then .error (Early.found (d.lookup y)) else .ok ()) [1] ?_ ?_ ())
    · intro y hy s
      rw [hlist, Forest.mem_preorder] at hy
      obtain ⟨m, hm⟩ := hv.shape.live_of_below hr hy
      have hchildren : hv.shape.forest.children y = m.children := childrenOf_eq hm
      have hhit : hit y = decide (m.backendId = some backendId) := by
        show ((d.lookup y).bind _ == _) = _
        rw [hm, Option.bind_some, beq_eq_decide]
      rw [findNode_of_ne_zero (lookup_pos hm), hm, hchildren, hhit]
      by_cases hsame : m.backendId = some backendId
      · simp [Early.guard, hsame]
        rfl
      · simp [Early.guard, hsame]
        rfl
    · rw [hlist]
      exact Nat.le_succ_of_le (hv.shape.length_preorder_le hr)
  · intro n hn
    obtain ⟨y, -, hy⟩ := Option.bind_eq_some_iff.mp hn
    rw [hv.shape.id_eq hy]
    exact hy

/-! ## Selectors -/

/-- No segment of the selector reads as the number 0. -/
def SelectorInRange (text : Bytes) : Prop :=
  ∀ segment ∈ text.splitOn slash, parseDirectNodeReference segment ≠ some 0

instance (text : Bytes) : Decidable (SelectorInRange text) :=
  inferInstanceAs (Decidable (∀ segment ∈ text.splitOn slash, _))

theorem reports_resolveChild {p : Nat} (hp : ∃ n, d.lookup p = some n) (segment : Bytes) :
    Reports (d.resolveChildBySegment p segment) := by
  refine (reports_live hp _).bind fun parent hparent => ?_
  have hlook := nodeOr_eq_ok.mp hparent
  rw [filterM_ok (g := fun z => d.matchesAt z segment) (fun z hz => by
    obtain ⟨m, hm, -⟩ := hv.shape.child hlook hz
    rw [findNode_of_ne_zero (lookup_pos hm), hm, matchesAt, hm]
    rfl), ok_bind]
  split
  · exact reports_throw _
  · exact stopsWith_ok _
  · exact reports_throw _

/-- One segment: from a live node it leads to a live node, or is refused. -/
theorem resolveSegment_live {x : Nat} (hx : ∃ n, d.lookup x = some n) {segment : Bytes}
    (hrange : parseDirectNodeReference segment ≠ some 0) :
    Delivers Reported (d.resolveSegment x segment) fun y => ∃ n, d.lookup y = some n := by
  unfold resolveSegment
  by_cases hstay : segment = [] ∨ segment = ascii "."
  · rw [if_pos hstay]
    exact delivers_ok hx
  rw [if_neg hstay]
  by_cases hup : segment = ascii ".."
  · obtain ⟨n, hn⟩ := hx
    rw [if_pos hup]
    simp only [pure_eq_ok, ok_bind, nodeOr_of_lookup hn]
    cases hp : n.parentId with
    | none => exact delivers_error (reported_error _)
    | some p =>
        obtain ⟨m, hm, -⟩ := hv.linked hn hp
        exact delivers_ok ⟨m, hm⟩
  rw [if_neg hup]
  simp only [pure_eq_ok]
  cases hdirect : parseDirectNodeReference segment with
  | some directId =>
      have hpos : directId ≠ 0 := by
        rintro rfl
        exact hrange hdirect
      refine ⟨(reports_nodeOr hpos _).bind fun _ _ => stopsWith_ok _, ?_⟩
      intro y hy
      obtain ⟨n, hn, hy⟩ := bind_eq_ok.mp hy
      cases hy
      exact ⟨n, nodeOr_eq_ok.mp hn⟩
  | none =>
      refine ⟨reports_resolveChild hv hx segment, ?_⟩
      intro y hy
      obtain ⟨m, hm, -⟩ := hv.shape.parent_of_mem (resolveChildBySegment_matched hv.shape hy).child
      exact ⟨m, hm⟩

theorem live_rootNodeId : ∃ n, d.lookup d.rootNodeId = some n := by
  obtain ⟨r, hr, -⟩ := hv.shape.root
  rw [hv.shape.rootNodeId]
  exact ⟨r, hr⟩

/-- A selector in range is resolved to a live node, or is refused. -/
theorem resolveSelector_live {text : Bytes} (hrange : SelectorInRange text) :
    Delivers Reported (d.resolveSelector (some text)) fun x => ∃ n, d.lookup x = some n := by
  have hroot := live_rootNodeId hv
  unfold resolveSelector
  dsimp only
  split
  · exact delivers_ok hroot
  · exact delivers_foldlM hroot fun x hx segment hsegment =>
      resolveSegment_live hv hx (hrange segment hsegment)

/-! ## The layout -/

/-- Every child count fits the layout. -/
def Narrow (d : Document) : Prop := ∀ x n, d.lookup x = some n → n.children.length < u16Limit

omit hv in
instance (d : Document) : Decidable (Narrow d) :=
  decidable_of_iff (∀ slot ∈ d.nodeSlots, ∀ n ∈ slot, n.children.length < u16Limit) <| by
    constructor
    · intro h x n hn
      cases x with
      | zero => cases hn
      | succ i =>
          have hslot : d.nodeSlots[i]? = some (some n) := Option.join_eq_some_iff.mp hn
          exact h _ (List.mem_of_getElem? hslot) n rfl
    · intro h slot hslot n hn
      obtain ⟨i, hi, hget⟩ := List.mem_iff_getElem.mp hslot
      refine h (i + 1) n ?_
      show d.nodeSlots[i]?.join = some n
      rw [List.getElem?_eq_getElem hi, hget]
      exact hn

theorem reports_projection (hnarrow : Narrow d) {rootOverride : Option Nat}
    (hroot : ∀ x, rootOverride = some x → x ≠ 0) {request : ProjectionRequest}
    (hrows : request.rows < u16Limit) (hcols : request.cols < u16Limit) :
    Reports (writeProjectionForRoot d rootOverride request) := by
  refine StopsWith.bind ?_ fun _ _ => stopsWith_ok _
  generalize hx : (rootOverride.or d.viewRootNodeId).getD d.rootNodeId = x
  have hpos : x ≠ 0 := by
    subst hx
    cases hover : rootOverride with
    | some y => exact hroot y hover
    | none =>
        cases hview : d.viewRootNodeId with
        | some y =>
            obtain ⟨n, hn⟩ := hv.viewRoot y hview
            exact lookup_pos hn
        | none =>
            obtain ⟨n, hn⟩ := live_rootNodeId hv
            exact lookup_pos hn
  cases hn : d.lookup x with
  | some n =>
      obtain ⟨regions, hregions, -⟩ := writeProjectedNode_draws hv hnarrow request.localState
        (d.nodeSlots.length + 1) hn (by omega) (bounded_canvas hrows hcols)
      exact reports_of_ok hregions
  | none =>
      rw [writeProjectedNode, nodeOr_of_missing hn, error_bind]
      exact stopsWith_error (reported_missing hpos _)

end Walks

end Document

end Muxly.Core
