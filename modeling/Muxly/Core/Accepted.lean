/-
# Muxly.Core.Accepted -- what `validate` accepts

`validate` succeeds on a document exactly when the walk from the root visits every live node once and
each of them hangs where its parent says. `Accepted` keeps the order of that walk.

Nothing that is checked depends on more of a node than its links, so an accepted document can be
linked anew over the same order.
-/
import Muxly.Core.Valid
import Muxly.Tree.Walk

namespace Muxly.Core

open Muxly.Control Muxly.Tree

namespace Document

variable {d : Document}

/-! ## One node -/

/-- What `validate` asks of the links of a node. -/
structure Hangs (d : Document) (n : Node) : Prop where
  root : n.id = d.rootNodeId → n.parentId = none ∧ n.kind = .document
  parent : n.id ≠ d.rootNodeId →
    ∃ p m, n.parentId = some p ∧ d.lookup p = some m ∧ n.id ∈ m.children
  nodup : n.children.Nodup
  child : ∀ c ∈ n.children, ∃ m, d.lookup c = some m ∧ m.parentId = some n.id

theorem hangs_root {n : Node} (hroot : n.id = d.rootNodeId) : d.Hangs n ↔
    (n.parentId = none ∧ n.kind = .document) ∧ n.children.Nodup ∧
      ∀ c ∈ n.children, ∃ m, d.lookup c = some m ∧ m.parentId = some n.id :=
  ⟨fun h => ⟨h.root hroot, h.nodup, h.child⟩,
    fun h => ⟨fun _ => h.1, fun hne => absurd hroot hne, h.2.1, h.2.2⟩⟩

theorem hangs_other {n : Node} (hroot : n.id ≠ d.rootNodeId) : d.Hangs n ↔
    (∃ p m, n.parentId = some p ∧ d.lookup p = some m ∧ n.id ∈ m.children) ∧ n.children.Nodup ∧
      ∀ c ∈ n.children, ∃ m, d.lookup c = some m ∧ m.parentId = some n.id :=
  ⟨fun h => ⟨h.parent hroot, h.nodup, h.child⟩,
    fun h => ⟨fun heq => absurd heq hroot, fun _ => h.1, h.2.1, h.2.2⟩⟩

theorem validateChildren_eq_ok {n : Node} {childSeen children : List Nat} :
    d.validateChildren n childSeen children = .ok () ↔
      (∀ c ∈ children, c ∉ childSeen) ∧ children.Nodup ∧
        ∀ c ∈ children, ∃ m, d.lookup c = some m ∧ m.parentId = some n.id := by
  induction children generalizing childSeen with
  | nil => simp [validateChildren]
  | cons c children ih =>
      rw [validateChildren]
      by_cases hseen : c ∈ childSeen
      · simp only [if_pos hseen, throw_eq_error, error_bind, reduceCtorEq, false_iff]
        exact fun h => h.1 c (List.mem_cons_self ..) hseen
      · simp only [if_neg hseen, bind_eq_ok, nodeOr_eq_ok]
        constructor
        · rintro ⟨m, hm, hrest⟩
          split at hrest
          · cases hrest
          · rename_i hparent
            obtain ⟨hfresh, hnodup, hchild⟩ := ih.mp (by simpa [pure_eq_ok] using hrest)
            refine ⟨?_, List.nodup_cons.mpr ⟨?_, hnodup⟩, ?_⟩
            · intro y hy
              rcases List.mem_cons.mp hy with rfl | hy
              · exact hseen
              · exact fun hmem => hfresh y hy (List.mem_cons_of_mem _ hmem)
            · exact fun hmem => hfresh c hmem (List.mem_cons_self ..)
            · intro y hy
              rcases List.mem_cons.mp hy with rfl | hy
              · exact ⟨m, hm, not_not.mp hparent⟩
              · exact hchild y hy
        · rintro ⟨hfresh, hnodup, hchild⟩
          obtain ⟨m, hm, hparent⟩ := hchild c (List.mem_cons_self ..)
          refine ⟨m, hm, ?_⟩
          rw [if_neg (not_not.mpr hparent)]
          refine ih.mpr ⟨?_, (List.nodup_cons.mp hnodup).2,
            fun y hy => hchild y (List.mem_cons_of_mem _ hy)⟩
          intro y hy hmem
          rcases List.mem_cons.mp hmem with rfl | hmem
          · exact (List.nodup_cons.mp hnodup).1 hy
          · exact hfresh y (List.mem_cons_of_mem _ hy) hmem

theorem validateNode_eq_ok {n : Node} {s s' : ValidateState} :
    d.validateNode s n = .ok s' ↔
      n.id ∉ s.seen ∧ s.contentBytes + n.content.length < u64Limit ∧ d.Hangs n ∧
        s' = ⟨s.seen ++ [n.id], s.contentBytes + n.content.length⟩ := by
  have hdone : (do
      d.validateChildren n [] n.children
      return { seen := s.seen ++ [n.id], contentBytes := s.contentBytes + n.content.length } :
        Except Failure ValidateState) = .ok s' ↔
      (n.children.Nodup ∧ ∀ c ∈ n.children, ∃ m, d.lookup c = some m ∧ m.parentId = some n.id) ∧
        s' = ⟨s.seen ++ [n.id], s.contentBytes + n.content.length⟩ := by
    have hchildren := @validateChildren_eq_ok d n [] n.children
    simp only [List.not_mem_nil, not_false_eq_true, implies_true, true_and] at hchildren
    rw [bind_eq_ok, ← hchildren]
    constructor
    · rintro ⟨⟨⟩, hok, heq⟩
      exact ⟨hok, (Except.ok.inj heq).symm⟩
    · rintro ⟨hok, rfl⟩
      exact ⟨(), hok, rfl⟩
  rw [validateNode]
  by_cases hseen : n.id ∈ s.seen
  · simp [hseen, throw_eq_error]
  by_cases hlimit : u64Limit ≤ s.contentBytes + n.content.length
  · simp only [if_neg hseen, if_pos hlimit, throw_eq_error, error_bind, reduceCtorEq, false_iff]
    exact fun h => absurd h.2.1 (Nat.not_lt.mpr hlimit)
  have hlimit' := Nat.not_le.mp hlimit
  simp only [if_neg hseen, if_neg hlimit]
  simp only [hseen, hlimit', not_false_eq_true, true_and]
  by_cases hroot : n.id = d.rootNodeId
  · rw [if_pos hroot, hangs_root hroot]
    cases hparent : n.parentId with
    | some p => simp [throw_eq_error]
    | none =>
        by_cases hkind : n.kind = .document
        · simpa [hkind] using hdone
        · simp [hkind, throw_eq_error]
  · rw [if_neg hroot, hangs_other hroot]
    cases hparent : n.parentId with
    | none => simp [throw_eq_error]
    | some p =>
        simp only [bind_eq_ok, nodeOr_eq_ok] at hdone ⊢
        constructor
        · rintro ⟨m, hm, h⟩
          by_cases hmem : n.id ∈ m.children
          · rw [if_neg (not_not.mpr hmem), bind_eq_ok, hdone] at h
            exact ⟨⟨⟨p, m, rfl, hm, hmem⟩, h.1⟩, h.2⟩
          · rw [if_pos hmem] at h
            cases h
        · rintro ⟨⟨⟨_, m, hp, hm, hmem⟩, hrest⟩, heq⟩
          cases hp
          refine ⟨m, hm, ?_⟩
          rw [if_neg (not_not.mpr hmem), bind_eq_ok, hdone]
          exact ⟨hrest, heq⟩

/-! ## The whole document -/

/-- What `validate` asks of a document, with the order of the walk from the root. That a slot holds
the node of its number is not checked, for no function of a document breaks it. -/
structure Accepted (d : Document) (order : List Nat) : Prop where
  id_eq : ∀ {x n}, d.lookup x = some n → n.id = x
  walk : Walk d.childrenOf [d.rootNodeId] order
  nodup : order.Nodup
  live : ∀ {x}, x ∈ order ↔ ∃ n, d.lookup x = some n
  hangs : ∀ {x n}, d.lookup x = some n → d.Hangs n
  count : order.length = d.liveNodeCount
  bytes : (order.map d.contentLength).sum = d.contentBytes
  limit : d.contentBytes < u64Limit
  viewRoot : ∀ x, d.viewRootNodeId = some x → ∃ n, d.lookup x = some n
  elided : ∀ x ∈ d.elidedNodeIds, ∃ n, d.lookup x = some n

/-- The visitor of `validate`, over a list of ids. -/
theorem foldlM_validateNode {xs : List Nat} {s s' : ValidateState}
    (hid : ∀ {x n}, d.lookup x = some n → n.id = x) :
    xs.foldlM (fun s x => d.nodeOr x .unknownNode >>= d.validateNode s) s = .ok s' ↔
      (∀ x ∈ xs, ∃ n, d.lookup x = some n ∧ d.Hangs n) ∧ xs.Nodup ∧ (∀ x ∈ xs, x ∉ s.seen) ∧
        (xs ≠ [] → s.contentBytes + (xs.map d.contentLength).sum < u64Limit) ∧
        s' = ⟨s.seen ++ xs, s.contentBytes + (xs.map d.contentLength).sum⟩ := by
  induction xs generalizing s with
  | nil => simp [pure_eq_ok, eq_comm]
  | cons x xs ih =>
      rw [List.foldlM_cons]
      simp only [bind_eq_ok, nodeOr_eq_ok, validateNode_eq_ok, ih, List.map_cons, List.sum_cons]
      constructor
      · rintro ⟨_, ⟨n, hn, hfresh, hlimit, hhangs, rfl⟩, hlive, hnodup, hnew, hcap, rfl⟩
        have hlength : d.contentLength x = n.content.length := by
          rw [contentLength, hn]
          rfl
        rw [hid hn] at hfresh hnew ⊢
        simp only [List.mem_append, List.mem_singleton, not_or] at hnew
        refine ⟨?_, List.nodup_cons.mpr ⟨fun hx => (hnew x hx).2 rfl, hnodup⟩, ?_, fun _ => ?_, ?_⟩
        · intro y hy
          rcases List.mem_cons.mp hy with rfl | hy
          · exact ⟨n, hn, hhangs⟩
          · exact hlive y hy
        · intro y hy
          rcases List.mem_cons.mp hy with rfl | hy
          · exact hfresh
          · exact (hnew y hy).1
        · rw [hlength, ← Nat.add_assoc]
          cases xs with
          | nil => simpa using hlimit
          | cons y xs => exact hcap (List.cons_ne_nil _ _)
        · rw [hlength, List.append_assoc, Nat.add_assoc]
          rfl
      · rintro ⟨hlive, hnodup, hnew, hcap, rfl⟩
        obtain ⟨n, hn, hhangs⟩ := hlive x (List.mem_cons_self ..)
        have hlength : d.contentLength x = n.content.length := by
          rw [contentLength, hn]
          rfl
        have hcap' := hcap (List.cons_ne_nil _ _)
        rw [hlength] at hcap'
        refine ⟨_, ⟨n, hn, ?_, by omega, hhangs, rfl⟩, fun y hy => hlive y (List.mem_cons_of_mem _ hy),
          (List.nodup_cons.mp hnodup).2, ?_, fun _ => ?_, ?_⟩
        · rw [hid hn]
          exact hnew x (List.mem_cons_self ..)
        · intro y hy hmem
          rw [hid hn] at hmem
          rcases List.mem_append.mp hmem with hmem | hmem
          · exact hnew y (List.mem_cons_of_mem _ hy) hmem
          · cases List.mem_singleton.mp hmem
            exact (List.nodup_cons.mp hnodup).1 hy
        · simpa [Nat.add_assoc] using hcap'
        · rw [hlength, hid hn, List.append_assoc, Nat.add_assoc]
          rfl

/-! ## Walks -/

theorem mapError_self {α : Type} (x : Except Failure α) :
    x.mapError (fun failure => failure) = x := by
  cases x <;> rfl

/-- A walk that succeeds has an order. -/
theorem exists_walk {σ : Type} {visit : σ → Node → Except Failure σ} {s s' : σ}
    (h : d.walkPreorder visit s = .ok s') : ∃ xs, Walk d.childrenOf [d.rootNodeId] xs ∧
      xs.foldlM (fun s x => d.nodeOr x .unknownNode >>= visit s) s = .ok s' := by
  simp only [walkPreorder, walkPreorderWith, mapError_self, bind_eq_ok] at h
  obtain ⟨-, -, h⟩ := h
  refine Walk.of_stackLoop ?_ h
  intro x s pushed s' hx
  simp only [bind_eq_ok, nodeOr_eq_ok] at hx ⊢
  obtain ⟨n, hn, s₁, hs₁, heq⟩ := hx
  cases heq
  exact ⟨(childrenOf_eq hn).symm, n, hn, hs₁⟩

/-- There are no more live nodes than slots. -/
theorem length_le_slots {xs : List Nat} (hnodup : xs.Nodup)
    (hlive : ∀ x ∈ xs, ∃ n, d.lookup x = some n) : xs.length ≤ d.nodeSlots.length := by
  have hsub : xs ⊆ List.range' 1 d.nodeSlots.length := by
    intro x hx
    obtain ⟨n, hn⟩ := hlive x hx
    have hpos := lookup_pos hn
    have hle := lookup_le hn
    rw [List.mem_range'_1]
    omega
  simpa using (hnodup.subperm hsub).length_le

namespace Accepted

variable {order : List Nat}

theorem root_mem (h : Accepted d order) : d.rootNodeId ∈ order :=
  h.walk.subset (List.mem_cons_self ..)

/-- A walk over an accepted document is a fold over its order. -/
theorem walkPreorderWith_eq (h : Accepted d order) {ε σ : Type} (fail : Failure → ε)
    (visit : σ → Node → Except ε σ) (s : σ) : d.walkPreorderWith fail visit s =
      order.foldlM (fun s x => (d.nodeOr x .unknownNode).mapError fail >>= visit s) s := by
  obtain ⟨r, hr⟩ := h.live.mp h.root_mem
  have hlength := length_le_slots h.nodup fun x hx => h.live.mp hx
  have hfound : ∀ {x : Nat} {n : Node} {e : Err}, d.lookup x = some n →
      (d.nodeOr x e).mapError fail = .ok n := fun hx => by
    rw [nodeOr_of_lookup hx]
    rfl
  simp only [walkPreorderWith, hfound hr, ok_bind]
  refine h.walk.stackLoop_eq _ ?_ (by omega) s
  intro x hx s
  obtain ⟨n, hn⟩ := h.live.mp hx
  rw [hfound hn, ok_bind, ok_bind, childrenOf_eq hn]
  cases visit s n <;> rfl

theorem walkPreorder_eq (h : Accepted d order) {σ : Type} (visit : σ → Node → Except Failure σ)
    (s : σ) : d.walkPreorder visit s =
      order.foldlM (fun s x => d.nodeOr x .unknownNode >>= visit s) s := by
  rw [walkPreorder, h.walkPreorderWith_eq]
  simp only [mapError_self]

/-- `validate` accepts the document. -/
theorem validate_ok (h : Accepted d order) :
    d.validate = .ok { nodeCount := d.liveNodeCount, contentBytes := d.contentBytes } := by
  obtain ⟨r, hr⟩ := h.live.mp h.root_mem
  have hwalk : d.walkPreorder d.validateNode ⟨[], 0⟩ =
      .ok { seen := order, contentBytes := d.contentBytes } := by
    rw [h.walkPreorder_eq, foldlM_validateNode h.id_eq]
    refine ⟨fun x hx => ?_, h.nodup, by simp, fun _ => ?_, by simp [h.bytes]⟩
    · obtain ⟨n, hn⟩ := h.live.mp hx
      exact ⟨n, hn, h.hangs hn⟩
    · simpa [h.bytes] using h.limit
  have hslots : (d.nodeSlots.any fun slot => slot.any fun node =>
      decide (node.id ∉ order)) = false := by
    rw [List.any_eq_false]
    intro slot hslot
    cases slot with
    | none => simp
    | some node =>
        obtain ⟨i, hi, hget⟩ := List.mem_iff_getElem.mp hslot
        have hlook : d.lookup (i + 1) = some node := by
          rw [lookup_succ, List.getElem?_eq_getElem hi, hget]
          rfl
        have hmem := h.live.mpr ⟨node, hlook⟩
        rw [← h.id_eq hlook] at hmem
        simpa using hmem
  have helided : (d.elidedNodeIds.forM fun nodeId => do
      let _ ← d.nodeOr nodeId .unknownElidedNode) = (.ok () : Except Failure Unit) := by
    refine forM_ok fun x hx => ?_
    obtain ⟨n, hn⟩ := h.elided x hx
    rw [nodeOr_of_lookup hn]
    rfl
  rw [validate, nodeOr_of_lookup hr, ok_bind, hwalk, ok_bind]
  simp only [h.count, ne_eq, not_true_eq_false, if_false, hslots, Bool.false_eq_true]
  cases hview : d.viewRootNodeId with
  | none =>
      simp only [helided, ok_bind]
      rfl
  | some x =>
      obtain ⟨n, hn⟩ := h.viewRoot x hview
      simp only [nodeOr_of_lookup hn, helided, ok_bind]
      rfl

end Accepted

theorem forall_of_forM {f : Nat → Except Failure Unit} {xs : List Nat}
    (h : xs.forM f = .ok ()) : ∀ x ∈ xs, f x = .ok () := by
  induction xs with
  | nil => simp
  | cons x xs ih =>
      have h' : (f x >>= fun _ => xs.forM f) = .ok () := h
      obtain ⟨⟨⟩, hx, hrest⟩ := bind_eq_ok.mp h'
      intro y hy
      rcases List.mem_cons.mp hy with rfl | hy
      · exact hx
      · exact ih hrest y hy

/-- What `validate` accepts. -/
theorem exists_accepted {summary : ValidationSummary}
    (hid : ∀ {x n}, d.lookup x = some n → n.id = x) (h : d.validate = .ok summary) :
    ∃ order, Accepted d order := by
  simp only [validate, bind_eq_ok] at h
  obtain ⟨r, hr, visited, hwalk, h⟩ := h
  obtain ⟨order, hwalks, hfold⟩ := exists_walk hwalk
  obtain ⟨hnodes, hnodup, -, hlimit, rfl⟩ := (foldlM_validateNode hid).mp hfold
  simp only [List.nil_append, Nat.zero_add] at h hlimit
  split at h
  · cases h
  rename_i hcount
  split at h
  · cases h
  rename_i hslots
  split at h
  · cases h
  rename_i hbytes
  rw [not_not] at hcount hbytes
  have helided : (do
      d.elidedNodeIds.forM fun nodeId => do
        let _ ← d.nodeOr nodeId .unknownElidedNode
      return (⟨d.liveNodeCount, (order.map d.contentLength).sum⟩ : ValidationSummary) :
        Except Failure ValidationSummary) = .ok summary →
      ∀ x ∈ d.elidedNodeIds, ∃ n, d.lookup x = some n := by
    intro hforM x hx
    obtain ⟨⟨⟩, hforM, -⟩ := bind_eq_ok.mp hforM
    obtain ⟨n, hn, -⟩ := bind_eq_ok.mp (forall_of_forM hforM x hx)
    exact ⟨n, nodeOr_eq_ok.mp hn⟩
  have hlive : ∀ {x}, x ∈ order ↔ ∃ n, d.lookup x = some n := by
    intro x
    constructor
    · intro hx
      obtain ⟨n, hn, -⟩ := hnodes x hx
      exact ⟨n, hn⟩
    · rintro ⟨n, hn⟩
      cases x with
      | zero => cases hn
      | succ i =>
          have hslot : d.nodeSlots[i]? = some (some n) := Option.join_eq_some_iff.mp hn
          have hall := List.any_eq_false.mp (Bool.eq_false_iff.mpr hslots) _
            (List.mem_of_getElem? hslot)
          simpa [hid hn] using hall
  have hroot : d.rootNodeId ∈ order := hwalks.subset (List.mem_cons_self ..)
  refine ⟨order, hid, hwalks, hnodup, hlive, ?_, hcount, hbytes,
    hbytes ▸ hlimit (List.ne_nil_of_mem hroot), ?_, ?_⟩
  · intro x n hn
    obtain ⟨m, hm, hhangs⟩ := hnodes x (hlive.mpr ⟨n, hn⟩)
    rw [hn] at hm
    cases hm
    exact hhangs
  · intro x hview
    simp only [hview] at h
    obtain ⟨n, hn, -⟩ := bind_eq_ok.mp h
    exact ⟨n, nodeOr_eq_ok.mp hn⟩
  · cases hview : d.viewRootNodeId with
    | none =>
        simp only [hview] at h
        exact helided h
    | some x =>
        simp only [hview] at h
        obtain ⟨n, -, h⟩ := bind_eq_ok.mp h
        exact helided h

/-! ## Other links over the same order -/

/-- The document with other links. -/
def relinked (d : Document) (parent : Nat → Option Nat) (children : Nat → List Nat) : Document :=
  { d with
    nodeSlots := d.nodeSlots.map (Option.map fun n =>
      { n with parentId := parent n.id, children := children n.id }) }

variable {parent : Nat → Option Nat} {children : Nat → List Nat}

theorem lookup_relinked (x : Nat) : (d.relinked parent children).lookup x =
    (d.lookup x).map fun n => { n with parentId := parent n.id, children := children n.id } := by
  cases x with
  | zero => rfl
  | succ i =>
      rw [lookup_succ, lookup_succ, relinked, List.getElem?_map]
      rcases d.nodeSlots[i]? with _ | _ | n <;> rfl

/-- The document with other links is accepted, if the links make the same order. -/
theorem Accepted.relinked {order : List Nat} (h : Accepted d order)
    (hwalk : Walk children [d.rootNodeId] order) (hroot : parent d.rootNodeId = none)
    (hparent : ∀ x ∈ order, x ≠ d.rootNodeId → ∃ p ∈ order, parent x = some p ∧ x ∈ children p)
    (hchild : ∀ x ∈ order, ∀ c ∈ children x, parent c = some x)
    (hnodup : ∀ x ∈ order, (children x).Nodup) :
    Accepted (d.relinked parent children) order where
  id_eq := by
    intro x n hx
    rw [lookup_relinked] at hx
    obtain ⟨m, hm, rfl⟩ := Option.map_eq_some_iff.mp hx
    show m.id = x
    exact h.id_eq hm
  walk := by
    refine hwalk.congr fun x hx => ?_
    obtain ⟨n, hn⟩ := h.live.mp hx
    rw [childrenOf, lookup_relinked, hn, ← h.id_eq hn]
    rfl
  nodup := h.nodup
  live := by
    intro x
    rw [h.live, lookup_relinked]
    simp
  hangs := by
    intro x n hx
    rw [lookup_relinked] at hx
    obtain ⟨m, hm, rfl⟩ := Option.map_eq_some_iff.mp hx
    obtain rfl := h.id_eq hm
    have hmem : m.id ∈ order := h.live.mpr ⟨m, hm⟩
    refine ⟨fun heq => ⟨?_, ((h.hangs hm).root heq).2⟩, fun hne => ?_, hnodup _ hmem, ?_⟩
    · rw [show m.id = d.rootNodeId from heq, hroot]
    · obtain ⟨p, hp, hparent, hlinked⟩ := hparent m.id hmem hne
      obtain ⟨q, hq⟩ := h.live.mp hp
      obtain rfl := h.id_eq hq
      exact ⟨q.id, _, hparent, by rw [lookup_relinked, hq]; rfl, hlinked⟩
    · intro c hc
      obtain ⟨q, hq⟩ := h.live.mp (hwalk.next_subset hmem hc)
      obtain rfl := h.id_eq hq
      exact ⟨_, by rw [lookup_relinked, hq]; rfl, hchild m.id hmem q.id hc⟩
  count := h.count
  bytes := by
    rw [← show d.contentBytes = (d.relinked parent children).contentBytes from rfl, ← h.bytes]
    refine congrArg List.sum (List.map_congr_left fun x _ => ?_)
    rw [contentLength, contentLength, lookup_relinked]
    cases d.lookup x <;> rfl
  limit := h.limit
  viewRoot x hx := by
    obtain ⟨n, hn⟩ := h.viewRoot x hx
    exact ⟨_, by rw [lookup_relinked, hn]; rfl⟩
  elided x hx := by
    obtain ⟨n, hn⟩ := h.elided x hx
    exact ⟨_, by rw [lookup_relinked, hn]; rfl⟩

end Document

end Muxly.Core
