/-
# Muxly.Daemon.Commits -- the changes of a document and the guard they need

Most changes leave all links alone; they need no more than a guard that covers the node whose
content they write. A new child needs a guard for its parent, and a removal one for its subtree and
for the parent that loses a child.
-/
import Muxly.Daemon.Conduct

namespace Muxly.Daemon

open Muxly.Control Muxly.Core Muxly.Core.Document Muxly.Sync Muxly.Sync.Program Muxly.Tree

variable {R : Regime} {H : Set Mutex} {guard : RequestGuard} {topology : Document}
  {target : Option WriteTarget}

/-! ## Changes without links -/

/-- The links of a document stay, and its ids do not go back. -/
def Unlinked (d d' : Document) : Prop := SameLinks d d' ∧ d.nextNodeId ≤ d'.nextNodeId

theorem unlinked_progress : Action.Progress Unlinked where
  refl d := ⟨.refl d, le_refl _⟩
  trans h h' := ⟨h.1.trans h'.1, h.2.trans h'.2⟩

/-- A mutation that leaves all links alone. -/
abbrev Linkless {α : Type} (m : DocM α) : Prop := Action.Advances Shape Unlinked m

theorem sameLinks_modifyNode (d : Document) (x : Nat) {f : Node → Node} (hf : KeepsLinks f) :
    SameLinks d (d.modifyNode x f) := by
  intro y
  rw [lookup_modifyNode]
  split
  · cases d.lookup y with
    | none => rfl
    | some n => simp [linksOf, hf.kind, hf.parentId, hf.name, hf.children]
  · rfl

theorem linkless_withContent (x : Nat) {f : Node → Node} (hf : KeepsLinks f)
    (bytes : Document → Nat) :
    Linkless (modify fun d => d.withContent x f (bytes d) : DocM PUnit) := fun d hs =>
  ⟨hs.withContent hf x (bytes d), sameLinks_modifyNode d x hf, le_refl _⟩

theorem linkless_modifyNode (x : Nat) {f : Node → Node} (hf : KeepsLinks f) :
    Linkless (modify (·.modifyNode x f) : DocM PUnit) := fun d hs =>
  ⟨hs.modifyNode hf x, sameLinks_modifyNode d x hf, le_refl _⟩

theorem linkless_view {α : Type} (f : Document → Except Failure α) :
    Linkless (Action.view f : DocM α) := Action.advances_view unlinked_progress f

theorem linkless_setStableNodeContent (x : Nat) (content : Bytes) :
    Linkless (setStableNodeContent x content) := by
  refine (linkless_view _).bind unlinked_progress fun n => ?_
  exact (linkless_view _).bind unlinked_progress fun _ =>
    linkless_withContent x (keepsLinks_setContent content)
      fun d => d.contentBytes - n.content.length + content.length

theorem linkless_replaceStableNodeContent (x : Nat) (content : Bytes) :
    Linkless (replaceStableNodeContent x content) := by
  refine (linkless_view _).bind unlinked_progress fun n => ?_
  split
  · exact Action.advances_pure unlinked_progress false
  · exact (linkless_setStableNodeContent x content).bind unlinked_progress fun _ =>
      Action.advances_pure unlinked_progress true

theorem linkless_appendTextToStableNode (x : Nat) (chunk : Bytes) :
    Linkless (appendTextToStableNode x chunk) :=
  (linkless_view _).bind unlinked_progress fun _ =>
    (linkless_view _).bind unlinked_progress fun _ =>
      linkless_withContent x (keepsLinks_appendContent chunk) fun d => d.contentBytes + chunk.length

theorem linkless_updateKnownNode (x : Nat) {f : Node → Node} (hf : KeepsLinks f) :
    Linkless (updateKnownNode x f) :=
  (linkless_view _).bind unlinked_progress fun _ => linkless_modifyNode x hf

theorem linkless_freezeTtyNodeAsArtifact (x : Nat) (kind : TerminalArtifactKind)
    (sections : TerminalArtifactSections) : Linkless (freezeTtyNodeAsArtifact x kind sections) := by
  refine (linkless_view _).bind unlinked_progress fun node => ?_
  cases node.source with
  | tty tty =>
      exact linkless_modifyNode x
        ⟨fun _ => rfl, fun _ => rfl, fun _ => rfl, fun _ => rfl, fun _ => rfl⟩
  | none => exact Action.advances_throw unlinked_progress _
  | terminalArtifact artifact => exact Action.advances_throw unlinked_progress _
  | file file => exact Action.advances_throw unlinked_progress _

/-- A change of nothing but the view state or the lifecycle. -/
theorem linkless_modifyView {g : Document → Document}
    (hslots : ∀ d, (g d).nodeSlots = d.nodeSlots) (hroot : ∀ d, (g d).rootNodeId = d.rootNodeId)
    (hcount : ∀ d, (g d).liveNodeCount = d.liveNodeCount)
    (hnext : ∀ d, (g d).nextNodeId = d.nextNodeId) : Linkless (modify g : DocM PUnit) := by
  intro d hs
  have hlook : ∀ x, (g d).lookup x = d.lookup x := by
    intro x
    cases x with
    | zero => rfl
    | succ i => rw [lookup_succ, lookup_succ, hslots]
  refine ⟨⟨?_, (hroot d).trans hs.rootNodeId, ?_, ?_, ?_, ?_, ?_, ?_⟩,
    fun x => congrArg (Option.map linksOf) (hlook x), (hnext d).ge⟩
  · intro x n hx
    exact hs.id_eq ((hlook x).symm.trans hx)
  · obtain ⟨n, hn, hrest⟩ := hs.root
    exact ⟨n, (hlook 1).trans hn, hrest⟩
  · intro x n hx
    exact hs.parent ((hlook x).symm.trans hx)
  · intro p n c hp hc
    obtain ⟨m, hm, hmp⟩ := hs.child ((hlook p).symm.trans hp) hc
    exact ⟨m, (hlook c).trans hm, hmp⟩
  · intro p n hp
    exact hs.nodup ((hlook p).symm.trans hp)
  · show (g d).nodeSlots.length < (g d).nextNodeId
    rw [hslots, hnext]
    exact hs.fresh
  · show (g d).liveNodeCount = sumNodes (fun _ => 1) (g d)
    rw [hcount, sumNodes, hslots]
    exact hs.count

/-- A change of the view state after a check. -/
theorem linkless_checkedView (x : Nat) {g : Document → Document}
    (hslots : ∀ d, (g d).nodeSlots = d.nodeSlots) (hroot : ∀ d, (g d).rootNodeId = d.rootNodeId)
    (hcount : ∀ d, (g d).liveNodeCount = d.liveNodeCount)
    (hnext : ∀ d, (g d).nextNodeId = d.nextNodeId) :
    Linkless (do
      let _ ← Action.view fun d => d.nodeOr x .unknownNode
      modify g : DocM Unit) :=
  (linkless_view _).bind unlinked_progress fun _ => linkless_modifyView hslots hroot hcount hnext

/-- A mutation that changes no node but `x`. -/
def Local {α : Type} (x : Nat) (m : DocM α) : Prop :=
  ∀ d y, y ≠ x → (m d).2.lookup y = d.lookup y

theorem local_replaceStableNodeContent (x : Nat) (content : Bytes) :
    Local x (replaceStableNodeContent x content) := by
  intro d y hy
  cases hx : d.lookup x with
  | none =>
      simp only [replaceStableNodeContent, Action.bind_apply, Action.view_apply, deref, hx,
        Action.next_error]
  | some n =>
      simp only [replaceStableNodeContent, Action.bind_apply, Action.view_apply,
        deref_of_lookup hx, Action.next_ok]
      split
      · rfl
      · rw [Action.bind_apply, setContent_eq hx]
        split
        · show (d.withContent x _ _).lookup y = _
          rw [withContent]
          show (d.modifyNode x _).lookup y = _
          rw [lookup_modifyNode, if_neg hy]
        · rfl

theorem local_appendTextToStableNode (x : Nat) (chunk : Bytes) :
    Local x (appendTextToStableNode x chunk) := by
  intro d y hy
  cases hx : d.lookup x with
  | none =>
      simp only [appendTextToStableNode, Action.bind_apply, Action.view_apply]
      cases d.reserveAdditionalContentBytes chunk.length with
      | error e => rfl
      | ok _ => simp only [Action.next_ok, Action.bind_apply, Action.view_apply, deref, hx,
          Action.next_error]
  | some n =>
      rw [appendText_eq hx]
      split
      · show (d.modifyNode x _).lookup y = _
        rw [lookup_modifyNode, if_neg hy]
      · rfl

/-- A guard that owns the domain of `x` covers a change of `x` alone. -/
theorem Local.writesWithin {α : Type} {x : Nat} {m : DocM α} (hm : Local x m) {D : List Nat}
    {d : Document} (hcover : ∀ n, d.lookup x = some n → ∃ r ∈ D, Owns d x r) :
    WritesWithin D d (m d).2 := by
  intro y n hy
  by_cases hyx : y = x
  · subst hyx
    exact .inr (.inl (hcover n hy))
  · exact .inl ((hm d y hyx).trans hy)

/-! ## The commit of an append -/

theorem keys_commitAppend (p : Nat) (kind : NodeKind) (title : Bytes) (source : Source)
    (e : DocumentEntry) :
    (commitAppend p kind title source e).2.runtime.domainIds = e.runtime.domainIds := by
  unfold commitAppend
  rw [Action.bind_apply]
  rcases h : DocumentEntry.onDocument (Document.appendNode p kind title source) e with ⟨r, e'⟩
  have he' : e'.runtime = e.runtime := by
    have := congrArg (fun q => q.2.runtime) h
    exact this.symm
  cases r with
  | error failure =>
      show e'.runtime.domainIds = _
      rw [he']
  | ok x =>
      show e'.runtime.domainIds = _
      rw [he']

/-- All that the commit of an append can do. -/
theorem commitAppend_cases {e : DocumentEntry} (hs : Shape e.document) (p : Nat) (kind : NodeKind)
    (title : Bytes) (source : Source) :
    (∃ node, Attachable e.document p node ∧
      (commitAppend p kind title source e).2.document = e.document.bumped.attached p node ∧
      (commitAppend p kind title source e).2.runtime.topologyRevision
        = e.runtime.topologyRevision + 1) ∨
    (Unlinked e.document (commitAppend p kind title source e).2.document ∧
      Shape (commitAppend p kind title source e).2.document ∧
      (∀ x, (commitAppend p kind title source e).2.document.lookup x = e.document.lookup x) ∧
      (commitAppend p kind title source e).2.runtime.topologyRevision
        = e.runtime.topologyRevision) := by
  unfold commitAppend
  rw [Action.bind_apply, DocumentEntry.onDocument]
  rcases appendNode_cases hs p kind title source with
    ⟨-, hp, name, -, heq⟩ | ⟨-, -, heq⟩ | ⟨-, heq⟩
  · rw [heq]
    exact .inl ⟨_, attachable_prepared hp kind title source name, rfl, rfl⟩
  · rw [heq]
    exact .inr ⟨⟨fun _ => rfl, Nat.le_succ _⟩, hs.bumped, fun _ => rfl, rfl⟩
  · rw [heq]
    exact .inr ⟨unlinked_progress.refl _, hs, fun _ => rfl, rfl⟩

/-- Every node that was live before an append still is. -/
theorem live_commitAppend {e : DocumentEntry} (hs : Shape e.document) {p : Nat} (kind : NodeKind)
    (title : Bytes) (source : Source) {x : Nat} {n : Node} (hx : e.document.lookup x = some n) :
    ∃ n', (commitAppend p kind title source e).2.document.lookup x = some n' := by
  rcases commitAppend_cases hs p kind title source with ⟨node, ha, hdoc, -⟩ | ⟨-, -, hlook, -⟩
  · rw [hdoc, ha.lookup_bumped hs, hx]
    split
    · exact ⟨_, rfl⟩
    · split
      · exact ⟨_, rfl⟩
      · exact ⟨_, rfl⟩
  · exact ⟨n, (hlook x).trans hx⟩

/-- A new child under a guard for its parent. -/
theorem docEdit_commitAppend {e : DocumentEntry} {p : Nat} (kind : NodeKind) (title : Bytes)
    (source : Source) (hs : R.structured → Shape e.document) (hl : R.accounted → Linked e.document)
    (hregistry : Mutex.nodeRegistry ∈ H)
    (hguard : R.structured → guard.isExclusive = true ∨ (guard.isDynamic = true ∧ p ≠ 1 ∧
      (∀ m, e.document.lookup p = some m →
        containerChildDomainsEnabled m.kind enabledConcurrentContainerKinds = false) ∧
      ∃ r ∈ guard.domainIds, Owns topology p r))
    (htarget : R.structured → guard.isDynamic = true → ∀ x, target ≠ some (.remove x))
    (hcover : R.accounted → guard.isDynamic = true → ∀ n, e.document.lookup p = some n →
      ∃ r ∈ guard.domainIds, Owns e.document p r) :
    DocEdit R H guard topology target e (commitAppend p kind title source e).2 := by
  by_cases hR : R.structured
  swap
  · have hacc : ¬ R.accounted := fun h => hR (R.structured_of_accounted h)
    exact ⟨keys_commitAppend p kind title source e, fun h => absurd h hR, fun h => absurd h hacc,
      fun h => absurd h hR, fun h => absurd h hR, fun h => absurd h hR, fun h => absurd h hR,
      fun h => absurd h hR, fun h => absurd h hacc, fun h => absurd h hacc⟩
  have hs := hs hR
  rcases commitAppend_cases hs p kind title source with
    ⟨node, ha, hdoc, hrev⟩ | ⟨hsame, hs', hlook, hrev⟩
  · have hfresh := ha.fresh hs
    have hnode := ha.lookup_bumped hs
    have hlinks : ∀ y, ∀ c ∈ (e.document.bumped.attached p node).childrenOf y,
        c ∉ e.document.childrenOf y → y = p := by
      intro y c hc hnew
      obtain ⟨n', hn', hmem⟩ := mem_childrenOf.mp hc
      rw [hnode] at hn'
      split at hn'
      · cases hn'
        rw [ha.children] at hmem
        cases hmem
      · split at hn'
        · assumption
        · exact absurd (mem_childrenOf.mpr ⟨n', hn', hmem⟩) hnew
    refine ⟨keys_commitAppend p kind title source e, fun _ => ?_, fun hacc => ?_, fun _ => ?_,
      fun _ => ?_, fun _ heq => ?_, fun _ => .inr ⟨hregistry, (hguard hR).imp_right (·.1), ?_, ?_⟩,
      fun _ x hx hdyn => absurd hx (htarget hR hdyn x), fun hacc hdyn => ?_,
      fun _ _ _ _ _ _ hn => live_commitAppend hs kind title source hn⟩
    · rw [hdoc]
      exact ha.shape_attached hs
    · rw [hdoc]
      exact ha.linked_attached hs (hl hacc)
    · rw [hdoc]
      exact evolves_attached hs ha
    · omega
    · omega
    · intro y c hc hnew
      rw [hdoc] at hc ⊢
      obtain rfl := hlinks y c hc hnew
      refine (hguard hR).imp_right fun ⟨_, hp1, hplain, howns⟩ => ⟨hp1, ?_, howns⟩
      obtain ⟨m, hm⟩ := ha.live
      have hne : y ≠ node.id := by
        rintro rfl
        rw [hfresh] at hm
        cases hm
      rw [hasContainerKind, hnode, if_neg hne, if_pos rfl, hm]
      exact hplain m hm
    · intro _ x n hx hx'
      rw [hdoc, hnode] at hx'
      split at hx'
      · cases hx'
      · split at hx'
        · rw [hx] at hx'
          cases hx'
        · rw [hx] at hx'
          cases hx'
    · intro y n hy
      rw [hdoc, hnode]
      have hne : y ≠ node.id := by
        rintro rfl
        rw [hfresh] at hy
        cases hy
      rw [if_neg hne]
      split
      · rename_i hyp
        subst hyp
        exact .inr (.inl (hcover hacc hdyn n hy))
      · exact .inl hy
  · exact .of_sameLinks hl (keys_commitAppend p kind title source e) hrev
      (fun _ => ⟨hsame.1, hsame.2, hs'⟩) fun _ _ y n hy => .inl ((hlook y).trans hy)

/-! ## The commit of a removal -/

theorem keys_commitRemoval (p x : Nat) (postorder : List Nat) (total : Nat) (e : DocumentEntry) :
    (commitRemoval p x postorder total e).2.runtime.domainIds = e.runtime.domainIds := by
  have hdoc : ∀ {α : Type} (m : DocM α) (e : DocumentEntry),
      (DocumentEntry.onDocument m e).2.runtime = e.runtime := fun _ _ => rfl
  unfold commitRemoval
  rw [Action.bind_apply]
  rcases h : DocumentEntry.onDocument (Document.detachChildFromParent p x) e with ⟨r, e₁⟩
  have h₁ : e₁.runtime = e.runtime := by rw [← hdoc (Document.detachChildFromParent p x) e, h]
  cases r with
  | error failure => exact congrArg DocumentRuntime.domainIds h₁
  | ok _ =>
      rw [Action.next_ok, Action.bind_apply]
      rcases h' : DocumentEntry.onDocument (Document.removeDetachedPostorder postorder total) e₁
        with ⟨r', e₂⟩
      have h₂ : e₂.runtime = e₁.runtime := by
        rw [← hdoc (Document.removeDetachedPostorder postorder total) e₁, h']
      cases r' with
      | error failure => exact congrArg DocumentRuntime.domainIds (h₂.trans h₁)
      | ok _ =>
          rw [Action.next_ok, Action.modify_apply]
          show e₂.markTopologyChanged.runtime.domainIds = e.runtime.domainIds
          exact (congrArg DocumentRuntime.domainIds (h₂.trans h₁) :)

/-- All that the commit of a removal can do: nothing, when the parent has gone; detach the node only,
when it was measured larger than the document; or remove it. -/
theorem commitRemoval_cases {e : DocumentEntry} (hs : Shape e.document) {p x : Nat}
    {postorder : List Nat} (hr : Removable e.document p x postorder) (total : Nat) :
    commitRemoval p x postorder total e = (.error (missing p .unknownParent), e) ∨
    (total > e.document.contentBytes ∧ (∃ m, e.document.lookup p = some m) ∧
      commitRemoval p x postorder total e = (.error (.error .contentAccountingDrift),
        { e with document := e.document.detached p x })) ∨
    (total ≤ e.document.contentBytes ∧ commitRemoval p x postorder total e
      = (.ok (), { e with document := e.document.pruned p x postorder total }.markTopologyChanged)) := by
  have hdoc : ∀ {α : Type} {m : DocM α} {r : Except Failure α} {d : Document}
      {e : DocumentEntry}, m e.document = (r, d) →
      DocumentEntry.onDocument m e = (r, { e with document := d }) := by
    intro α m r d e h
    rw [DocumentEntry.onDocument, h]
  cases hp : e.document.lookup p with
  | none =>
      left
      unfold commitRemoval
      rw [Action.bind_apply, hdoc (detachChild_of_missing hp x)]
      rfl
  | some m =>
      have hrun := detach_remove_eq hp x hr.nodup hr.live hs.count total
      rw [Action.bind_apply, detachChild_eq hp, Action.next_ok] at hrun
      unfold commitRemoval
      rw [Action.bind_apply, hdoc (detachChild_eq hp x), Action.next_ok, Action.bind_apply]
      by_cases hdrift : total > e.document.contentBytes
      · rw [if_pos hdrift] at hrun
        rw [hdoc (e := { e with document := e.document.detached p x }) hrun]
        exact .inr (.inl ⟨hdrift, ⟨m, rfl⟩, rfl⟩)
      · rw [if_neg hdrift] at hrun
        rw [hdoc (e := { e with document := e.document.detached p x }) hrun]
        exact .inr (.inr ⟨Nat.le_of_not_lt hdrift, rfl⟩)

theorem noNewLinks_detached (d : Document) (p x : Nat) : NoNewLinks d (d.detached p x) := by
  intro y c hc
  obtain ⟨n', hn', hmem⟩ := mem_childrenOf.mp hc
  rw [lookup_detached] at hn'
  split at hn'
  · obtain ⟨n, hn, rfl⟩ := Option.map_eq_some_iff.mp hn'
    exact mem_childrenOf.mpr ⟨n, hn, Muxly.Data.subset_of_swapRemoveFirst hmem⟩
  · exact mem_childrenOf.mpr ⟨n', hn', hmem⟩

theorem noNewLinks_pruned {d : Document} {p x : Nat} {postorder : List Nat}
    (hr : Removable d p x postorder) (total : Nat) :
    NoNewLinks d (d.pruned p x postorder total) := by
  intro y c hc
  obtain ⟨n', hn', hmem⟩ := mem_childrenOf.mp hc
  rw [hr.lookup_pruned] at hn'
  split at hn'
  · cases hn'
  · obtain ⟨n, hn, rfl⟩ := Option.map_eq_some_iff.mp hn'
    exact mem_childrenOf.mpr ⟨n, hn, dropIf_subset n hmem⟩

/-- What the commit of a removal finds under its guard. -/
structure RemovalReady (R : Regime) (guard : RequestGuard) (d : Document) (p x : Nat)
    (postorder : List Nat) (total : Nat) : Prop where
  removable : Removable d p x postorder
  down : R.accounted → ∀ y ∈ postorder, ∀ c ∈ d.childrenOf y, c ∈ postorder
  bytes : R.accounted → total ≤ d.contentBytes
  nodes : R.accounted → guard.isDynamic = true → ∀ y ∈ postorder, ∃ r ∈ guard.domainIds, Owns d y r
  parent : R.accounted → guard.isDynamic = true → (p = d.rootNodeId ∨
    d.hasContainerKind enabledConcurrentContainerKinds p = true) ∨ ∃ r ∈ guard.domainIds, Owns d p r

/-- A removal under a guard for its subtree. -/
theorem docEdit_commitRemoval {e : DocumentEntry} {p x : Nat} {postorder : List Nat} {total : Nat}
    (hs : R.structured → Shape e.document) (hl : R.accounted → Linked e.document)
    (hregistry : Mutex.nodeRegistry ∈ H)
    (hguard : R.structured → guard.isExclusive = true ∨ guard.isDynamic = true)
    (htarget : R.accounted → guard.isDynamic = true → ∃ x, target = some (.remove x))
    (hready : R.structured → RemovalReady R guard e.document p x postorder total) :
    DocEdit R H guard topology target e (commitRemoval p x postorder total e).2 := by
  have hlive : R.accounted → guard.isDynamic = true → ∀ w, target = some w → w.Stays → ∀ n,
      e.document.lookup w.nodeId = some n →
      ∃ n', (commitRemoval p x postorder total e).2.document.lookup w.nodeId = some n' := by
    intro hacc hdyn w hw hstays
    obtain ⟨y, hy⟩ := htarget hacc hdyn
    rw [hw] at hy
    exact absurd (Option.some.inj hy) (hstays y)
  have hkeys := keys_commitRemoval p x postorder total e
  by_cases hR : R.structured
  swap
  · have hacc : ¬ R.accounted := fun h => hR (R.structured_of_accounted h)
    exact ⟨hkeys, fun h => absurd h hR, fun h => absurd h hacc,
      fun h => absurd h hR, fun h => absurd h hR, fun h => absurd h hR, fun h => absurd h hR,
      fun h => absurd h hR, fun h => absurd h hacc, hlive⟩
  have hs := hs hR
  have hready := hready hR
  have hr := hready.removable
  rcases commitRemoval_cases hs hr total with heq | ⟨hdrift, -, heq⟩ | ⟨-, heq⟩
  · rw [heq]
    exact .refl e (fun _ => hs) hl
  · -- The node is detached and stays: no accounted run gets here.
    rw [heq]
    have hacc : ¬ R.accounted := fun h => absurd (hready.bytes h) (not_le.mpr hdrift)
    have hlinks := noNewLinks_detached e.document p x
    refine ⟨rfl, fun _ => hs.detached p x, fun h => absurd h hacc, fun _ => evolves_detached _ p x,
      fun _ => le_refl _, fun _ _ => ⟨hlinks, fun h => absurd h hacc⟩,
      fun _ => .inr ⟨hregistry, hguard hR, fun y c hc hnew => absurd (hlinks y c hc) hnew,
        fun h => absurd h hacc⟩, fun _ _ _ _ => hlinks, fun h => absurd h hacc,
      fun h => absurd h hacc⟩
  · rw [heq] at hlive ⊢
    have hlinks := noNewLinks_pruned hr total
    refine ⟨rfl, fun _ => hr.shape_pruned hs total,
      fun hacc => hr.linked_pruned hs (hl hacc) (hready.down hacc) total,
      fun _ => evolves_pruned hr total, fun _ => Nat.le_succ _,
      fun _ h => absurd h (Nat.succ_ne_self _),
      fun _ => .inr ⟨hregistry, hguard hR, fun y c hc hnew => absurd (hlinks y c hc) hnew,
        fun hacc y n hy hy' => ?_⟩, fun _ _ _ _ => hlinks, fun hacc hdyn y n hy => ?_, hlive⟩
    · have hmem : y ∈ postorder := by
        by_contra hmem
        have hlook : (e.document.pruned p x postorder total).lookup y = none := hy'
        rw [hr.lookup_pruned, if_neg hmem, hy] at hlook
        cases hlook
      exact (hguard hR).imp_right fun hdyn => hready.nodes hacc hdyn y hmem
    · have hlook : (e.document.pruned p x postorder total).lookup y = _ := hr.lookup_pruned total y
      by_cases hmem : y ∈ postorder
      · exact .inr (.inl (hready.nodes hacc hdyn y hmem))
      · rw [if_neg hmem, hy] at hlook
        by_cases hyp : y = p
        · subst hyp
          rcases hready.parent hacc hdyn with hside | howns
          · exact .inr (.inr ⟨hside, x, hlook.trans (by simp)⟩)
          · exact .inr (.inl howns)
        · exact .inl (hlook.trans (by simp [hyp]))

end Muxly.Daemon
