/-
# Muxly.Core.Resolution -- names as selectors

Runs of appends, title updates, renamings and removals on a new document. As long as every stored
name is sound and siblings have different names, joining the names on the way to a node gives a
selector of that node. Two calls can store a name that the resolver reads as an id: an append whose
slug `node` is already in use, and a renaming to a number with a sign.
-/
import Mathlib.Init
import Muxly.Core.Mutations
import Muxly.Core.Names
import Muxly.Core.Topology

namespace Muxly.Core

open Muxly.Control Muxly.Data Muxly.Tree

namespace Document

/-! ## The property -/

/-- The names on the way from the root to a live node, the node included. -/
inductive NamePath (d : Document) : Nat → List Bytes → Prop
  | root {r : Node} : d.lookup d.rootNodeId = some r → NamePath d d.rootNodeId []
  | child {x p : Nat} {n : Node} {name : Bytes} {names : List Bytes} : NamePath d p names →
      d.lookup x = some n → n.parentId = some p → n.name = some name →
      NamePath d x (names ++ [name])

/-- Names joined with `/`. -/
def joinNames (names : List Bytes) : Bytes := [slash].intercalate names

/-- Selectors made of names are complete. -/
structure SelectorsComplete (d : Document) : Prop where
  resolves : ∀ {x names}, NamePath d x names → d.resolveSelector (some (joinNames names)) = .ok x
  distinct : ∀ {p m c c' n n' name}, d.lookup p = some m → c ∈ m.children → c' ∈ m.children →
    d.lookup c = some n → d.lookup c' = some n' → n.name = some name → n'.name = some name → c = c'
  valid : ∀ {x n name}, d.lookup x = some n → n.name = some name → isValidNodeName name = true
  notDirect : ∀ {x n name}, d.lookup x = some n → n.name = some name →
    parseDirectNodeReference name = none

/-! ## The invariant -/

/-- The names of a document: sound, and different among siblings. -/
structure Named (d : Document) : Prop where
  bounded : ∀ {x n}, d.lookup x = some n → x < u64Limit
  sound : ∀ {x n name}, d.lookup x = some n → n.name = some name → SoundName name
  distinct : ∀ {p m c c' n n' name}, d.lookup p = some m → c ∈ m.children → c' ∈ m.children →
    d.lookup c = some n → d.lookup c' = some n' → n.name = some name → n'.name = some name → c = c'

/-- A document with fewer nodes and links, and the same names. -/
theorem Named.shrink {d d' : Document} (h : Named d)
    (hnodes : ∀ {y n'}, d'.lookup y = some n' → ∃ n, d.lookup y = some n ∧ n'.name = n.name ∧
      n'.children ⊆ n.children) : Named d' where
  bounded hx := by
    obtain ⟨n, hn, -⟩ := hnodes hx
    exact h.bounded hn
  sound hx hname := by
    obtain ⟨n, hn, heq, -⟩ := hnodes hx
    exact h.sound hn (heq ▸ hname)
  distinct hp hc hc' hn hn' hname hname' := by
    obtain ⟨m, hm, -, hsub⟩ := hnodes hp
    obtain ⟨k, hk, heq, -⟩ := hnodes hn
    obtain ⟨k', hk', heq', -⟩ := hnodes hn'
    exact h.distinct hm (hsub hc) (hsub hc') hk hk' (heq ▸ hname) (heq' ▸ hname')

/-! ## Resolving names -/

section Resolving

variable {d : Document} (hv : Valid d) (hn : Named d)
include hv hn

/-- Only the child with the name matches it. -/
theorem matched_of_name {x p : Nat} {n : Node} {name : Bytes} (hx : d.lookup x = some n)
    (hp : n.parentId = some p) (hname : n.name = some name) : Matched d p name x := by
  obtain ⟨m, hm, hmem⟩ := hv.linked hx hp
  have hsound := hn.sound hx hname
  refine ⟨mem_childrenOf.mpr ⟨m, hm, hmem⟩, ?_, fun z hz hseg => ?_⟩
  · rw [matchesAt, hx]
    simp [nodeMatchesSegment, hname]
  · rw [childrenOf_eq hm] at hz
    obtain ⟨k, hk, -⟩ := hv.shape.child hm hz
    rw [matchesAt, hk] at hseg
    simp only [Option.any_some, nodeMatchesSegment, Bool.or_eq_true, beq_iff_eq] at hseg
    have hid := hv.shape.id_eq hk
    have hlt := hn.bounded hk
    rcases hseg with (hseg | hseg) | hseg
    · exact hn.distinct hm hz hmem hk hx hseg hname
    · -- The id of a child as text is a direct reference, and the name is not.
      exact absurd (by rw [Direct, ← hseg, hid, direct_decimal hlt]; rfl) hsound.notDirect
    · exact absurd (by rw [Direct, ← hseg, hid, direct_nodePrefix hlt]; rfl) hsound.notDirect

theorem resolveSegment_name {x p : Nat} {n : Node} {name : Bytes} (hx : d.lookup x = some n)
    (hp : n.parentId = some p) (hname : n.name = some name) :
    d.resolveSegment p name = .ok x := by
  have hsound := hn.sound hx hname
  obtain ⟨hnil, hdot, hdots, -⟩ := isValidNodeName_iff.mp hsound.valid
  have hdirect : parseDirectNodeReference name = none := by
    cases hparse : parseDirectNodeReference name with
    | none => rfl
    | some y => exact absurd (by rw [Direct, hparse]; rfl) hsound.notDirect
  have hmatched := matched_of_name hv hn hx hp hname
  obtain ⟨m, hm, -⟩ := hv.linked hx hp
  have hfilter : m.children.filter (d.matchesAt · name) = [x] := by
    have hmem : ∀ z, z ∈ m.children.filter (d.matchesAt · name) ↔ z = x := by
      intro z
      rw [List.mem_filter, ← childrenOf_eq hm]
      constructor
      · rintro ⟨hz, hseg⟩
        exact hmatched.only z hz hseg
      · rintro rfl
        exact ⟨hmatched.child, hmatched.named⟩
    have hnodup := (hv.shape.nodup hm).filter (d.matchesAt · name)
    have hperm : (m.children.filter (d.matchesAt · name)).Perm [x] := by
      rw [List.perm_ext_iff_of_nodup hnodup (List.nodup_singleton x)]
      intro z
      rw [hmem z, List.mem_singleton]
    exact List.perm_singleton.mp hperm
  have hsegment : ¬ (name = [] ∨ name = ascii ".") := not_or.mpr ⟨hnil, hdot⟩
  simp only [resolveSegment, if_neg hsegment, if_neg hdots, hdirect, pure_eq_ok]
  rw [resolveChildBySegment, nodeOr_of_lookup hm, ok_bind,
    filterM_ok (g := fun z => d.matchesAt z name) (fun z hz => by
      obtain ⟨k, hk, -⟩ := hv.shape.child hm hz
      rw [findNode_of_ne_zero (lookup_pos hk), hk, matchesAt, hk]
      rfl), ok_bind, hfilter]
  rfl

/-- Walking along the names ends at the node. -/
theorem foldlM_names {x : Nat} {names : List Bytes} (h : NamePath d x names) :
    names.foldlM d.resolveSegment d.rootNodeId = .ok x := by
  induction h with
  | root => rfl
  | child _ hx hp hname ih =>
      rw [List.foldlM_append, ih, ok_bind]
      show (d.resolveSegment _ _ >>= _) = _
      rw [resolveSegment_name hv hn hx hp hname]
      rfl

omit hv in
/-- The names on a way are valid. -/
theorem NamePath.valid {x : Nat} {names : List Bytes} (h : NamePath d x names) :
    ∀ name ∈ names, isValidNodeName name = true := by
  induction h with
  | root => intro name hmem; cases hmem
  | child _ hx _ hname ih =>
      intro name hmem
      rcases List.mem_append.mp hmem with hmem | hmem
      · exact ih name hmem
      · rw [List.mem_singleton.mp hmem]
        exact (hn.sound hx hname).valid

omit hv hn in
/-- A valid name is not empty and has no `/`. -/
theorem valid_name_chars {name : Bytes} (h : isValidNodeName name = true) :
    name ≠ [] ∧ slash ∉ name := by
  obtain ⟨hnil, -, -, -, hbytes⟩ := isValidNodeName_iff.mp h
  refine ⟨hnil, fun hmem => ?_⟩
  exact absurd (hbytes slash hmem) (by decide)

theorem resolves_names {x : Nat} {names : List Bytes} (h : NamePath d x names) :
    d.resolveSelector (some (joinNames names)) = .ok x := by
  have hvalid := NamePath.valid hn h
  have hfold := foldlM_names hv hn h
  by_cases hnames : names = []
  · subst hnames
    rw [resolveSelector, if_pos (.inl rfl)]
    exact hfold
  · have hsplit : (joinNames names).splitOn slash = names :=
      List.splitOn_intercalate slash (fun name hmem => (valid_name_chars (hvalid name hmem)).2)
        hnames
    have htext : ¬ (joinNames names = [] ∨ joinNames names = [slash]) := by
      -- Both texts split into empty segments only.
      rintro (htext | htext)
      · rw [htext] at hsplit
        have hmem : ([] : Bytes) ∈ names := by rw [← hsplit]; simp
        exact (valid_name_chars (hvalid [] hmem)).1 rfl
      · rw [htext] at hsplit
        have hmem : ([] : Bytes) ∈ names := by rw [← hsplit]; decide
        exact (valid_name_chars (hvalid [] hmem)).1 rfl
    rw [resolveSelector, if_neg htext, hsplit]
    exact hfold

theorem selectorsComplete : SelectorsComplete d where
  resolves h := resolves_names hv hn h
  distinct := hn.distinct
  valid hx hname := (hn.sound hx hname).valid
  notDirect hx hname := by
    have hnot := (hn.sound hx hname).notDirect
    unfold Direct at hnot
    exact Option.not_isSome_iff_eq_none.mp hnot

end Resolving

/-! ## Names among siblings -/

/-- The names in use among the siblings of a node, without its own. -/
def siblingNames (d : Document) (x : Nat) : List Bytes :=
  match (d.lookup x).bind Node.parentId with
  | some p => ((d.childrenOf p).filter (· ≠ x)).filterMap fun c => (d.lookup c).bind Node.name
  | none => []

theorem siblingNameInUse_exempt {d : Document} (h : Shape d) {x : Nat} {n : Node}
    (hx : d.lookup x = some n) (name : Bytes) :
    ∃ used, d.siblingNameInUse n.parentId (some x) name = .ok used ∧
      (used = true ↔ name ∈ d.siblingNames x) := by
  cases hp : n.parentId with
  | none =>
      have hnone : d.siblingNames x = [] := by simp [siblingNames, hx, hp]
      exact ⟨false, rfl, by simp [hnone]⟩
  | some p =>
      have hpos : p ≠ 0 := by
        have hx1 : x ≠ 1 := by
          rintro rfl
          obtain ⟨r, hr, hnone, -⟩ := h.root
          rw [hx] at hr
          cases hr
          rw [hp] at hnone
          cases hnone
        obtain ⟨q, hq, hpos, -⟩ := h.parent hx hx1
        rw [hp] at hq
        cases hq
        omega
      have hsib : d.siblingNames x
          = ((d.childrenOf p).filter (· ≠ x)).filterMap fun c => (d.lookup c).bind Node.name := by
        simp [siblingNames, hx, hp]
      cases hlook : d.lookup p with
      | none =>
          refine ⟨false, ?_, ?_⟩
          · simp only [siblingNameInUse, findNode_of_ne_zero hpos, hlook, ok_bind, pure_eq_ok]
          · simp [hsib, childrenOf, hlook]
      | some m =>
          refine ⟨m.children.any fun c => decide (c ≠ x) &&
            ((d.lookup c).bind Node.name == some name), ?_, ?_⟩
          · simp only [siblingNameInUse, findNode_of_ne_zero hpos, hlook, ok_bind]
            refine anyM_ok fun c hc => ?_
            obtain ⟨k, hk, -⟩ := h.child hlook hc
            by_cases hcx : c = x
            · simp [hcx, pure_eq_ok]
            · have hxc : ¬ some x = some c := fun heq => hcx (Option.some.inj heq).symm
              simp [hcx, hxc, findNode_of_ne_zero (lookup_pos hk), hk, pure_eq_ok, ok_bind]
          · rw [hsib, childrenOf_eq hlook, List.any_eq_true, List.mem_filterMap]
            simp only [Bool.and_eq_true, decide_eq_true_eq, beq_iff_eq, List.mem_filter, and_assoc]

/-! ## Calls -/

/-- A call that may change which names there are. -/
inductive NameCall where
  | appendNode (parentId : Nat) (kind : NodeKind) (title : Bytes) (source : Source)
  | setNodeTitle (nodeId : Nat) (title : Bytes)
  | setNodeName (nodeId : Nat) (name : Option Bytes)
  | removeNode (nodeId : Nat)
  | removeSubtree (nodeId : Nat)

/-- The document after a call, whether it succeeds or fails. -/
def NameCall.after (d : Document) : NameCall → Document
  | .appendNode parentId kind title source => (Document.appendNode parentId kind title source d).2
  | .setNodeTitle nodeId title => (Document.setNodeTitle nodeId title d).2
  | .setNodeName nodeId name => (Document.setNodeName nodeId name d).2
  | .removeNode nodeId => (Document.removeNode nodeId d).2
  | .removeSubtree nodeId => (Document.removeSubtree nodeId d).2

/-- The call stores a name that the resolver reads as an id: a numbered form of `node`, or a valid
name that a caller sets. -/
def NameCall.StoresDirect (d : Document) : NameCall → Prop
  | .appendNode parentId _ title _ => d.nextNodeId + 1 < u64Limit ∧
    defaultNodeName title = some nodeWord ∧ nodeWord ∈ d.childNames parentId
  | .setNodeName nodeId (some name) => (d.lookup nodeId).isSome = true ∧
    name ∉ d.siblingNames nodeId ∧ isValidNodeName name = true ∧ Direct name
  | _ => False

/-- Every state of a run has a property. -/
def EachState (P : Document → Prop) (d : Document) : List NameCall → Prop
  | [] => P d
  | call :: rest => P d ∧ EachState P (call.after d) rest

/-- Every step of a run has a property, in the state before it. -/
def EachStep (Q : Document → NameCall → Prop) (d : Document) : List NameCall → Prop
  | [] => True
  | call :: rest => Q d call ∧ EachStep Q (call.after d) rest

/-! ## Each call keeps the names sound -/

/-- The invariant of a run. -/
structure NameState (d : Document) : Prop where
  named : Named d
  state : Valid d ∨ Hollow d

theorem NameState.complete {d : Document} (h : NameState d) : SelectorsComplete d := by
  rcases h.state with hv | hh
  · exact selectorsComplete hv h.named
  · refine ⟨fun hpath => ?_, h.named.distinct, fun hx => ?_, fun hx => ?_⟩
    · cases hpath with
      | root hr =>
          rw [hh.lookup] at hr
          cases hr
      | child _ hx =>
          rw [hh.lookup] at hx
          cases hx
    · rw [hh.lookup] at hx
      cases hx
    · rw [hh.lookup] at hx
      cases hx

theorem mem_childNames {d : Document} {p c : Nat} {m n : Node} {name : Bytes}
    (hp : d.lookup p = some m) (hc : c ∈ m.children) (hn : d.lookup c = some n)
    (hname : n.name = some name) : name ∈ d.childNames p := by
  rw [childNames, childrenOf_eq hp]
  exact List.mem_filterMap.mpr ⟨c, hc, by rw [hn]; exact hname⟩

/-- A new child with a sound name that no sibling has. -/
theorem Named.attached {d : Document} (hn : Named d) (hs : Shape d) {p : Nat} {node : Node}
    (ha : Attachable d p node) (hlt : d.nextNodeId < u64Limit)
    (hname : ∀ name, node.name = some name → SoundName name ∧ name ∉ d.childNames p) :
    Named (d.bumped.attached p node) := by
  have hlook := ha.lookup_bumped hs
  have hfresh := ha.fresh hs
  have hnew : (d.bumped.attached p node).lookup node.id = some node := by
    rw [hlook, if_pos rfl]
  have hold : ∀ {y n'}, y ≠ node.id → (d.bumped.attached p node).lookup y = some n' →
      ∃ n, d.lookup y = some n ∧ n'.name = n.name ∧
        n'.children = if y = p then n.children ++ [node.id] else n.children := by
    intro y n' hy hn'
    rw [hlook, if_neg hy] at hn'
    split at hn'
    · rename_i hyp
      obtain ⟨n, hn, rfl⟩ := Option.map_eq_some_iff.mp hn'
      exact ⟨n, hn, rfl, by rw [if_pos hyp]; rfl⟩
    · rename_i hyp
      exact ⟨n', hn', rfl, by rw [if_neg hyp]⟩
  refine ⟨fun {x n'} hx => ?_, fun {x n' name} hx hnm => ?_, ?_⟩
  · by_cases hxn : x = node.id
    · rw [hxn, ha.id_eq]
      exact hlt
    · obtain ⟨n, hn', -⟩ := hold hxn hx
      exact hn.bounded hn'
  · by_cases hxn : x = node.id
    · rw [hxn, hnew] at hx
      cases hx
      exact (hname name hnm).1
    · obtain ⟨n, hn', heq, -⟩ := hold hxn hx
      exact hn.sound hn' (heq ▸ hnm)
  · intro q m' c c' n n' name hq hc hc' hcn hcn' hnm hnm'
    have hqn : q ≠ node.id := by
      rintro rfl
      rw [hnew] at hq
      cases hq
      rw [ha.children] at hc
      cases hc
    obtain ⟨m, hm, -, hchildren⟩ := hold hqn hq
    -- An old child is a live node of the old document.
    have hlive : ∀ {y}, y ∈ m.children → y ≠ node.id := by
      rintro y hy rfl
      obtain ⟨k, hk, -⟩ := hs.child hm hy
      rw [hfresh] at hk
      cases hk
    -- The new child differs from every old child in its name.
    have hother : ∀ {y k}, q = p → y ∈ m.children → (d.bumped.attached p node).lookup y = some k →
        k.name = some name → node.name ≠ some name := by
      rintro y k rfl hy hk hkname hnode
      obtain ⟨k₀, hk₀, heq, -⟩ := hold (hlive hy) hk
      exact (hname name hnode).2 (mem_childNames hm hy hk₀ (heq ▸ hkname))
    have hmem : ∀ {y}, y ∈ m'.children → y ∈ m.children ∨ (q = p ∧ y = node.id) := by
      intro y hy
      rw [hchildren] at hy
      split at hy
      · rename_i hqp
        rcases List.mem_append.mp hy with hy | hy
        · exact .inl hy
        · exact .inr ⟨hqp, List.mem_singleton.mp hy⟩
      · exact .inl hy
    rcases hmem hc with hc | ⟨hqp, rfl⟩
    · rcases hmem hc' with hc' | ⟨hqp, rfl⟩
      · obtain ⟨k, hk, heq, -⟩ := hold (hlive hc) hcn
        obtain ⟨k', hk', heq', -⟩ := hold (hlive hc') hcn'
        exact hn.distinct hm hc hc' hk hk' (heq ▸ hnm) (heq' ▸ hnm')
      · rw [hnew] at hcn'
        cases hcn'
        exact absurd hnm' (hother hqp hc hcn hnm)
    · rcases hmem hc' with hc' | ⟨-, rfl⟩
      · rw [hnew] at hcn
        cases hcn
        exact absurd hnm (hother hqp hc' hcn' hnm')
      · rfl

theorem childNames_bumped (d : Document) (p : Nat) : d.bumped.childNames p = d.childNames p := rfl

/-- The document stores a name that the resolver reads as an id. -/
def HoldsDirect (d : Document) : Prop :=
  ∃ x n name, d.lookup x = some n ∧ n.name = some name ∧ Direct name

theorem not_complete_of_holdsDirect {d : Document} (h : HoldsDirect d) : ¬ SelectorsComplete d := by
  obtain ⟨x, n, name, hx, hname, hdirect⟩ := h
  intro hc
  rw [Direct, hc.notDirect hx hname] at hdirect
  cases hdirect

/-- An append stores a sound name, unless its slug is `node` and a sibling has that name. -/
theorem appendNode_named {d : Document} (hv : Valid d) (hn : Named d) (p : Nat) (kind : NodeKind)
    (title : Bytes) (source : Source) :
    (¬ NameCall.StoresDirect d (.appendNode p kind title source) →
      Named (Document.appendNode p kind title source d).2) ∧
    (NameCall.StoresDirect d (.appendNode p kind title source) →
      HoldsDirect (Document.appendNode p kind title source d).2) := by
  have hs := hv.shape
  rcases appendNode_cases hs p kind title source with
    ⟨hlt, ⟨m, hm⟩, name, hname, heq⟩ | ⟨-, hmissing, heq⟩ | ⟨hlt, heq⟩
  · rw [heq]
    have ha := attachable_prepared ⟨m, hm⟩ kind title source name
    have hspec := defaultChildName_spec hs.bumped (m := m) hm hname
    rw [childNames_bumped] at hspec
    constructor
    · intro hsafe
      refine hn.attached hs ha (by omega) fun free hfree => ?_
      rcases hspec with hnone | ⟨base, free', hbase, hsome, hunused, hform⟩
      · rw [hnone] at hfree
        cases hfree
      · rw [hsome] at hfree
        cases hfree
        obtain ⟨hsound, hnumbered⟩ := defaultNodeName_sound hbase
        refine ⟨?_, hunused⟩
        rcases hform with rfl | ⟨hused, k, -, rfl⟩
        · exact hsound
        · refine hnumbered (fun hword => ?_) k
          subst hword
          exact hsafe ⟨hlt, hbase, hused⟩
    · rintro ⟨-, hword, hused⟩
      rcases hspec with hnone | ⟨base, free, hbase, hsome, hunused, hform⟩
      · -- A title with a slug always names its node.
        unfold defaultChildName at hname
        rw [hword] at hname
        simp only [hs.bumped.siblingNameInUse_eq (n := m) hm, ok_bind] at hname
        rw [hnone] at hname
        split at hname
        · obtain ⟨_, -, hname⟩ := bind_eq_ok.mp hname
          cases hname
        · cases hname
      · rw [hword] at hbase
        cases hbase
        rcases hform with rfl | ⟨-, k, hk, rfl⟩
        · exact absurd hused hunused
        · have hfresh := hs.fresh
          have hslots : d.bumped.nodeSlots.length = d.nodeSlots.length := rfl
          refine ⟨_, _, _, by rw [ha.lookup_bumped hs, if_pos rfl], ?_,
            direct_nodeWord (k := k) (by omega)⟩
          rw [hsome]
          rfl
  · rw [heq]
    refine ⟨fun _ => hn.shrink fun hy => ⟨_, hy, rfl, List.Subset.refl _⟩, ?_⟩
    rintro ⟨-, -, hused⟩
    simp [childNames, childrenOf, hmissing] at hused
  · rw [heq]
    exact ⟨fun _ => hn, fun hstores => absurd hstores.1 hlt⟩

/-- What a renaming edits. -/
def renamed (d : Document) (x : Nat) (name : Option Bytes) : Document :=
  d.modifyNode x fun n => { n with name := name }

theorem lookup_renamed (d : Document) (x : Nat) (name : Option Bytes) (y : Nat) :
    (d.renamed x name).lookup y
      = (d.lookup y).map fun n => if y = x then { n with name := name } else n := by
  rw [renamed, lookup_modifyNode]
  split
  · rfl
  · exact Option.map_id'.symm

/-- Writing a whole node is the same as editing the node that is there. -/
theorem modifyNode_congr {d : Document} {x : Nat} {n : Node} (hx : d.lookup x = some n)
    {f g : Node → Node} (h : f n = g n) : d.modifyNode x f = d.modifyNode x g := by
  cases x with
  | zero => cases hx
  | succ i =>
      unfold modifyNode
      congr 1
      refine List.ext_getElem? fun j => ?_
      simp only [List.getElem?_modify]
      split
      · rename_i hij
        subst hij
        rw [lookup_succ] at hx
        cases hslot : d.nodeSlots[i]? with
        | none => rfl
        | some slot =>
            rw [hslot] at hx
            cases slot with
            | none => cases hx
            | some m =>
                cases hx
                simp [h]
      · rfl

/-- All that `setNodeName` can do. -/
theorem setNodeName_cases {d : Document} (hs : Shape d) (x : Nat) (name : Option Bytes) :
    ((d.lookup x).isSome = true ∧
      (∀ value, name = some value → value ∉ d.siblingNames x ∧ isValidNodeName value = true) ∧
      (setNodeName x name d).2 = d.renamed x name) ∨
    ((setNodeName x name d).2 = d ∧
      ¬ ((d.lookup x).isSome = true ∧
        ∀ value, name = some value → value ∉ d.siblingNames x ∧ isValidNodeName value = true)) := by
  cases hx : d.lookup x with
  | none =>
      right
      refine ⟨?_, fun h => absurd h.1 (by simp)⟩
      rw [setNodeName, Action.bind_apply, Action.view_apply, nodeOr_of_missing hx]
      rfl
  | some n =>
      have hrename : d.modifyNode x (fun _ => { n with name := name }) = d.renamed x name :=
        modifyNode_congr hx rfl
      rw [setNodeName, Action.bind_apply, Action.view_apply, nodeOr_of_lookup hx, Action.next_ok]
      cases name with
      | none => exact .inl ⟨rfl, fun value h => (by cases h), hrename⟩
      | some value =>
          obtain ⟨used, hrun, hused⟩ := siblingNameInUse_exempt hs hx value
          simp only [Action.bind_apply, Action.view_apply, hrun, Action.next_ok]
          cases used with
          | true =>
              right
              refine ⟨rfl, fun h => ?_⟩
              exact (h.2 value rfl).1 (hused.mp rfl)
          | false =>
              have hfree : value ∉ d.siblingNames x := fun h => Bool.false_ne_true (hused.mpr h)
              simp only [Bool.false_eq_true, if_false, Action.bind_apply, Action.lift_apply,
                Node.setName]
              by_cases hvalid : isValidNodeName value = true
              · left
                rw [if_pos hvalid]
                refine ⟨rfl, fun v hv => ?_, hrename⟩
                cases hv
                exact ⟨hfree, hvalid⟩
              · right
                rw [if_neg hvalid]
                exact ⟨rfl, fun h => hvalid (h.2 value rfl).2⟩

theorem keepsPlace_rename (name : Option Bytes) :
    KeepsPlace fun n : Node => { n with name := name } :=
  ⟨fun _ => rfl, fun _ => rfl, fun _ => rfl, fun _ => rfl⟩

/-- A renaming to a sound name that no sibling has. -/
theorem Named.renamed {d : Document} (hn : Named d) (hs : Shape d) {x : Nat} {name : Option Bytes}
    (hname : ∀ value, name = some value → SoundName value ∧ value ∉ d.siblingNames x) :
    Named (d.renamed x name) := by
  have hlook := lookup_renamed d x name
  have hold : ∀ {y n'}, (d.renamed x name).lookup y = some n' → ∃ n, d.lookup y = some n ∧
      n'.children = n.children ∧ n'.name = if y = x then name else n.name := by
    intro y n' hy
    rw [hlook] at hy
    obtain ⟨n, hn, rfl⟩ := Option.map_eq_some_iff.mp hy
    refine ⟨n, hn, ?_, ?_⟩
    · split <;> rfl
    · split <;> rfl
  -- A sibling that keeps its name does not have the new one.
  have hother : ∀ {q m c n value}, d.lookup q = some m → x ∈ m.children → c ∈ m.children →
      c ≠ x → d.lookup c = some n → n.name = some value → name ≠ some value := by
    intro q m c n value hq hxm hc hcx hcn hcname hvalue
    obtain ⟨k, hk, hkp⟩ := hs.child hq hxm
    apply (hname value hvalue).2
    simp only [siblingNames, hk, Option.bind_some, hkp, childrenOf_eq hq]
    exact List.mem_filterMap.mpr ⟨c, List.mem_filter.mpr ⟨hc, by simpa using hcx⟩, by
      rw [hcn]
      exact hcname⟩
  refine ⟨fun {y n'} hy => ?_, fun {y n' value} hy hvalue => ?_, ?_⟩
  · obtain ⟨n, hn', -⟩ := hold hy
    exact hn.bounded hn'
  · obtain ⟨n, hn', -, heq⟩ := hold hy
    rw [heq] at hvalue
    split at hvalue
    · exact (hname value hvalue).1
    · exact hn.sound hn' hvalue
  · intro q m' c c' n n' value hq hc hc' hcn hcn' hvalue hvalue'
    obtain ⟨m, hm, hchildren, -⟩ := hold hq
    obtain ⟨k, hk, -, heq⟩ := hold hcn
    obtain ⟨k', hk', -, heq'⟩ := hold hcn'
    rw [hchildren] at hc hc'
    rw [heq] at hvalue
    rw [heq'] at hvalue'
    by_cases hcx : c = x
    · by_cases hcx' : c' = x
      · rw [hcx, hcx']
      · subst hcx
        rw [if_pos rfl] at hvalue
        rw [if_neg hcx'] at hvalue'
        exact absurd hvalue (hother hm hc hc' hcx' hk' hvalue')
    · rw [if_neg hcx] at hvalue
      by_cases hcx' : c' = x
      · subst hcx'
        rw [if_pos rfl] at hvalue'
        exact absurd hvalue' (hother hm hc' hc hcx hk hvalue)
      · rw [if_neg hcx'] at hvalue'
        exact hn.distinct hm hc hc' hk hk' hvalue hvalue'

theorem valid_renamed {d : Document} (hv : Valid d) (x : Nat) (name : Option Bytes) :
    Valid (d.renamed x name) := hv.modifyPlaced (keepsPlace_rename name) (fun _ => rfl) x

theorem Hollow.named {d : Document} (hh : Hollow d) : Named d := by
  have hdead : ∀ {x n}, d.lookup x ≠ some n := by
    intro x n
    rw [hh.lookup]
    exact fun h => by cases h
  exact ⟨fun hx => absurd hx hdead, fun hx => absurd hx hdead, fun hx => absurd hx hdead⟩

theorem Named.pruned {d : Document} (hn : Named d) {p x : Nat} {postorder : List Nat}
    (hr : Removable d p x postorder) (total : Nat) : Named (d.pruned p x postorder total) := by
  refine hn.shrink fun {y n'} hy => ?_
  rw [hr.lookup_pruned] at hy
  split at hy
  · cases hy
  · obtain ⟨n, hn, rfl⟩ := Option.map_eq_some_iff.mp hy
    refine ⟨n, hn, ?_, dropIf_subset n⟩
    split <;> rfl

theorem setNodeTitle_named {d : Document} (hn : Named d) (x : Nat) (title : Bytes) :
    Named (Document.setNodeTitle x title d).2 := by
  rw [Document.setNodeTitle]
  cases hx : d.lookup x with
  | none =>
      rw [updateKnownNode_of_missing hx]
      exact hn
  | some n =>
      rw [updateKnownNode_of_lookup hx]
      refine hn.shrink fun {y n'} hy => ?_
      rw [lookup_modifyNode] at hy
      split at hy
      · obtain ⟨k, hk, rfl⟩ := Option.map_eq_some_iff.mp hy
        exact ⟨k, hk, rfl, List.Subset.refl _⟩
      · exact ⟨n', hy, rfl, List.Subset.refl _⟩

theorem removeNode_named {d : Document} (hv : Valid d) (hn : Named d) (x : Nat) :
    Named (Document.removeNode x d).2 := by
  by_cases hx1 : x = 1
  · subst hx1
    rcases removeNode_root hv with hh | heq
    · exact hh.named
    · rw [heq]
      exact hn
  · rcases removeNode_cases hv hx1 with ⟨n, p, hx, hleaf, hp, heq⟩ | ⟨f, heq⟩
    · have hpost : [x].Perm (hv.shape.forest.postorder x) := by
        rw [hv.shape.postorder_leaf hx hleaf]
      obtain ⟨hr, -⟩ := hv.removal hx hp hpost
      rw [heq]
      exact hn.pruned hr _
    · rw [heq]
      exact hn

theorem removeSubtree_named {d : Document} (hv : Valid d) (hn : Named d) (x : Nat) :
    Named (Document.removeSubtree x d).2 := by
  rcases removeSubtree_cases hv x with ⟨n, p, hx, hp, heq⟩ | ⟨f, heq⟩
  · obtain ⟨hr, -⟩ := hv.removal hx hp (List.Perm.refl _)
    rw [heq]
    exact hn.pruned hr _
  · rw [heq]
    exact hn

/-- A renaming stores a sound name, unless the name is read as an id. -/
theorem setNodeName_named {d : Document} (hv : Valid d) (hn : Named d) (x : Nat)
    (name : Option Bytes) :
    Valid (Document.setNodeName x name d).2 ∧
    (¬ NameCall.StoresDirect d (.setNodeName x name) → Named (Document.setNodeName x name d).2) ∧
    (NameCall.StoresDirect d (.setNodeName x name) →
      HoldsDirect (Document.setNodeName x name d).2) := by
  rcases setNodeName_cases hv.shape x name with ⟨hlive, hcheck, heq⟩ | ⟨heq, hfail⟩
  · rw [heq]
    refine ⟨valid_renamed hv x name, fun hsafe => hn.renamed hv.shape fun value hvalue => ?_, ?_⟩
    · obtain ⟨hfree, hvalid⟩ := hcheck value hvalue
      refine ⟨⟨hvalid, fun hdirect => hsafe ?_⟩, hfree⟩
      rw [hvalue]
      exact ⟨hlive, hfree, hvalid, hdirect⟩
    · intro hstores
      cases name with
      | none => exact hstores.elim
      | some value =>
          obtain ⟨n, hx⟩ := Option.isSome_iff_exists.mp hlive
          exact ⟨x, _, value, by rw [lookup_renamed, hx, Option.map_some, if_pos rfl], rfl,
            hstores.2.2.2⟩
  · rw [heq]
    refine ⟨hv, fun _ => hn, fun hstores => ?_⟩
    cases name with
    | none => exact hstores.elim
    | some value =>
        refine absurd ⟨hstores.1, fun v hv => ?_⟩ hfail
        cases hv
        exact ⟨hstores.2.1, hstores.2.2.1⟩

/-- A call either keeps the invariant, or stores a name that is read as an id. -/
theorem NameState.step {d : Document} (h : NameState d) (call : NameCall) :
    (¬ call.StoresDirect d → NameState (call.after d)) ∧
    (call.StoresDirect d → HoldsDirect (call.after d)) := by
  rcases h.state with hv | hh
  · cases call with
    | appendNode p kind title source =>
        obtain ⟨hsafe, hbad⟩ := appendNode_named hv h.named p kind title source
        exact ⟨fun hs => ⟨hsafe hs, .inl (appendNode_sound p kind title source d hv).1⟩, hbad⟩
    | setNodeTitle x title =>
        exact ⟨fun _ => ⟨setNodeTitle_named h.named x title,
          .inl (setNodeTitle_sound x title d hv).1⟩, fun hf => hf.elim⟩
    | setNodeName x name =>
        obtain ⟨hvalid, hsafe, hbad⟩ := setNodeName_named hv h.named x name
        exact ⟨fun hs => ⟨hsafe hs, .inl hvalid⟩, hbad⟩
    | removeNode x =>
        exact ⟨fun _ => ⟨removeNode_named hv h.named x, hv.removeNode_state x⟩,
          fun hf => hf.elim⟩
    | removeSubtree x =>
        exact ⟨fun _ => ⟨removeSubtree_named hv h.named x, .inl (removeSubtree_sound x d hv).1⟩,
          fun hf => hf.elim⟩
  · -- Without nodes every call fails.
    have hsame : ∀ {d' : Document}, Hollow d' → NameState d' := fun hh => ⟨hh.named, .inr hh⟩
    cases call with
    | appendNode p kind title source =>
        refine ⟨fun _ => hsame (hh.appendNode p kind title source), fun hstores => ?_⟩
        have hused := hstores.2.2
        simp [childNames, hh.lookup] at hused
    | setNodeTitle x title =>
        refine ⟨fun _ => ?_, fun hf => hf.elim⟩
        show NameState (Document.updateKnownNode x _ d).2
        rw [updateKnownNode_of_missing (hh.lookup x)]
        exact h
    | setNodeName x name =>
        refine ⟨fun _ => ?_, fun hstores => ?_⟩
        · show NameState (Document.setNodeName x name d).2
          rw [setNodeName, Action.bind_apply, Action.view_apply, nodeOr_of_missing (hh.lookup x)]
          exact h
        · cases name with
          | none => exact hstores.elim
          | some value =>
              have hlive := hstores.1
              rw [hh.lookup] at hlive
              cases hlive
    | removeNode x =>
        refine ⟨fun _ => ?_, fun hf => hf.elim⟩
        show NameState (Document.removeNode x d).2
        rw [hh.removeNode]
        exact h
    | removeSubtree x =>
        refine ⟨fun _ => ?_, fun hf => hf.elim⟩
        show NameState (Document.removeSubtree x d).2
        rw [hh.removeSubtree]
        exact h

/-! ## Runs -/

theorem nameState_init (id : Nat) (title : Bytes) : NameState (init id title) := by
  have honly : ∀ {x n}, (init id title).lookup x = some n → x = 1 ∧
      n.name = defaultNodeName title ∧ n.children = [] := by
    intro x n hx
    rcases x with _ | _ | x
    · cases hx
    · cases hx
      exact ⟨rfl, rfl, rfl⟩
    · cases hx
  refine ⟨⟨fun hx => ?_, fun hx hname => ?_, fun hp hc => ?_⟩, .inl (valid_init id title)⟩
  · rw [(honly hx).1]
    decide
  · rw [(honly hx).2.1] at hname
    exact (defaultNodeName_sound hname).1
  · rw [(honly hp).2.2] at hc
    cases hc

/-- A run from a state with the invariant. -/
theorem NameState.run {d : Document} (h : NameState d) (calls : List NameCall) :
    EachState SelectorsComplete d calls ↔
      EachStep (fun d call => ¬ call.StoresDirect d) d calls := by
  induction calls generalizing d with
  | nil => exact iff_of_true h.complete trivial
  | cons call rest ih =>
      obtain ⟨hsafe, hbad⟩ := h.step call
      constructor
      · rintro ⟨-, hrest⟩
        have hstate : SelectorsComplete (call.after d) := by
          cases rest with
          | nil => exact hrest
          | cons next rest => exact hrest.1
        have hnot : ¬ call.StoresDirect d := fun hstores =>
          not_complete_of_holdsDirect (hbad hstores) hstate
        exact ⟨hnot, (ih (hsafe hnot)).mp hrest⟩
      · rintro ⟨hnot, hrest⟩
        exact ⟨h.complete, (ih (hsafe hnot)).mpr hrest⟩

/-- Selectors made of names are complete in every state of a run exactly when no call of the run
stores a name that the resolver reads as an id. -/
theorem selectorsComplete_iff (id : Nat) (title : Bytes) (calls : List NameCall) :
    EachState SelectorsComplete (init id title) calls ↔
      EachStep (fun d call => ¬ call.StoresDirect d) (init id title) calls :=
  (nameState_init id title).run calls

/-- Two nodes with the title `node`: the second is named `node-2`, which resolves to the first. -/
theorem selector_of_second_node :
    let d := [NameCall.appendNode 1 .textLeaf (ascii "node") .none,
      .appendNode 1 .textLeaf (ascii "node") .none].foldl NameCall.after (init 1 (ascii "demo"))
    NamePath d 3 [ascii "node-2"] ∧ d.resolveSelector (some (joinNames [ascii "node-2"])) = .ok 2 := by
  intro d
  have hroot : d.lookup 1 = some _ := rfl
  exact ⟨.child (.root hroot) rfl rfl rfl, by decide +kernel⟩

end Document

end Muxly.Core
