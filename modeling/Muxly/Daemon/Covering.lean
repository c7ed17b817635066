/-
# Muxly.Daemon.Covering -- what a planned guard covers until it is released

From grant to release, every node that the request writes has its domain root among the domains that
its guard holds, and the handler resolves the node that the planner resolved. A removal that finds
more bytes than the document counts detaches its node and leaves it live; in runs without such a
removal this holds throughout.
-/
import Muxly.Daemon.Exclusion

namespace Muxly.Daemon

open Muxly.Control Muxly.Core Muxly.Core.Document Muxly.Sync Muxly.Sync.Program Muxly.Tree

/-- The nodes that a request with this target writes: the node of a content write; the parent of a
new child; the nodes of a subtree that is removed, and its parent unless that is the root or gives
every child a domain of its own. -/
inductive Touches (d : Document) : WriteTarget → Nat → Prop
  | content (x : Nat) : Touches d (.content x) x
  | append (p : Nat) : Touches d (.append p) p
  | subtree {x y : Nat} {n : Node} (hx : d.lookup x = some n)
      (hy : Relation.ReflTransGen (fun p c => c ∈ d.childrenOf p) x y) : Touches d (.remove x) y
  | parent {x p : Nat} {n : Node} (hx : d.lookup x = some n) (hp : n.parentId = some p)
      (hroot : p ≠ d.rootNodeId)
      (hkind : d.hasContainerKind enabledConcurrentContainerKinds p = false) :
      Touches d (.remove x) p

/-- Every node that the request writes lies in a domain whose mutex its thread owns, and the node
that the handler has resolved is the one of the plan. -/
def GuardCovers (c : System) (t : Nat) (grant : Grant) : Prop :=
  ∃ target, grant.target = some target ∧
    (∀ y, Touches c.view.shared.document target y → ∃ r ∈ grant.guard.domainIds,
      c.view.shared.document.concurrentContainerDomainRoot y enabledConcurrentContainerKinds
        = .ok (some r) ∧ c.owner (.domain r) = some t) ∧
    ∀ n, grant.resolved = some n → n = target.nodeId

/-- The runs on a document other than the root document in which no removal finds more bytes than
the document counts. -/
def Regime.accounting : Regime where
  separated := False
  structured := True
  ordered := False
  accounted := True
  structured_of_ordered := False.elim
  structured_of_accounted _ := trivial

section Coverage

variable {H : Set Mutex} {e : DocumentEntry} {phase : GuardPhase} {grant : Grant}

/-- What is written lies in the domains of the guard. -/
theorem Published.touched {R : Regime} (hacc : R.accounted) (hs : Shape e.document)
    (hl : Linked e.document) (hok : Published R H e phase) (hphase : phase = .held grant)
    (hdyn : grant.guard.isDynamic = true) {target : WriteTarget}
    (htarget : grant.target = some target) {y : Nat} (hy : Touches e.document target y) :
    ∃ r ∈ grant.guard.domainIds, Owns e.document y r := by
  have hR := R.structured_of_accounted hacc
  have hrests := hok.basis hR _ (Backed.basis_of_held hphase hdyn)
  obtain ⟨request, target', htarget', hfacts⟩ := hrests.facts
  rw [htarget] at htarget'
  cases htarget'
  have hstays : target.Stays → ∃ r ∈ grant.guard.domainIds, Owns e.document target.nodeId r := by
    intro hstays
    obtain ⟨n, hn⟩ := hok.live hacc grant target hphase hdyn htarget hstays
    obtain ⟨r, hr, howns⟩ := hfacts.owned hrests.shape
    exact ⟨r, hr, hrests.owns hs hl howns hn⟩
  cases hy with
  | content x => exact hstays fun x h => by cases h
  | append p => exact hstays fun x h => by cases h
  | subtree hx hy =>
      exact removal_nodes hrests hfacts (hok.grown hR grant _ hphase hdyn htarget) hs hl hx hy
  | parent hx hp hroot hkind =>
      refine (removal_parent hrests hfacts hs hl hx hp).resolve_left ?_
      rintro (h | h)
      · exact hroot h
      · rw [hkind] at h
        cases h

end Coverage

variable {tasks : Nat → Task} {c : System} {t : Nat} {grant : Grant}

/-- In every run from a new document in which no removal finds more bytes than the document counts,
a planned guard covers what its request writes, at every moment and in every step. -/
theorem guard_covers {documentPath : Bytes} (hpath : documentPath ≠ rootDocumentPath) (id : Nat)
    (title : Bytes) (maxContentBytes : UInt64)
    (hc : Config.Reaches (fun t v _ => Accounting t v)
      (system (cappedEntry documentPath id title maxContentBytes) tasks) c)
    (ht : c.view.tag t = .held grant) (hdyn : grant.guard.isDynamic = true) :
    GuardCovers c t grant ∧ ∀ c', c.next t = some c' → Accounting t c.view →
      WritesWithin grant.guard.domainIds c.view.shared.document c'.view.shared.document := by
  have hvalid := valid_cappedEntry documentPath id title maxContentBytes
  have hfollows : (discipline .accounting).Follows
      (system (cappedEntry documentPath id title maxContentBytes) tasks) :=
    follows_system (fun t => ⟨fun _ => hpath, False.elim⟩) (fun _ => hvalid.shape)
      fun _ => hvalid.linked
  have hfollows' := hfollows.reaches (hc.mono fun _ _ _ h => ⟨False.elim, fun _ => h⟩)
  obtain ⟨H, -, hH, -, -, hok, -⟩ := hfollows'.thread t
  have hs : Shape c.view.shared.document := hfollows'.inv.shape trivial
  have hl : Linked c.view.shared.document := hfollows'.inv.linked trivial
  refine ⟨?_, fun c' hnext haccounting => ?_⟩
  · have hrests := hok.basis trivial _ (Backed.basis_of_held ht hdyn)
    obtain ⟨request, target, htarget, hfacts⟩ := hrests.facts
    refine ⟨target, htarget, fun y hy => ?_, fun n hn => ?_⟩
    · obtain ⟨r, hr, howns⟩ := hok.touched trivial hs hl ht hdyn htarget hy
      refine ⟨r, hr, howns.eq hs, (hH _).mpr ?_⟩
      exact hok.backed.held grant ht (RequestGuard.domain_mem_mutexes.mpr hr)
    · obtain ⟨target', htarget', hsame⟩ := hok.resolved trivial grant n ht hdyn hn
      rw [show grant.target = some target from htarget] at htarget'
      cases htarget'
      exact hsame
  · rcases hfollows'.guarantees hnext ⟨False.elim, fun _ => haccounting⟩ with heq | ⟨H', -, hguar⟩
    · rw [heq]
      exact fun y n hn => .inl hn
    · exact hguar trivial grant ht hdyn

/-! ### A leaf that is written -/

/-- A request with parameters. -/
def requestWith (method : Method) (fields : List (Bytes × JsonValue)) : RequestEnvelope where
  jsonrpcIsTwo := true
  target := none
  method := method
  params := some (.object fields)

/-- `node.append`. -/
def appendRequest (parentId : Int64) (kind : NodeKind) : RequestEnvelope :=
  requestWith .nodeAppend [(ascii "parentId", .integer parentId),
    (ascii "kind", .string kind.tagName), (ascii "title", .string (ascii "node"))]

/-- A step of a thread that has measured nothing, or no more than the document counts. -/
def staysCounted (t : Nat) (v _v' : State) : Bool :=
  match v.tag t with
  | .held grant => grant.measured.all fun total => decide (total ≤ v.shared.document.contentBytes)
  | _ => true

theorem accounting_of_staysCounted (t : Nat) (v v' : State) (h : staysCounted t v v' = true) :
    Accounting t v := by
  intro grant total htag hmeasured
  rw [staysCounted, htag] at h
  simpa [hmeasured] using h

/-- A leaf is appended, then its content is replaced under a guard for its domain. -/
theorem guard_covers_leaf : ∃ c grant, Config.Reaches (fun t v _ => Accounting t v)
    (system (cappedEntry (ascii "/notes") 1 [] 1000) fun t =>
      .request stillEnv (if t = 0 then appendRequest 1 .textLeaf else contentUpdate 2)) c ∧
    c.view.tag 1 = .held grant ∧ grant.guard = .domainWrite 2 ∧ GuardCovers c 1 grant := by
  obtain ⟨c, hc, htest⟩ := Config.Reaches.exists_of_followIf accounting_of_staysCounted
    (List.replicate 19 0 ++ List.replicate 7 1) (fun c => decide (Holds c 1 (.domainWrite 2)))
    (show ((system (cappedEntry (ascii "/notes") 1 [] 1000) fun t => .request stillEnv
      (if t = 0 then appendRequest 1 .textLeaf else contentUpdate 2)).followIf staysCounted _).any _
      = true by decide +kernel)
  rw [decide_eq_true_iff] at htest
  obtain ⟨grant, htag, hguard⟩ := htest.grant
  exact ⟨c, grant, hc, htag, hguard,
    (guard_covers (by decide) 1 [] 1000 hc htag (by rw [hguard]; rfl)).1⟩

/-! ### A removal that finds too much -/

/-- Surroundings with the debug methods. -/
def debugEnv : Env := { stillEnv with debugRpcEnabled := true }

/-- A synthetic tty, node 3, under a container of domains, node 2, with another leaf beside it. While
a reader refreshes the tty its removal measures the old content. -/
def driftRequests : List RequestEnvelope :=
  [appendRequest 1 .vContainer,
    requestWith .debugTtyAttach [(ascii "parentId", .integer 2)],
    appendRequest 2 .textLeaf,
    requestWith .nodeUpdate [(ascii "nodeId", .integer 3), (ascii "title", .string (ascii "shell")),
      (ascii "content", .string (List.replicate 100 120))],
    bareRequest .documentGet,
    requestWith .nodeRemove [(ascii "nodeId", .integer 3)],
    contentUpdate 3,
    requestWith .nodeRemove [(ascii "nodeId", .integer 2)]]

def driftTasks (t : Nat) : Task :=
  .request debugEnv (driftRequests.getD t (bareRequest .documentStatus))

/-- The document is built; the reader has found the tty and holds the content mutex; the removal
measures; the reader writes a shorter content; the removal fails and leaves the tty detached; the tty
is granted to a writer; its container is removed. -/
def driftSchedule : List Nat :=
  List.replicate 19 0 ++ List.replicate 14 1 ++ List.replicate 19 2 ++ List.replicate 14 3 ++
    List.replicate 12 4 ++ List.replicate 15 5 ++ List.replicate 6 4 ++ List.replicate 7 5 ++
    List.replicate 7 6 ++ List.replicate 28 7

/-- The node of a planned guard loses its domain root while the guard is held. -/
theorem guard_uncovered : ¬ ∀ (documentPath : Bytes) (id : Nat) (title : Bytes)
    (maxContentBytes : UInt64) (tasks : Nat → Task) (c : System), documentPath ≠ rootDocumentPath →
    Config.Reaches Config.anyStep (system (cappedEntry documentPath id title maxContentBytes) tasks) c →
    ∀ t grant, c.view.tag t = .held grant → grant.guard.isDynamic = true → GuardCovers c t grant := by
  intro h
  obtain ⟨c, hc, htest⟩ := Config.Reaches.exists_of_follow driftSchedule
    (fun c => decide (Holds c 6 (.domainWrite 3)) &&
      (decide ((c.view.tag 6).basis.bind Basis.target = some (.content 3)) &&
        (c.view.shared.document.concurrentContainerDomainRoot 3
          enabledConcurrentContainerKinds).toOption.isNone))
    (show ((system (cappedEntry (ascii "/notes") 1 [] 1000) driftTasks).follow _).any _ = true by
      decide +kernel)
  rw [Bool.and_eq_true, Bool.and_eq_true, decide_eq_true_iff, decide_eq_true_iff] at htest
  obtain ⟨hholds, hbasis, hroot⟩ := htest
  obtain ⟨grant, htag, hguard⟩ := hholds.grant
  have hdyn : grant.guard.isDynamic = true := by rw [hguard]; rfl
  obtain ⟨target, htarget, hcovers, -⟩ := h _ 1 [] 1000 driftTasks c (by decide) hc 6 grant htag hdyn
  rw [Backed.basis_of_held htag hdyn, Option.bind_some, htarget] at hbasis
  cases hbasis
  obtain ⟨r, -, hr, -⟩ := hcovers 3 (.content 3)
  rw [hr] at hroot
  cases hroot

end Muxly.Daemon
