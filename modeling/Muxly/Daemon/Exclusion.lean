/-
# Muxly.Daemon.Exclusion -- which guards exclude each other, and in which order they wait

Writers exclude each other in every run. A reader takes the domain locks that exist when it starts,
and no more: where a later claim meets none of them, the writer goes ahead beside the reader. Requests
on one document other than the root document wait in ascending order of the mutexes, so that no
cycle of threads waits for ever.
-/
import Muxly.Daemon.ContentCap
import Muxly.Daemon.Threads

namespace Muxly.Daemon

open Muxly.Control Muxly.Core Muxly.Core.Document Muxly.Sync Muxly.Sync.Program Muxly.Tree

/-- The guard that a thread holds between grant and release. -/
def GuardPhase.heldGuard : GuardPhase → Option RequestGuard
  | .held grant => some grant.guard
  | _ => none

/-- A thread holds a guard. -/
def Holds (c : System) (t : Nat) (guard : RequestGuard) : Prop :=
  (c.view.tag t).heldGuard = some guard

instance (c : System) (t : Nat) (guard : RequestGuard) : Decidable (Holds c t guard) :=
  inferInstanceAs (Decidable (_ = _))

theorem Holds.grant {c : System} {t : Nat} {guard : RequestGuard} (h : Holds c t guard) :
    ∃ grant, c.view.tag t = .held grant ∧ grant.guard = guard := by
  unfold Holds GuardPhase.heldGuard at h
  split at h
  · rename_i grant htag
    exact ⟨grant, htag, Option.some.inj h⟩
  · cases h

/-! ## Runs -/

namespace Regime

/-- Every run. -/
def every : Regime where
  separated := False
  structured := False
  ordered := False
  accounted := False
  structured_of_ordered := False.elim
  structured_of_accounted := False.elim

/-- The runs in which a new claim meets the snapshot of every reader. -/
def separating : Regime := { every with separated := True }

/-- The runs on a document other than the root document in which no request takes a second guard. -/
def ascending : Regime where
  separated := False
  structured := True
  ordered := True
  accounted := False
  structured_of_ordered _ := trivial
  structured_of_accounted := False.elim

end Regime

variable {R : Regime} {e : DocumentEntry} {tasks : Nat → Task} {c : System}

/-- Two threads publish what they hold with mutexes of their own. -/
theorem backed_of_follows (h : (discipline R).Follows c) {t u : Nat} (hut : u ≠ t) :
    ∃ H H', Disjoint H H' ∧ Backed H c.view.shared.runtime.domainIds (c.view.tag t) ∧
      Backed H' c.view.shared.runtime.domainIds (c.view.tag u) := by
  obtain ⟨H, -, hH, -, -, hok, -⟩ := h.thread t
  obtain ⟨H', hdisj, hok'⟩ := h.peers hH u hut
  exact ⟨H, H', hdisj, hok.backed, hok'.backed⟩

/-! ## Writers -/

/-- In every run, beside an exclusive guard no other writer holds one, and no two guards have a
domain in common. -/
theorem writers_exclude (hc : Config.Reaches Config.anyStep (system e tasks) c) {t u : Nat}
    (hut : u ≠ t) {guard guard' : RequestGuard} (ht : Holds c t guard) (hu : Holds c u guard') :
    (guard.isExclusive = true → ¬ (guard'.isExclusive = true ∨ guard'.isDynamic = true)) ∧
      ∀ d ∈ guard.domainIds, d ∉ guard'.domainIds := by
  have hfollows : (discipline .every).Follows (system e tasks) :=
    follows_system (fun _ => ⟨False.elim, fun h => h.elim⟩) False.elim False.elim
  have hfollows' := hfollows.reaches (hc.mono fun _ _ _ _ => ⟨False.elim, False.elim⟩)
  obtain ⟨H, H', hdisj, hb, hb'⟩ := backed_of_follows hfollows' hut
  obtain ⟨grant, htag, rfl⟩ := ht.grant
  obtain ⟨grant', htag', rfl⟩ := hu.grant
  exact ⟨hb.exclusive_writers hb' hdisj htag htag',
    fun d => hb.domains_disjoint hb' hdisj htag htag'⟩

/-- Surroundings in which nothing happens. -/
def stillEnv : Env where
  debugRpcEnabled := false
  capturePane _ _ _ := .ok []
  captureSurface _ _ := .ok ([], [])
  readPath _ _ _ := .ok []
  onInvalidate _ _ _ := .ok ()
  onTtyData _ _ _ := .ok ()

/-- A document with two text leaves, nodes 2 and 3, before any domain lock exists. -/
def twoLeaves : DocumentEntry where
  path := ascii "/notes"
  document := (Document.appendNode 1 .textLeaf (ascii "b") .none
    (Document.appendNode 1 .textLeaf (ascii "a") .none (Document.init 1 [])).2).2
  runtime := .init

/-- `node.update` with a new content for node `x`. -/
def contentUpdate (x : Int64) : RequestEnvelope where
  jsonrpcIsTwo := true
  target := none
  method := .nodeUpdate
  params := some (.object [(ascii "nodeId", .integer x), (ascii "content", .string (ascii "new"))])

/-- Two updates of different leaves hold their guards at the same time. -/
theorem writers_exclude_two : ∃ c, Config.Reaches Config.anyStep (system twoLeaves fun t =>
    .request stillEnv (contentUpdate (if t = 0 then 2 else 3))) c ∧
    Holds c 0 (.domainWrite 2) ∧ Holds c 1 (.domainWrite 3) ∧
    ∀ d ∈ (RequestGuard.domainWrite 2).domainIds, d ∉ (RequestGuard.domainWrite 3).domainIds := by
  obtain ⟨c, hc, htest⟩ := Config.Reaches.exists_of_follow (List.replicate 7 0 ++ List.replicate 7 1)
    (fun c => decide (Holds c 0 (.domainWrite 2)) && decide (Holds c 1 (.domainWrite 3)))
    (show ((system twoLeaves fun t => .request stillEnv (contentUpdate (if t = 0 then 2 else 3))).follow
      _).any _ = true by decide +kernel)
  rw [Bool.and_eq_true, decide_eq_true_iff, decide_eq_true_iff] at htest
  exact ⟨c, hc, htest.1, htest.2, (writers_exclude hc Nat.one_ne_zero htest.1 htest.2).2⟩

/-! ## Readers -/

/-- Where every new claim meets the snapshot of every reader, no writer holds a guard beside a
reader. -/
theorem readers_exclude
    (hc : Config.Reaches Separating (system e tasks) c) {t u : Nat}
    (hut : u ≠ t) {domainIds : List Nat} {guard : RequestGuard}
    (ht : Holds c t (.quiescentRead domainIds)) (hu : Holds c u guard) :
    ¬ (guard.isExclusive = true ∨ guard.isDynamic = true) := by
  have hfollows : (discipline .separating).Follows (system e tasks) :=
    follows_system (fun _ => ⟨False.elim, fun h => h.elim⟩) False.elim False.elim
  have hfollows' := hfollows.reaches (hc.mono fun _ _ _ h => ⟨fun _ => h, False.elim⟩)
  obtain ⟨H, H', hdisj, hb, hb'⟩ := backed_of_follows hfollows' hut
  obtain ⟨grant, htag, hguard⟩ := ht.grant
  obtain ⟨grant', htag', rfl⟩ := hu.grant
  intro hwrites
  have hclaims : (c.view.tag u).claims = some grant'.guard.domainIds := by
    rw [htag']
    rcases hwrites with hex | hdyn
    · cases hg : grant'.guard <;> simp_all [RequestGuard.isExclusive, GuardPhase.claims,
        RequestGuard.claims, RequestGuard.domainIds]
    · exact RequestGuard.claims_of_isDynamic hdyn
  have hreads : (c.view.tag t).reads = some domainIds := by
    rw [htag, GuardPhase.reads, hguard]
  obtain ⟨d, hd, hd'⟩ := hfollows'.inv.separated trivial u t hut _ _ hclaims hreads
  refine hb.domains_disjoint hb' hdisj htag htag' ?_ hd
  rw [hguard]
  exact hd'

/-- `document.status` and `view.reset`. -/
def bareRequest (method : Method) : RequestEnvelope where
  jsonrpcIsTwo := true
  target := none
  method := method
  params := none

/-- A step after which its thread claims nothing. -/
def claimsNothing (t : Nat) (_ v' : State) : Bool := (v'.tag t).claims.isNone

theorem separating_of_claimsNothing (t : Nat) (v v' : State) (h : claimsNothing t v v' = true) :
    Separating t v v' := by
  intro D _ hD
  rw [claimsNothing, hD] at h
  cases h

/-- Two readers of a document without domain locks hold their guards at the same time. -/
theorem readers_exclude_two : ∃ c, Config.Reaches Separating
    (system twoLeaves fun _ => .request stillEnv (bareRequest .documentStatus)) c ∧
    Holds c 0 (.quiescentRead []) ∧ Holds c 1 (.quiescentRead []) ∧
    ¬ ((RequestGuard.quiescentRead []).isExclusive = true ∨
      (RequestGuard.quiescentRead []).isDynamic = true) := by
  obtain ⟨c, hc, htest⟩ := Config.Reaches.exists_of_followIf separating_of_claimsNothing
    (List.replicate 4 0 ++ List.replicate 4 1)
    (fun c => decide (Holds c 0 (.quiescentRead [])) && decide (Holds c 1 (.quiescentRead [])))
    (show ((system twoLeaves fun _ => .request stillEnv (bareRequest .documentStatus)).followIf
      claimsNothing _).any _ = true by decide +kernel)
  rw [Bool.and_eq_true, decide_eq_true_iff, decide_eq_true_iff] at htest
  exact ⟨c, hc, htest.1, htest.2, readers_exclude hc Nat.one_ne_zero htest.1 htest.2⟩

/-- A reader of a document without domain locks holds no mutex at all: an exclusive writer goes ahead
beside it. -/
theorem writer_beside_reader : ¬ ∀ (e : DocumentEntry) (tasks : Nat → Task) (c : System),
    Config.Reaches Config.anyStep (system e tasks) c → ∀ t u domainIds guard, u ≠ t →
    Holds c t (.quiescentRead domainIds) → Holds c u guard →
    ¬ (guard.isExclusive = true ∨ guard.isDynamic = true) := by
  intro h
  obtain ⟨c, hc, htest⟩ := Config.Reaches.exists_of_follow (List.replicate 4 0 ++ List.replicate 3 1)
    (fun c => decide (Holds c 0 (.quiescentRead [])) && decide (Holds c 1 (.coordinatorExclusive [])))
    (show ((system twoLeaves fun t => .request stillEnv (bareRequest
      (if t = 0 then .documentStatus else .viewReset))).follow _).any _ = true by decide +kernel)
  rw [Bool.and_eq_true, decide_eq_true_iff, decide_eq_true_iff] at htest
  exact h _ _ c hc 0 1 _ _ Nat.one_ne_zero htest.1 htest.2 (.inl rfl)

/-! ## Waiting -/

/-- On a document other than the root document no cycle of threads waits for each other. -/
theorem no_waiting_cycle {documentPath : Bytes} (hpath : documentPath ≠ rootDocumentPath) (id : Nat)
    (title : Bytes) (maxContentBytes : UInt64)
    (hlist : ∀ t env envelope, tasks t = .request env envelope → envelope.method ≠ .documentList)
    (hc : Config.Reaches Config.anyStep
      (system (cappedEntry documentPath id title maxContentBytes) tasks) c) (t : Nat) :
    ¬ Relation.TransGen (WaitsFor c) t t := by
  have hfollows : (discipline .ascending).Follows
      (system (cappedEntry documentPath id title maxContentBytes) tasks) :=
    follows_system (fun t => ⟨fun _ => hpath, fun _ => hlist t⟩)
      (fun _ => (valid_cappedEntry documentPath id title maxContentBytes).shape) False.elim
  have hfollows' := hfollows.reaches (hc.mono fun _ _ _ _ => ⟨False.elim, False.elim⟩)
  have hlock : ∀ H m, (discipline .ascending).lockOk H m → ∀ m' ∈ H, m' < m := by
    intro H m h
    exact (show Regime.ascending.ordered → _ from h) trivial
  exact (hfollows'.ascending hlock).acyclic t

/-- Two requests of a new document: the second one waits for the first one, and for no other. -/
theorem no_waiting_cycle_two : ∃ c, Config.Reaches Config.anyStep (system
    (cappedEntry (ascii "/notes") 1 [] 1000) fun _ => .request stillEnv (bareRequest .viewReset)) c ∧
    WaitsFor c 1 0 ∧ ¬ Relation.TransGen (WaitsFor c) 1 1 := by
  have hc : Config.Reaches Config.anyStep (system (cappedEntry (ascii "/notes") 1 [] 1000)
      fun _ => .request stillEnv (bareRequest .viewReset)) _ := .step 0 .refl rfl trivial
  refine ⟨_, hc, ⟨.coordinator, ⟨_, rfl⟩, rfl⟩, no_waiting_cycle (by decide) 1 [] 1000 ?_ hc 1⟩
  intro t env envelope htask hmethod
  cases htask
  cases hmethod

end Muxly.Daemon
