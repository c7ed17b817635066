/-
# Muxly.Client.Pool -- the clients that compatibility calls lease

`CompatibilityClientPool`: one mutex, one condition variable and two lists, for two kinds of
transport. A shared transport has one client, made at the start; a pooled one makes clients when none
is available, up to a limit. Either way every client is available or leased, and never both.
-/
import Muxly.Client.Dispatcher

namespace Muxly.Client

open Muxly.Sync

/-! ## The pool -/

/-- `ClientLease`; a client is what its pointer names. -/
structure ClientLease where
  client : Nat
  mode : CompatibilityTransportMode
  released : Bool
  deriving DecidableEq

/-- `CompatibilityClientPool`, with the capacities that its lists were given. -/
structure CompatibilityClientPool where
  mode : CompatibilityTransportMode
  maxConnections : Nat
  sharedClient : Option Nat
  sharedInUse : Bool
  pooledAvailable : List Nat
  pooledAll : List Nat
  availableCapacity : Nat
  allCapacity : Nat
  deriving DecidableEq

/-- `appendAssumeCapacity`; `none` is the assertion that fails. -/
def appendAssumeCapacity (items : List Nat) (capacity item : Nat) : Option (List Nat) :=
  if items.length < capacity then some (items ++ [item]) else none

/-- How one turn of the loop in `checkout` ends. -/
inductive Checkout where
  | leases (client : Nat) (pool : CompatibilityClientPool)
  /-- The client could not be made. -/
  | fails
  | panics
  | waits

namespace CompatibilityClientPool

/-- `initWithRuntimeLimits`, where `created` says whether a client can be made. -/
def init (mode : CompatibilityTransportMode) (created : Bool) : Option CompatibilityClientPool :=
  let pool : CompatibilityClientPool := {
    mode := mode
    maxConnections := mode.maxConnections
    sharedClient := none
    sharedInUse := false
    pooledAvailable := []
    pooledAll := []
    availableCapacity := mode.maxConnections
    allCapacity := mode.maxConnections }
  match mode with
  | .sharedConnection => if created then some { pool with sharedClient := some 0 } else none
  | .pooledConnections => some pool

variable (pool : CompatibilityClientPool)

/-- One turn of the loop in `checkout`. A new client is a new one in the list of all. -/
def checkout (created : Bool) : Checkout :=
  match pool.mode with
  | .sharedConnection =>
    if pool.sharedInUse = false then
      match pool.sharedClient with
      | some client => .leases client { pool with sharedInUse := true }
      | none => .panics
    else .waits
  | .pooledConnections =>
    match pool.pooledAvailable.getLast? with
    | some client => .leases client { pool with pooledAvailable := pool.pooledAvailable.dropLast }
    | none =>
      if pool.pooledAll.length < pool.maxConnections then
        if created then
          match appendAssumeCapacity pool.pooledAll pool.allCapacity pool.pooledAll.length with
          | some all => .leases pool.pooledAll.length { pool with pooledAll := all }
          | none => .panics
        else .fails
      else .waits

/-- `releaseLease`; `none` is the assertion that fails. -/
def releaseLease (lease : ClientLease) : Option CompatibilityClientPool :=
  match lease.mode with
  | .sharedConnection => some { pool with sharedInUse := false }
  | .pooledConnections =>
    (appendAssumeCapacity pool.pooledAvailable pool.availableCapacity lease.client).map
      fun available => { pool with pooledAvailable := available }

/-- The clients that exist. -/
def clients : List Nat :=
  match pool.mode with
  | .sharedConnection => pool.sharedClient.toList
  | .pooledConnections => pool.pooledAll

/-- The clients that can be leased. -/
def available : List Nat :=
  match pool.mode with
  | .sharedConnection => if pool.sharedInUse then [] else pool.sharedClient.toList
  | .pooledConnections => pool.pooledAvailable

end CompatibilityClientPool

/-! ## The pool and its leases -/

/-- The clients of the active leases among these. -/
def activeClients (leases : List ClientLease) : List Nat :=
  leases.filterMap fun held => if held.released then none else some held.client

/-- The pool and the leases it has given out, in order. -/
structure PoolState where
  pool : CompatibilityClientPool
  leases : List ClientLease
  deriving DecidableEq

/-- A call of a thread: `checkout`, or `deinit` of a lease. -/
inductive PoolCall where
  | checkout
  | deinit (lease : Nat)

/-- How a call ends. -/
inductive PoolResult where
  | leased (lease : Nat)
  | failed
  | released
  | panicked
  deriving DecidableEq

namespace PoolState

variable (st : PoolState)

/-- A call as one section; `created` says whether a client can be made. -/
def attempt (created : Bool) (o : PoolCall) (st : PoolState) : Outcome PoolResult PoolState :=
  match o with
  | .checkout =>
    match st.pool.checkout created with
    | .leases client pool => .returns (.leased st.leases.length)
        ⟨pool, st.leases ++ [⟨client, st.pool.mode, false⟩]⟩ .nobody
    | .fails => .returns .failed st .nobody
    | .panics => .returns .panicked st .nobody
    | .waits => .waits
  | .deinit lease =>
    match st.leases[lease]? with
    | none => .returns .released st .nobody
    | some held =>
      if held.released then .returns .released st .nobody
      else
        match st.pool.releaseLease held with
        | none => .returns .panicked st .nobody
        | some pool =>
          .returns .released ⟨pool, st.leases.set lease { held with released := true }⟩ .one

/-- The clients of the active leases. -/
def leased : List Nat := activeClients st.leases

end PoolState

/-- Any number of threads that share a pool; a lease is released by who has it. -/
def poolMonitor : Monitor Nat Bool PoolCall PoolCall PoolResult PoolState where
  attempt := PoolState.attempt
  task o := .call o fun _ => .done
  starts st _ o :=
    match o with
    | .checkout => true
    | .deinit lease => lease < st.leases.length

/-- The threads and the pool. -/
abbrev PoolConfig : Type := Monitor.Config Nat PoolCall PoolResult PoolState

/-- The start of a run. -/
def PoolConfig.start (pool : CompatibilityClientPool) : PoolConfig :=
  .idle Nat PoolCall PoolResult ⟨pool, []⟩

/-! ## Leases -/

theorem activeClients_append (leases : List ClientLease) (client : Nat)
    (mode : CompatibilityTransportMode) :
    activeClients (leases ++ [⟨client, mode, false⟩]) = activeClients leases ++ [client] := by
  rw [activeClients, List.filterMap_append]
  rfl

/-- A lease that is released takes its client out of the active ones. -/
theorem activeClients_set {leases : List ClientLease} {lease : Nat} {held : ClientLease}
    (h : leases[lease]? = some held) (hactive : held.released = false) :
    (activeClients leases).Perm
      (held.client :: activeClients (leases.set lease { held with released := true })) := by
  induction leases generalizing lease with
  | nil => cases h
  | cons first leases ih =>
      cases lease with
      | zero =>
          obtain rfl := Option.some.inj h
          simp [activeClients, hactive]
      | succ lease =>
          have hrest := @ih lease h
          rw [List.set_cons_succ]
          unfold activeClients at hrest ⊢
          rw [List.filterMap_cons, List.filterMap_cons]
          split
          · exact hrest
          · exact (hrest.cons _).trans (.swap ..)

/-- Where no client is active twice, a client has one active lease. -/
theorem index_unique {leases : List ClientLease} (h : (activeClients leases).Nodup) {i j client : Nat}
    {first second : ClientLease} (hi : leases[i]? = some first) (hj : leases[j]? = some second)
    (hfirst : first.released = false ∧ first.client = client)
    (hsecond : second.released = false ∧ second.client = client) : i = j := by
  have hmem : ∀ {rest : List ClientLease} {k : Nat} {held : ClientLease}, rest[k]? = some held →
      held.released = false ∧ held.client = client → client ∈ activeClients rest := by
    intro rest k held hk hheld
    exact List.mem_filterMap.mpr ⟨held, List.mem_of_getElem? hk, by simp [hheld]⟩
  induction leases generalizing i j with
  | nil => cases hi
  | cons held leases ih =>
      have htail : (activeClients leases).Nodup :=
        h.sublist ((List.sublist_cons_self ..).filterMap _)
      -- an active lease at the head keeps its client out of the tail
      have hhead : held.released = false ∧ held.client = client → client ∉ activeClients leases := by
        rintro ⟨hactive, rfl⟩
        have hcons : activeClients (held :: leases) = held.client :: activeClients leases := by
          simp [activeClients, hactive]
        rw [hcons] at h
        exact (List.nodup_cons.mp h).1
      cases i with
      | zero =>
          obtain rfl := Option.some.inj hi
          cases j with
          | zero => rfl
          | succ j =>
              have hrest : leases[j]? = some second := hj
              exact absurd (hmem hrest hsecond) (hhead hfirst)
      | succ i =>
          cases j with
          | zero =>
              have hrest : leases[i]? = some first := hi
              obtain rfl := Option.some.inj hj
              exact absurd (hmem hrest hfirst) (hhead hsecond)
          | succ j => exact congrArg _ (ih htail hi hj)

/-! ## Available or leased -/

/-- The clients are those that are available and those that are leased, each once. -/
structure Partitioned (st : PoolState) : Prop where
  perm : (st.pool.available ++ st.leased).Perm st.pool.clients
  range : st.pool.clients = List.range st.pool.clients.length
  size : st.pool.clients.length ≤ st.pool.maxConnections
  capacities : st.pool.maxConnections ≤ st.pool.availableCapacity ∧
    st.pool.maxConnections ≤ st.pool.allCapacity
  modes : ∀ held ∈ st.leases, held.mode = st.pool.mode
  shared : st.pool.mode = .sharedConnection → st.pool.sharedClient = some 0

theorem partitioned_init {mode : CompatibilityTransportMode} {created : Bool}
    {pool : CompatibilityClientPool} (h : CompatibilityClientPool.init mode created = some pool) :
    Partitioned ⟨pool, []⟩ := by
  cases mode with
  | sharedConnection =>
      cases created with
      | false => cases h
      | true =>
          cases h
          exact ⟨.refl _, rfl, Nat.le_refl 1, ⟨Nat.le_refl 1, Nat.le_refl 1⟩, nofun, fun _ => rfl⟩
  | pooledConnections =>
      cases h
      exact ⟨.refl _, rfl, Nat.zero_le _, ⟨Nat.le_refl _, Nat.le_refl _⟩, nofun, nofun⟩

namespace Partitioned

variable {st : PoolState}

theorem clients_nodup (h : Partitioned st) : st.pool.clients.Nodup := by
  rw [h.range]
  exact List.nodup_range

theorem leased_nodup (h : Partitioned st) : st.leased.Nodup :=
  (List.nodup_append.mp (h.perm.nodup_iff.mpr h.clients_nodup)).2.1

/-- A client of a pooled transport that is leased was available or is new. -/
theorem checkout_pooled {created : Bool} {client : Nat} {pool : CompatibilityClientPool}
    (h : Partitioned st) (hmode : st.pool.mode = .pooledConnections)
    (hcheckout : st.pool.checkout created = .leases client pool) :
    Partitioned ⟨pool, st.leases ++ [⟨client, st.pool.mode, false⟩]⟩ := by
  obtain ⟨⟨mode, maxConnections, sharedClient, sharedInUse, available, all, availableCapacity,
    allCapacity⟩, leases⟩ := st
  obtain rfl : mode = .pooledConnections := hmode
  have hperm : (available ++ activeClients leases).Perm all := h.perm
  have hrange : all = List.range all.length := h.range
  have hsize : all.length ≤ maxConnections := h.size
  have hmodes : ∀ held ∈ leases ++ [⟨client, .pooledConnections, false⟩],
      held.mode = .pooledConnections := by
    intro held hheld
    rcases List.mem_append.mp hheld with hheld | hheld
    · exact h.modes held hheld
    · rw [List.mem_singleton.mp hheld]
  simp only [CompatibilityClientPool.checkout] at hcheckout
  split at hcheckout
  · rename_i last hlast
    cases hcheckout
    refine ⟨?_, hrange, hsize, h.capacities, hmodes, nofun⟩
    show (available.dropLast ++
      activeClients (leases ++ [⟨client, .pooledConnections, false⟩])).Perm all
    rw [activeClients_append]
    rw [← List.dropLast_append_getLast? client hlast, List.append_assoc] at hperm
    exact (List.perm_append_comm.append_left _).trans hperm
  · rename_i hlast
    have hnone : available = [] := List.getLast?_eq_none_iff.mp hlast
    rw [hnone, List.nil_append] at hperm
    split at hcheckout
    · rename_i hroom
      split at hcheckout
      · split at hcheckout
        · rename_i all' happend
          cases hcheckout
          rw [appendAssumeCapacity] at happend
          split at happend
          · cases happend
            refine ⟨?_, ?_, ?_, h.capacities, hmodes, nofun⟩
            · show (available ++
                activeClients (leases ++ [⟨all.length, .pooledConnections, false⟩])).Perm
                  (all ++ [all.length])
              rw [activeClients_append, hnone, List.nil_append]
              exact hperm.append_right _
            · show all ++ [all.length] = List.range (all ++ [all.length]).length
              rw [List.length_append, List.length_singleton, List.range_succ, ← hrange]
            · show (all ++ [all.length]).length ≤ maxConnections
              rw [List.length_append, List.length_singleton]
              exact hroom
          · cases happend
        · cases hcheckout
      · cases hcheckout
    · cases hcheckout

/-- The client of a shared transport is leased when it is not in use. -/
theorem checkout_shared {created : Bool} {client : Nat} {pool : CompatibilityClientPool}
    (h : Partitioned st) (hmode : st.pool.mode = .sharedConnection)
    (hcheckout : st.pool.checkout created = .leases client pool) :
    Partitioned ⟨pool, st.leases ++ [⟨client, st.pool.mode, false⟩]⟩ := by
  obtain ⟨⟨mode, maxConnections, sharedClient, sharedInUse, available, all, availableCapacity,
    allCapacity⟩, leases⟩ := st
  obtain rfl : mode = .sharedConnection := hmode
  obtain rfl : sharedClient = some 0 := h.shared rfl
  simp only [CompatibilityClientPool.checkout] at hcheckout
  split at hcheckout
  · rename_i hfree
    cases hcheckout
    obtain rfl : sharedInUse = false := hfree
    have hperm : ([0] ++ activeClients leases).Perm [0] := h.perm
    have hnone : activeClients leases = [] := by
      have hlength := hperm.length_eq
      rw [List.length_append] at hlength
      exact List.eq_nil_of_length_eq_zero (by simpa using hlength)
    refine ⟨?_, rfl, h.size, h.capacities, ?_, fun _ => rfl⟩
    · show (activeClients (leases ++ [⟨0, .sharedConnection, false⟩])).Perm [0]
      rw [activeClients_append, hnone]
      exact .refl _
    · intro held hheld
      rcases List.mem_append.mp hheld with hheld | hheld
      · exact h.modes held hheld
      · rw [List.mem_singleton.mp hheld]
  · cases hcheckout

theorem checkout_ne_panics {created : Bool} (h : Partitioned st) :
    st.pool.checkout created ≠ .panics := by
  obtain ⟨⟨mode, maxConnections, sharedClient, sharedInUse, available, all, availableCapacity,
    allCapacity⟩, leases⟩ := st
  cases mode with
  | sharedConnection =>
      obtain rfl : sharedClient = some 0 := h.shared rfl
      simp only [CompatibilityClientPool.checkout]
      split <;> exact nofun
  | pooledConnections =>
      have hcapacity : maxConnections ≤ allCapacity := h.capacities.2
      simp only [CompatibilityClientPool.checkout]
      split
      · exact nofun
      · split
        · rename_i hroom
          rw [appendAssumeCapacity, if_pos (Nat.lt_of_lt_of_le hroom hcapacity)]
          split <;> exact nofun
        · exact nofun

/-- An active lease goes back: its client is available, and the list has room for it. -/
theorem release {lease : Nat} {held : ClientLease} (h : Partitioned st)
    (hheld : st.leases[lease]? = some held) (hactive : held.released = false) :
    ∃ pool, st.pool.releaseLease held = some pool ∧
      Partitioned ⟨pool, st.leases.set lease { held with released := true }⟩ := by
  obtain ⟨⟨mode, maxConnections, sharedClient, sharedInUse, available, all, availableCapacity,
    allCapacity⟩, leases⟩ := st
  have hset : (activeClients leases).Perm
      (held.client :: activeClients (leases.set lease { held with released := true })) :=
    activeClients_set hheld hactive
  have hmode : held.mode = mode := h.modes held (List.mem_of_getElem? hheld)
  have hmodes : ∀ other ∈ leases.set lease { held with released := true }, other.mode = mode := by
    intro other hother
    rcases List.mem_or_eq_of_mem_set hother with hother | rfl
    · exact h.modes other hother
    · exact hmode
  cases mode with
  | sharedConnection =>
      obtain rfl : sharedClient = some 0 := h.shared rfl
      refine ⟨⟨.sharedConnection, maxConnections, some 0, false, available, all, availableCapacity,
        allCapacity⟩, by rw [CompatibilityClientPool.releaseLease, hmode], ?_, rfl, h.size,
        h.capacities, hmodes, fun _ => rfl⟩
      -- the one client was leased, so it was in use, and no other lease is active
      have hperm : ((if sharedInUse then [] else [0]) ++ activeClients leases).Perm [0] := h.perm
      have hlength := (((hset.append_left _).symm.trans hperm)).length_eq
      simp only [List.length_append, List.length_cons, List.length_nil] at hlength
      have hnone : activeClients (leases.set lease { held with released := true }) = [] :=
        List.eq_nil_of_length_eq_zero (by omega)
      show ([0] ++ activeClients (leases.set lease { held with released := true })).Perm [0]
      rw [hnone]
      exact .refl _
  | pooledConnections =>
      have hperm : (available ++ activeClients leases).Perm all := h.perm
      have hback := (hset.append_left available).symm.trans hperm
      have hlength := hback.length_eq
      rw [List.length_append, List.length_cons] at hlength
      have hsize : all.length ≤ maxConnections := h.size
      have hcapacity : maxConnections ≤ availableCapacity := h.capacities.1
      have hroom : available.length < availableCapacity := by omega
      have happend : appendAssumeCapacity available availableCapacity held.client =
          some (available ++ [held.client]) := if_pos hroom
      refine ⟨⟨.pooledConnections, maxConnections, sharedClient, sharedInUse,
        available ++ [held.client], all, availableCapacity, allCapacity⟩, ?_, ?_, h.range, hsize,
        h.capacities, hmodes, nofun⟩
      · rw [CompatibilityClientPool.releaseLease, hmode]
        exact congrArg (Option.map _) happend
      · show ((available ++ [held.client]) ++
          activeClients (leases.set lease { held with released := true })).Perm all
        rw [List.append_assoc]
        exact hback

/-- What a call leaves when it returns. -/
theorem attempt {created : Bool} {o : PoolCall} {st' : PoolState} {result : PoolResult} {wake : Wake}
    (h : Partitioned st) (hattempt : PoolState.attempt created o st = .returns result st' wake) :
    Partitioned st' ∧ result ≠ .panicked := by
  cases o with
  | checkout =>
      simp only [PoolState.attempt] at hattempt
      split at hattempt
      · rename_i client pool hcheckout
        cases hattempt
        refine ⟨?_, nofun⟩
        cases hmode : st.pool.mode with
        | sharedConnection =>
            rw [← hmode]
            exact h.checkout_shared hmode hcheckout
        | pooledConnections =>
            rw [← hmode]
            exact h.checkout_pooled hmode hcheckout
      · cases hattempt
        exact ⟨h, nofun⟩
      · rename_i hcheckout
        exact absurd hcheckout h.checkout_ne_panics
      · cases hattempt
  | deinit lease =>
      simp only [PoolState.attempt] at hattempt
      split at hattempt
      · cases hattempt
        exact ⟨h, nofun⟩
      · rename_i held hheld
        split at hattempt
        · cases hattempt
          exact ⟨h, nofun⟩
        · rename_i hactive
          obtain ⟨pool, hrelease, hpool⟩ := h.release hheld (Bool.eq_false_iff.mpr hactive)
          rw [hrelease] at hattempt
          cases hattempt
          exact ⟨hpool, nofun⟩

end Partitioned

/-- The limit of a pool stays as it was set. -/
theorem maxConnections_attempt {created : Bool} {o : PoolCall} {st st' : PoolState}
    {result : PoolResult} {wake : Wake}
    (h : PoolState.attempt created o st = .returns result st' wake) :
    st'.pool.maxConnections = st.pool.maxConnections := by
  cases o with
  | checkout =>
      simp only [PoolState.attempt] at h
      split at h
      · rename_i client pool hcheckout
        cases h
        show pool.maxConnections = st.pool.maxConnections
        unfold CompatibilityClientPool.checkout at hcheckout
        repeat' split at hcheckout
        all_goals cases hcheckout
        all_goals rfl
      · cases h
        rfl
      · cases h
        rfl
      · cases h
  | deinit lease =>
      simp only [PoolState.attempt] at h
      split at h
      · cases h
        rfl
      · split at h
        · cases h
          rfl
        · split at h
          · cases h
            rfl
          · rename_i pool hrelease
            cases h
            show pool.maxConnections = st.pool.maxConnections
            unfold CompatibilityClientPool.releaseLease at hrelease
            split at hrelease
            · cases hrelease
              rfl
            · obtain ⟨available, -, rfl⟩ := Option.map_eq_some_iff.mp hrelease
              rfl

/-- What calls make of a pool, one after the other. -/
theorem partitioned_of_replays {st st' : PoolState} {history : List (Nat × PoolCall × PoolResult)}
    (hst : Partitioned st) (h : poolMonitor.Replays st history st') :
    (Partitioned st' ∧ st'.pool.maxConnections = st.pool.maxConnections) ∧
      ∀ t o, (t, o, .panicked) ∉ history := by
  induction h with
  | nil => exact ⟨⟨hst, rfl⟩, nofun⟩
  | snoc _ hattempt ih =>
      obtain ⟨⟨hmid, hlimit⟩, hhistory⟩ := ih
      obtain ⟨hafter, hresult⟩ := hmid.attempt hattempt
      refine ⟨⟨hafter, (maxConnections_attempt hattempt).trans hlimit⟩, fun t o hmem => ?_⟩
      rcases List.mem_append.mp hmem with hmem | hmem
      · exact hhistory t o hmem
      · cases List.mem_singleton.mp hmem
        exact hresult rfl

/-- What the pool promises its callers. -/
structure PoolSafe (limit : Nat) (history : List (Nat × PoolCall × PoolResult)) (st : PoolState) :
    Prop where
  /-- A client is held by one active lease at most. -/
  exclusive : ∀ {i j : Nat} {first second : ClientLease}, st.leases[i]? = some first →
    st.leases[j]? = some second → first.released = false → second.released = false →
      first.client = second.client → i = j
  bounded : st.pool.clients.length ≤ limit
  /-- A client is available or leased, -/
  covered : ∀ client, client ∈ st.pool.clients ↔
    client ∈ st.pool.available ∨ client ∈ st.leased
  /-- and never both. -/
  disjoint : ∀ client ∈ st.pool.available, client ∉ st.leased
  /-- No list outgrew its capacity. -/
  roomy : ∀ t o, (t, o, .panicked) ∉ history

theorem maxConnections_init {mode : CompatibilityTransportMode} {created : Bool}
    {pool : CompatibilityClientPool} (h : CompatibilityClientPool.init mode created = some pool) :
    pool.maxConnections = mode.maxConnections := by
  cases mode with
  | sharedConnection =>
      cases created with
      | false => cases h
      | true =>
          cases h
          rfl
  | pooledConnections =>
      cases h
      rfl

/-- In every run of checkouts and releases, with clients that cannot be made where the outside
decides so, the pool keeps its promise. -/
theorem pool_safe {mode : CompatibilityTransportMode} {created : Bool}
    {pool : CompatibilityClientPool} (hinit : CompatibilityClientPool.init mode created = some pool)
    {history : List (Nat × PoolCall × PoolResult)} {c : PoolConfig}
    (h : poolMonitor.Reaches Monitor.anyMove (PoolConfig.start pool) history c) :
    PoolSafe mode.maxConnections history c.state := by
  obtain ⟨⟨hpool, hlimit⟩, hhistory⟩ := partitioned_of_replays (partitioned_init hinit) h.replays
  refine ⟨?_, ?_, ?_, ?_, hhistory⟩
  · intro i j first second hi hj hfirst hsecond heq
    exact index_unique hpool.leased_nodup hi hj ⟨hfirst, rfl⟩ ⟨hsecond, heq.symm⟩
  · rw [← maxConnections_init hinit]
    exact hlimit ▸ hpool.size
  · intro client
    rw [← hpool.perm.mem_iff, List.mem_append]
  · have hnodup := hpool.perm.nodup_iff.mpr hpool.clients_nodup
    intro client havailable hleased
    exact (List.nodup_append.mp hnodup).2.2 client havailable client hleased rfl

/-- Two threads lease a client each, a third finds that none can be made, and one lease ends. -/
theorem pool_safe_leases : ∃ pool history c,
    CompatibilityClientPool.init .pooledConnections true = some pool ∧
    poolMonitor.Reaches Monitor.anyMove (PoolConfig.start pool) history c ∧
    PoolSafe CompatibilityTransportMode.pooledConnections.maxConnections history c.state ∧
    c.state.leased = [1] := by
  obtain ⟨pool, hinit⟩ : ∃ pool, CompatibilityClientPool.init .pooledConnections true = some pool :=
    ⟨_, rfl⟩
  obtain ⟨history, c, hreach, htest⟩ := Monitor.Reaches.exists_of_follow (M := poolMonitor)
    Monitor.anyMove (PoolConfig.start pool)
    [.start 0 .checkout, .start 1 .checkout, .start 2 .checkout, .enter 0 true 0, .enter 1 true 0,
      .enter 2 false 0, .start 0 (.deinit 0), .enter 0 true 0]
    (fun c => c.state.leased = [1]) (by
      cases hinit
      decide +kernel)
  exact ⟨pool, history, c, hinit, hreach, pool_safe hinit hreach, of_decide_eq_true htest⟩

end Muxly.Client
