/-
# Muxly.Client.Router -- the mailboxes of a client, and the requests that wait on them

`conversation_router.zig`, function by function: a list of mailboxes behind one mutex, with one
condition variable that all waiting threads share. With it the handles of `client.zig` that wait on
the router, each with a mutex of its own: what they do is a sequence of sections, some on the router
and some on the handle.

`queue` reads the list of mailboxes as what it stands for: the envelopes of every conversation that
is registered.
-/
import Mathlib.Data.List.Basic
import Muxly.Server.Frames
import Muxly.Sync.Monitor

namespace Muxly.Client

open Muxly.Core Muxly.Daemon Muxly.Server Muxly.Sync

/-! ## The router -/

/-- `ConversationError`. -/
structure ConversationError where
  code : Int64
  message : Bytes

/-- `OwnedEnvelope`; `payload` is what its text parses to. -/
structure OwnedEnvelope where
  conversationId : Bytes
  requestId : Option UInt64
  target : Option RequestTarget
  kind : ConversationKind
  payload : JsonValue
  fin : Bool
  conversationError : Option ConversationError

/-- `Mailbox`. -/
structure Mailbox where
  conversationId : Bytes
  envelopes : List OwnedEnvelope

/-- The errors of the router. -/
inductive RouterError where
  | unknownConversation
  | conversationResponseNotFound
  | endOfStream
  deriving DecidableEq

/-- `ConversationRouter`. -/
structure ConversationRouter where
  mailboxes : List Mailbox
  closed : Bool

namespace ConversationRouter

/-- `init`. -/
def init : ConversationRouter := ⟨[], false⟩

variable (router : ConversationRouter)

/-- `mailboxIndex`. -/
def mailboxIndex (conversationId : Bytes) : Option Nat :=
  router.mailboxes.findIdx? fun mailbox => mailbox.conversationId = conversationId

/-- `registerConversation`. -/
def registerConversation (conversationId : Bytes) : ConversationRouter :=
  if (router.mailboxIndex conversationId).isSome then router
  else { router with mailboxes := router.mailboxes ++ [⟨conversationId, []⟩] }

/-- `unregisterConversation`. -/
def unregisterConversation (conversationId : Bytes) : ConversationRouter :=
  match router.mailboxIndex conversationId with
  | none => router
  | some index => { router with mailboxes := router.mailboxes.eraseIdx index }

/-- `pushEnvelope`; `none` is `error.UnknownConversation`. -/
def pushEnvelope (envelope : OwnedEnvelope) : Option ConversationRouter :=
  (router.mailboxIndex envelope.conversationId).map fun index =>
    { router with
      mailboxes := router.mailboxes.modify index fun mailbox =>
        { mailbox with envelopes := mailbox.envelopes ++ [envelope] } }

/-- `takeEnvelopeLocked`. -/
def takeEnvelopeLocked (conversationId : Bytes) (requestId : Option UInt64) :
    Except RouterError (OwnedEnvelope × ConversationRouter) :=
  match router.mailboxIndex conversationId with
  | none => .error .unknownConversation
  | some index =>
    match router.mailboxes[index]?.bind fun mailbox =>
        mailbox.envelopes.find? fun envelope => envelope.requestId = requestId with
    | none => .error .conversationResponseNotFound
    | some envelope =>
      .ok (envelope, { router with
        mailboxes := router.mailboxes.modify index fun mailbox =>
          { mailbox with
            envelopes := mailbox.envelopes.eraseP fun envelope => envelope.requestId = requestId } })

/-- `close`. -/
def close : ConversationRouter := { router with closed := true }

end ConversationRouter

/-! ## Pending requests -/

/-- `PendingHandleStatus`. -/
inductive PendingHandleStatus where
  | active
  | canceled
  | consumed
  | released
  deriving DecidableEq

/-- What the mutex of a `PendingRpcRequest` guards. -/
structure PendingStatus where
  status : PendingHandleStatus
  released : Bool

/-- The rest of a `PendingRpcRequest`, with a number of its own. -/
structure PendingRpcRequest where
  handle : Nat
  conversationId : Bytes
  requestId : UInt64

namespace PendingStatus

variable (pending : PendingStatus)

/-- `currentStatus`. -/
def currentStatus : PendingHandleStatus := if pending.released then .released else pending.status

/-- `setCanceled`. -/
def setCanceled : Bool × PendingStatus :=
  if pending.released || decide (pending.status ≠ .active) then (false, pending)
  else (true, { pending with status := .canceled })

/-- The first section of `deinit`: whether the rest of it runs. -/
def release : Bool × PendingStatus :=
  if pending.released then (false, pending)
  else (true, {
    status := if pending.status = .active then .canceled else pending.status
    released := true })

/-- `tryMarkConsumed`. -/
def tryMarkConsumed : PendingHandleStatus × PendingStatus :=
  if pending.released then (.released, pending)
  else
    match pending.status with
    | .active => (.active, { pending with status := .consumed })
    | status => (status, pending)

end PendingStatus

/-! ## Sections -/

/-- A critical section of the router, or of the handle of a pending request. -/
inductive Section where
  | registerConversation (conversationId : Bytes)
  | unregisterConversation (conversationId : Bytes)
  | pushEnvelope (envelope : OwnedEnvelope)
  | takeEnvelope (conversationId : Bytes) (requestId : Option UInt64)
  | waitForEnvelope (conversationId : Bytes) (requestId : Option UInt64)
  | close
  | currentStatus (handle : Nat)
  | setCanceled (handle : Nat)
  | release (handle : Nat)
  | tryMarkConsumed (handle : Nat)

/-- What a section returns. -/
inductive SectionResult where
  | done
  | pushed (accepted : Bool)
  | envelope (result : Except RouterError OwnedEnvelope)
  | status (status : PendingHandleStatus)
  | proceeds (value : Bool)

/-- The router and the handles. -/
structure RouterState where
  router : ConversationRouter
  pending : Nat → PendingStatus

namespace RouterState

/-- Nothing registered, and every handle active. -/
def init : RouterState := ⟨.init, fun _ => ⟨.active, false⟩⟩

variable (st : RouterState)

/-- A section on a handle. -/
def onPending (handle : Nat) (pending : PendingStatus) : RouterState :=
  { st with pending := Function.update st.pending handle pending }

/-- One section. -/
def attempt (_ : Unit) (o : Section) (st : RouterState) : Outcome SectionResult RouterState :=
  match o with
  | .registerConversation conversationId =>
    .returns .done { st with router := st.router.registerConversation conversationId } .nobody
  | .unregisterConversation conversationId =>
    .returns .done { st with router := st.router.unregisterConversation conversationId } .nobody
  | .pushEnvelope envelope =>
    match st.router.pushEnvelope envelope with
    | none => .returns (.pushed false) st .nobody
    | some router => .returns (.pushed true) { st with router } .all
  | .takeEnvelope conversationId requestId =>
    match st.router.takeEnvelopeLocked conversationId requestId with
    | .error e => .returns (.envelope (.error e)) st .nobody
    | .ok (envelope, router) => .returns (.envelope (.ok envelope)) { st with router } .nobody
  | .waitForEnvelope conversationId requestId =>
    match st.router.takeEnvelopeLocked conversationId requestId with
    | .ok (envelope, router) => .returns (.envelope (.ok envelope)) { st with router } .nobody
    | .error .conversationResponseNotFound =>
      if st.router.closed then .returns (.envelope (.error .endOfStream)) st .nobody else .waits
    | .error e => .returns (.envelope (.error e)) st .nobody
  | .close => .returns .done { st with router := st.router.close } .all
  | .currentStatus handle => .returns (.status (st.pending handle).currentStatus) st .nobody
  | .setCanceled handle =>
    let (canceled, pending) := (st.pending handle).setCanceled
    .returns (.proceeds canceled) (st.onPending handle pending) .nobody
  | .release handle =>
    let (proceeds, pending) := (st.pending handle).release
    .returns (.proceeds proceeds) (st.onPending handle pending) .nobody
  | .tryMarkConsumed handle =>
    let (status, pending) := (st.pending handle).tryMarkConsumed
    .returns (.status status) (st.onPending handle pending) .nobody

end RouterState

/-! ## Methods -/

/-- What a thread may call: the functions of the router, and those of a pending request. -/
inductive RouterCall where
  | registerConversation (conversationId : Bytes)
  | unregisterConversation (conversationId : Bytes)
  | pushEnvelope (envelope : OwnedEnvelope)
  | takeEnvelope (conversationId : Bytes) (requestId : Option UInt64)
  | waitForEnvelope (conversationId : Bytes) (requestId : Option UInt64)
  | close
  | poll (request : PendingRpcRequest)
  | wait (request : PendingRpcRequest)
  | cancel (request : PendingRpcRequest)
  | deinit (request : PendingRpcRequest)

/-- A function that is one section. -/
def oneSection (o : Section) : Task Section SectionResult := .call o fun _ => .done

/-- `consumeEnvelope`. -/
def consumeEnvelope (request : PendingRpcRequest) : Task Section SectionResult :=
  .call (.unregisterConversation request.conversationId) fun _ =>
    oneSection (.tryMarkConsumed request.handle)

/-- `poll` and `wait`, which ask the router in different ways. -/
def await (request : PendingRpcRequest) (o : Section) : Task Section SectionResult :=
  .call (.currentStatus request.handle) fun
    | .status .active => .call o fun
      | .envelope (.ok _) => consumeEnvelope request
      | .envelope (.error .conversationResponseNotFound) => .done
      | _ => oneSection (.currentStatus request.handle)
    | _ => .done

/-- The sections of a call. -/
def RouterCall.task : RouterCall → Task Section SectionResult
  | .registerConversation conversationId => oneSection (.registerConversation conversationId)
  | .unregisterConversation conversationId => oneSection (.unregisterConversation conversationId)
  | .pushEnvelope envelope => oneSection (.pushEnvelope envelope)
  | .takeEnvelope conversationId requestId => oneSection (.takeEnvelope conversationId requestId)
  | .waitForEnvelope conversationId requestId =>
    oneSection (.waitForEnvelope conversationId requestId)
  | .close => oneSection .close
  | .poll request => await request (.takeEnvelope request.conversationId (some request.requestId))
  | .wait request =>
    await request (.waitForEnvelope request.conversationId (some request.requestId))
  | .cancel request => .call (.setCanceled request.handle) fun
    | .proceeds true => oneSection (.unregisterConversation request.conversationId)
    | _ => .done
  | .deinit request => .call (.release request.handle) fun
    | .proceeds true => oneSection (.unregisterConversation request.conversationId)
    | _ => .done

/-- Any number of threads that share a router. -/
def routerMonitor : Monitor Nat Unit RouterCall Section SectionResult RouterState where
  attempt := RouterState.attempt
  task := RouterCall.task
  starts _ _ _ := true

/-- The threads, with the router and the handles they share. -/
abbrev RouterConfig : Type := Monitor.Config Nat Section SectionResult RouterState

/-- A section that has returned. -/
abbrev RouterEvent : Type := Nat × Section × SectionResult

/-- The start of a run. -/
def RouterConfig.start : RouterConfig := .idle Nat Section SectionResult .init

/-! ## What the mailboxes stand for -/

section Search

variable {α : Type} {p q : α → Bool} {f : α → α} {xs : List α} {i : Nat}

theorem find?_modify_findIdx? (hf : ∀ x, p x = true → p (f x) = true)
    (h : xs.findIdx? p = some i) : (xs.modify i f).find? p = (xs.find? p).map f := by
  induction xs generalizing i with
  | nil => simp at h
  | cons x rest ih =>
      rw [List.findIdx?_cons] at h
      split at h
      · rename_i hp
        cases h
        simp [hp, hf x hp]
      · rename_i hp
        obtain ⟨j, hj, rfl⟩ := Option.map_eq_some_iff.mp h
        simp [hp, ih hj]

theorem find?_modify_of_disjoint (hq : ∀ x, p x = true → q x = false ∧ q (f x) = false)
    (h : xs.findIdx? p = some i) : (xs.modify i f).find? q = xs.find? q := by
  induction xs generalizing i with
  | nil => simp at h
  | cons x rest ih =>
      rw [List.findIdx?_cons] at h
      split at h
      · rename_i hp
        cases h
        obtain ⟨hx, hfx⟩ := hq x hp
        simp [hx, hfx]
      · obtain ⟨j, hj, rfl⟩ := Option.map_eq_some_iff.mp h
        rw [List.modify_succ_cons, List.find?_cons, List.find?_cons, ih hj]

theorem find?_eraseIdx_of_disjoint (hq : ∀ x, p x = true → q x = false)
    (h : xs.findIdx? p = some i) : (xs.eraseIdx i).find? q = xs.find? q := by
  induction xs generalizing i with
  | nil => simp at h
  | cons x rest ih =>
      rw [List.findIdx?_cons] at h
      split at h
      · rename_i hp
        cases h
        simp [hq x hp]
      · obtain ⟨j, hj, rfl⟩ := Option.map_eq_some_iff.mp h
        rw [List.eraseIdx_cons_succ, List.find?_cons, List.find?_cons, ih hj]

theorem map_modify_eq {β : Type} {g : α → β} (hg : ∀ x, g (f x) = g x) (xs : List α) (i : Nat) :
    (xs.modify i f).map g = xs.map g := by
  induction xs generalizing i with
  | nil => simp
  | cons x rest ih =>
      cases i with
      | zero => simp [hg]
      | succ i => simp [ih]

theorem find?_eraseIdx_self (hone : xs.Pairwise fun x y => p x = true → p y = false)
    (h : xs.findIdx? p = some i) : (xs.eraseIdx i).find? p = none := by
  induction xs generalizing i with
  | nil => simp at h
  | cons x rest ih =>
      obtain ⟨hx, hrest⟩ := List.pairwise_cons.mp hone
      rw [List.findIdx?_cons] at h
      split at h
      · rename_i hp
        cases h
        exact List.find?_eq_none.mpr fun y hy => by simp [hx y hy hp]
      · rename_i hp
        obtain ⟨j, hj, rfl⟩ := Option.map_eq_some_iff.mp h
        rw [List.eraseIdx_cons_succ, List.find?_cons_of_neg hp, ih hrest hj]

end Search

namespace ConversationRouter

variable (router : ConversationRouter)

/-- No conversation has two mailboxes. -/
def Distinct : Prop := (router.mailboxes.map (·.conversationId)).Nodup

/-- The envelopes of a conversation, if it is registered. -/
def queue (conversationId : Bytes) : Option (List OwnedEnvelope) :=
  (router.mailboxes.find? fun mailbox => mailbox.conversationId = conversationId).map (·.envelopes)

/-- The envelopes that a request can still get. -/
def queued (conversationId : Bytes) (requestId : Option UInt64) : List OwnedEnvelope :=
  ((router.queue conversationId).getD []).filter fun envelope => envelope.requestId = requestId

variable {router}

theorem distinct_init : init.Distinct := List.nodup_nil

theorem mailboxIndex_eq_none {conversationId : Bytes} :
    router.mailboxIndex conversationId = none ↔ router.queue conversationId = none := by
  simp [mailboxIndex, queue]

theorem isSome_mailboxIndex {conversationId : Bytes} :
    (router.mailboxIndex conversationId).isSome = (router.queue conversationId).isSome := by
  rw [mailboxIndex, queue, List.findIdx?_isSome, Option.isSome_map, List.isSome_find?]

/-- The mailbox at the index that is found. -/
theorem getElem?_mailboxIndex {conversationId : Bytes} {index : Nat}
    (h : router.mailboxIndex conversationId = some index) :
    router.mailboxes[index]?.map (·.envelopes) = router.queue conversationId := by
  rw [queue, List.find?_eq_bind_findIdx?_getElem?, show List.findIdx? _ _ = some index from h]
  rfl

theorem queue_registerConversation (conversationId other : Bytes) :
    (router.registerConversation conversationId).queue other =
      if other = conversationId then some ((router.queue conversationId).getD [])
      else router.queue other := by
  unfold registerConversation
  rw [isSome_mailboxIndex]
  split
  · rename_i hsome
    split
    · rename_i heq
      subst heq
      obtain ⟨envelopes, henvelopes⟩ := Option.isSome_iff_exists.mp hsome
      rw [henvelopes]
      rfl
    · rfl
  · rename_i hnone
    rw [Option.not_isSome_iff_eq_none] at hnone
    have hfind : router.mailboxes.find? (fun mailbox => mailbox.conversationId = conversationId) =
        none := by simpa [queue] using hnone
    split
    · rename_i heq
      subst heq
      simp [queue, List.find?_append, hfind]
    · rename_i hne
      simp [queue, List.find?_append, Ne.symm hne]

theorem queue_unregisterConversation (hdistinct : router.Distinct) (conversationId other : Bytes) :
    (router.unregisterConversation conversationId).queue other =
      if other = conversationId then none else router.queue other := by
  unfold unregisterConversation
  split
  · rename_i hnone
    rw [mailboxIndex_eq_none] at hnone
    split
    · rename_i heq
      rw [heq, hnone]
    · rfl
  · rename_i index hindex
    split
    · rename_i heq
      subst heq
      simp only [queue]
      rw [find?_eraseIdx_self ?_ hindex]
      · rfl
      · refine (List.pairwise_map.mp hdistinct).imp fun hne hid => ?_
        simp only [decide_eq_true_eq] at hid
        simp [← hid, Ne.symm hne]
    · rename_i hne
      simp only [queue]
      rw [find?_eraseIdx_of_disjoint (fun mailbox h => ?_) hindex]
      simp only [decide_eq_true_eq] at h
      simp [h, Ne.symm hne]

theorem queue_pushEnvelope {envelope : OwnedEnvelope} {router' : ConversationRouter}
    (h : router.pushEnvelope envelope = some router') (conversationId : Bytes) :
    router'.queue conversationId =
      if conversationId = envelope.conversationId then
        (router.queue conversationId).map (· ++ [envelope])
      else router.queue conversationId := by
  obtain ⟨index, hindex, rfl⟩ := Option.map_eq_some_iff.mp h
  split
  · rename_i heq
    subst heq
    simp only [queue]
    rw [find?_modify_findIdx? (by intro mailbox h; exact h) hindex, Option.map_map, Option.map_map]
    rfl
  · rename_i hne
    simp only [queue]
    rw [find?_modify_of_disjoint (fun mailbox h => ?_) hindex]
    simp only [decide_eq_true_eq] at h
    simp [h, Ne.symm hne]

theorem pushEnvelope_eq_none {envelope : OwnedEnvelope} :
    router.pushEnvelope envelope = none ↔ router.queue envelope.conversationId = none := by
  rw [pushEnvelope, Option.map_eq_none_iff, mailboxIndex_eq_none]

/-- What a take finds: the first envelope of the conversation with the request id. -/
theorem takeEnvelopeLocked_cases (conversationId : Bytes) (requestId : Option UInt64) :
    (router.queue conversationId = none ∧
      router.takeEnvelopeLocked conversationId requestId = .error .unknownConversation) ∨
    (∃ envelopes, router.queue conversationId = some envelopes ∧
      envelopes.find? (fun envelope => envelope.requestId = requestId) = none ∧
      router.takeEnvelopeLocked conversationId requestId =
        .error .conversationResponseNotFound) ∨
    ∃ envelopes envelope router', router.queue conversationId = some envelopes ∧
      envelopes.find? (fun envelope => envelope.requestId = requestId) = some envelope ∧
      router.takeEnvelopeLocked conversationId requestId = .ok (envelope, router') ∧
      router'.closed = router.closed ∧
      router'.mailboxes.map (·.conversationId) = router.mailboxes.map (·.conversationId) ∧
      ∀ other, router'.queue other =
        if other = conversationId then
          some (envelopes.eraseP fun envelope => envelope.requestId = requestId)
        else router.queue other := by
  unfold takeEnvelopeLocked
  split
  · rename_i hnone
    exact .inl ⟨mailboxIndex_eq_none.mp hnone, rfl⟩
  · rename_i index hindex
    right
    have hqueue := getElem?_mailboxIndex hindex
    obtain ⟨mailbox, hmailbox⟩ : ∃ mailbox, router.mailboxes[index]? = some mailbox := by
      have hsome : (router.queue conversationId).isSome := by
        rw [← isSome_mailboxIndex, hindex]
        rfl
      rw [← hqueue, Option.isSome_map] at hsome
      exact Option.isSome_iff_exists.mp hsome
    rw [hmailbox] at hqueue ⊢
    simp only [Option.map_some] at hqueue
    simp only [Option.bind_some]
    split
    · rename_i hfind
      exact .inl ⟨_, hqueue.symm, hfind, rfl⟩
    · rename_i envelope hfind
      refine .inr ⟨_, envelope, _, hqueue.symm, hfind, rfl, rfl, ?_, fun other => ?_⟩
      · exact map_modify_eq (by intro mailbox; rfl) ..
      · split
        · rename_i heq
          subst heq
          have hold : router.mailboxes.find? (fun mailbox => mailbox.conversationId = other) =
              some mailbox := by
            rw [List.find?_eq_bind_findIdx?_getElem?, show List.findIdx? _ _ = some index from hindex]
            exact hmailbox
          simp only [queue]
          rw [find?_modify_findIdx? (by intro mailbox h; exact h) hindex, hold]
          rfl
        · rename_i hne
          simp only [queue]
          rw [find?_modify_of_disjoint (fun mailbox h => ?_) hindex]
          simp only [decide_eq_true_eq] at h
          simp [h, Ne.symm hne]

/-! ## Conversations stay distinct -/

theorem Distinct.registerConversation (h : router.Distinct) (conversationId : Bytes) :
    (router.registerConversation conversationId).Distinct := by
  unfold ConversationRouter.registerConversation
  split
  · exact h
  · rename_i hnone
    rw [Option.not_isSome_iff_eq_none, mailboxIndex, List.findIdx?_eq_none_iff] at hnone
    have hnew : conversationId ∉ router.mailboxes.map (·.conversationId) := by
      rintro hmem
      obtain ⟨mailbox, hmailbox, heq⟩ := List.mem_map.mp hmem
      simpa [heq] using hnone mailbox hmailbox
    have := h.concat hnew
    simpa [Distinct] using this

theorem Distinct.unregisterConversation (h : router.Distinct) (conversationId : Bytes) :
    (router.unregisterConversation conversationId).Distinct := by
  unfold ConversationRouter.unregisterConversation
  split
  · exact h
  · exact h.sublist ((List.eraseIdx_sublist ..).map _)

theorem Distinct.pushEnvelope (h : router.Distinct) {envelope : OwnedEnvelope}
    {router' : ConversationRouter} (hpush : router.pushEnvelope envelope = some router') :
    router'.Distinct := by
  obtain ⟨index, -, rfl⟩ := Option.map_eq_some_iff.mp hpush
  rw [Distinct, map_modify_eq (by intro mailbox; rfl)]
  exact h

end ConversationRouter

end Muxly.Client
