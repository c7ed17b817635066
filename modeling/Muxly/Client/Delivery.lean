/-
# Muxly.Client.Delivery -- what a router hands out, and whom it leaves asleep

Two results about all runs of any number of threads on one router. `router_delivery` reads the
history of a run: since a conversation was last unregistered, the envelopes accepted for a request
are those handed out to it, in that order, followed by those that are still queued.
`no_lost_wakeup` is about sleep: `unregisterConversation` wakes nobody, so a thread that sleeps on a
conversation while it is unregistered sleeps on; the runs without such a step lose no wake-up.
-/
import Muxly.Client.Router

namespace Muxly.Client

open Muxly.Core Muxly.Daemon Muxly.Server Muxly.Sync

/-! ## Histories -/

/-- The envelopes that were accepted for a request. -/
def accepted (conversationId : Bytes) (requestId : Option UInt64) (history : List RouterEvent) :
    List OwnedEnvelope :=
  history.filterMap fun
    | (_, .pushEnvelope envelope, .pushed true) =>
      if envelope.conversationId = conversationId ∧ envelope.requestId = requestId then
        some envelope
      else none
    | _ => none

/-- What a section asks the router for. -/
def Section.asksFor : Section → Option (Bytes × Option UInt64)
  | .takeEnvelope conversationId requestId | .waitForEnvelope conversationId requestId =>
    some (conversationId, requestId)
  | _ => none

/-- The envelopes that were handed out to a request. -/
def handed (conversationId : Bytes) (requestId : Option UInt64) (history : List RouterEvent) :
    List OwnedEnvelope :=
  history.filterMap fun
    | (_, o, .envelope (.ok envelope)) =>
      if o.asksFor = some (conversationId, requestId) then some envelope else none
    | _ => none

/-- The section unregisters the conversation. -/
def Section.Unregisters (o : Section) (conversationId : Bytes) : Prop :=
  match o with
  | .unregisterConversation other => other = conversationId
  | _ => False

instance (o : Section) (conversationId : Bytes) : Decidable (o.Unregisters conversationId) := by
  unfold Section.Unregisters
  split <;> infer_instance

/-- What has happened since the conversation was last unregistered. -/
def sinceUnregistered (conversationId : Bytes) (history : List RouterEvent) : List RouterEvent :=
  history.foldl (fun since event =>
    if event.2.1.Unregisters conversationId then [] else since ++ [event]) []

theorem sinceUnregistered_snoc (conversationId : Bytes) (history : List RouterEvent)
    (event : RouterEvent) :
    sinceUnregistered conversationId (history ++ [event]) =
      if event.2.1.Unregisters conversationId then []
      else sinceUnregistered conversationId history ++ [event] := by
  rw [sinceUnregistered, List.foldl_append]
  rfl

/-! ## One section -/

namespace ConversationRouter

variable {router router' : ConversationRouter}

theorem queued_eq_of_queue {conversationId : Bytes}
    (h : (router'.queue conversationId).getD [] = (router.queue conversationId).getD [])
    (requestId : Option UInt64) :
    router'.queued conversationId requestId = router.queued conversationId requestId := by
  rw [queued, queued, h]

theorem queued_pushEnvelope {envelope : OwnedEnvelope}
    (h : router.pushEnvelope envelope = some router') (conversationId : Bytes)
    (requestId : Option UInt64) :
    router'.queued conversationId requestId = router.queued conversationId requestId ++
      if envelope.conversationId = conversationId ∧ envelope.requestId = requestId then [envelope]
      else [] := by
  have hqueue := queue_pushEnvelope h conversationId
  by_cases hid : conversationId = envelope.conversationId
  · subst hid
    rw [if_pos rfl] at hqueue
    obtain ⟨envelopes, henvelopes⟩ : ∃ envelopes,
        router.queue envelope.conversationId = some envelopes := by
      refine Option.ne_none_iff_exists'.mp fun hnone => ?_
      rw [pushEnvelope_eq_none.mpr hnone] at h
      cases h
    rw [queued, queued, hqueue, henvelopes]
    by_cases hrequest : envelope.requestId = requestId <;> simp [hrequest]
  · rw [if_neg hid] at hqueue
    rw [if_neg fun hc => hid hc.1.symm, List.append_nil, queued, queued, hqueue]

/-- Of a list, the first hit and the other hits. -/
theorem filter_eq_cons_eraseP {α : Type} {p : α → Bool} {xs : List α} {x : α}
    (h : xs.find? p = some x) : xs.filter p = x :: (xs.eraseP p).filter p := by
  induction xs with
  | nil => cases h
  | cons y rest ih =>
      by_cases hp : p y = true
      · rw [List.find?_cons_of_pos hp] at h
        cases h
        rw [List.filter_cons_of_pos hp, List.eraseP_cons_of_pos hp]
      · rw [List.find?_cons_of_neg hp] at h
        rw [List.filter_cons_of_neg hp, List.eraseP_cons_of_neg hp, List.filter_cons_of_neg hp, ih h]

theorem filter_eraseP_of_disjoint {α : Type} {p q : α → Bool}
    (hdisjoint : ∀ x, q x = true → p x = false) (xs : List α) :
    (xs.eraseP q).filter p = xs.filter p := by
  induction xs with
  | nil => rfl
  | cons x rest ih =>
      by_cases hq : q x = true
      · rw [List.eraseP_cons_of_pos hq, List.filter_cons_of_neg (by simp [hdisjoint x hq])]
      · rw [List.eraseP_cons_of_neg hq, List.filter_cons, List.filter_cons, ih]

/-- A take hands out the first envelope of its request and leaves the others. -/
theorem queued_takeEnvelopeLocked {conversationId : Bytes} {requestId : Option UInt64}
    {envelope : OwnedEnvelope}
    (h : router.takeEnvelopeLocked conversationId requestId = .ok (envelope, router'))
    (other : Bytes) (request : Option UInt64) :
    router.queued other request =
      (if conversationId = other ∧ requestId = request then [envelope] else []) ++
        router'.queued other request := by
  obtain ⟨-, heq⟩ | ⟨-, -, -, heq⟩ | ⟨envelopes, found, left, hqueue, hfind, heq, -, -, hleft⟩ :=
    router.takeEnvelopeLocked_cases conversationId requestId
  · rw [heq] at h
    cases h
  · rw [heq] at h
    cases h
  · rw [heq] at h
    cases h
    have hother := hleft other
    by_cases hid : other = conversationId
    · subst hid
      rw [if_pos rfl] at hother
      rw [queued, queued, hqueue, hother, Option.getD_some, Option.getD_some]
      by_cases hrequest : requestId = request
      · subst hrequest
        rw [if_pos ⟨rfl, rfl⟩, filter_eq_cons_eraseP hfind]
        rfl
      · rw [if_neg fun hc => hrequest hc.2, List.nil_append, filter_eraseP_of_disjoint]
        intro e he
        simp only [decide_eq_true_eq] at he
        simp [he, hrequest]
    · rw [if_neg hid] at hother
      rw [if_neg fun hc => hid hc.1.symm, List.nil_append, queued, queued, hother]

/-- A take that finds an envelope queued for its request returns the oldest. -/
theorem takeEnvelopeLocked_of_queued {conversationId : Bytes} {requestId : Option UInt64}
    {envelope : OwnedEnvelope} {more : List OwnedEnvelope}
    (h : router.queued conversationId requestId = envelope :: more) :
    ∃ router', router.takeEnvelopeLocked conversationId requestId = .ok (envelope, router') := by
  obtain ⟨hqueue, -⟩ | ⟨envelopes, hqueue, hfind, -⟩ | ⟨envelopes, found, router', -, -, heq, -⟩ :=
    router.takeEnvelopeLocked_cases conversationId requestId
  · rw [queued, hqueue] at h
    cases h
  · rw [queued, hqueue, Option.getD_some, List.filter_eq_nil_iff.mpr] at h
    · cases h
    · exact List.find?_eq_none.mp hfind
  · have hsplit := queued_takeEnvelopeLocked heq conversationId requestId
    rw [h, if_pos ⟨rfl, rfl⟩] at hsplit
    exact ⟨router', by rw [heq, List.cons.inj hsplit |>.1]⟩

/-- `takeEnvelopeLocked` alone never says that the stream has ended. -/
theorem takeEnvelopeLocked_ne_endOfStream {conversationId : Bytes} {requestId : Option UInt64}
    {e : RouterError} (h : router.takeEnvelopeLocked conversationId requestId = .error e) :
    e ≠ .endOfStream := by
  rintro rfl
  obtain ⟨_, heq⟩ | ⟨_, _, _, heq⟩ | ⟨_, _, _, _, _, heq, _⟩ :=
    router.takeEnvelopeLocked_cases conversationId requestId
  all_goals
    rw [heq] at h
    cases h

theorem closed_takeEnvelopeLocked {conversationId : Bytes} {requestId : Option UInt64}
    {envelope : OwnedEnvelope}
    (h : router.takeEnvelopeLocked conversationId requestId = .ok (envelope, router')) :
    router'.closed = router.closed := by
  obtain ⟨-, heq⟩ | ⟨-, -, -, heq⟩ | ⟨envelopes, found, left, -, -, heq, hclosed, -⟩ :=
    router.takeEnvelopeLocked_cases conversationId requestId
  all_goals
    rw [heq] at h
    cases h
  exact hclosed

theorem isSome_queue_takeEnvelopeLocked {conversationId : Bytes} {requestId : Option UInt64}
    {envelope : OwnedEnvelope}
    (h : router.takeEnvelopeLocked conversationId requestId = .ok (envelope, router'))
    (other : Bytes) : (router'.queue other).isSome = (router.queue other).isSome := by
  obtain ⟨-, heq⟩ | ⟨-, -, -, heq⟩ | ⟨envelopes, found, left, hqueue, -, heq, -, -, hleft⟩ :=
    router.takeEnvelopeLocked_cases conversationId requestId
  all_goals
    rw [heq] at h
    cases h
  rw [hleft other]
  split
  · rename_i hid
    rw [hid, hqueue]
    rfl
  · rfl

theorem Distinct.takeEnvelopeLocked (h : router.Distinct) {conversationId : Bytes}
    {requestId : Option UInt64} {envelope : OwnedEnvelope}
    (htake : router.takeEnvelopeLocked conversationId requestId = .ok (envelope, router')) :
    router'.Distinct := by
  obtain ⟨-, heq⟩ | ⟨envelopes, -, -, heq⟩ | ⟨envelopes, found, left, -, -, heq, -, hids, -⟩ :=
    router.takeEnvelopeLocked_cases conversationId requestId
  all_goals
    rw [heq] at htake
    cases htake
  rw [Distinct, hids]
  exact h

end ConversationRouter

section Sections

variable {st st' : RouterState} {o : Section} {r : SectionResult} {wake : Wake} {t : Nat}

/-- What a section does to the router. -/
theorem attempt_cases (h : RouterState.attempt () o st = .returns r st' wake) :
    (∃ conversationId, o = .registerConversation conversationId ∧ wake = .nobody ∧ r = .done ∧
      st'.router = st.router.registerConversation conversationId) ∨
    (∃ conversationId, o = .unregisterConversation conversationId ∧ wake = .nobody ∧ r = .done ∧
      st'.router = st.router.unregisterConversation conversationId) ∨
    (∃ envelope, o = .pushEnvelope envelope ∧ wake = .all ∧ r = .pushed true ∧
      st.router.pushEnvelope envelope = some st'.router) ∨
    (∃ conversationId requestId envelope, o.asksFor = some (conversationId, requestId) ∧
      wake = .nobody ∧ r = .envelope (.ok envelope) ∧
      st.router.takeEnvelopeLocked conversationId requestId = .ok (envelope, st'.router)) ∨
    (o = .close ∧ wake = .all ∧ r = .done ∧ st'.router = st.router.close) ∨
    (wake = .nobody ∧ st'.router = st.router ∧ (∀ conversationId, ¬o.Unregisters conversationId) ∧
      r ≠ .pushed true ∧ (∀ envelope, r ≠ .envelope (.ok envelope)) ∧ o ≠ .close ∧
      (r = .envelope (.error .endOfStream) → st.router.closed = true ∧
        ∀ conversationId requestId, o.asksFor = some (conversationId, requestId) →
          st.router.queued conversationId requestId = [])) := by
  cases o with
  | registerConversation conversationId =>
      cases h
      exact .inl ⟨conversationId, rfl, rfl, rfl, rfl⟩
  | unregisterConversation conversationId =>
      cases h
      exact .inr (.inl ⟨conversationId, rfl, rfl, rfl, rfl⟩)
  | pushEnvelope envelope =>
      simp only [RouterState.attempt] at h
      split at h
      · cases h
        simp [Section.Unregisters]
      · rename_i router hpush
        cases h
        exact .inr (.inr (.inl ⟨envelope, rfl, rfl, rfl, hpush⟩))
  | takeEnvelope conversationId requestId =>
      simp only [RouterState.attempt] at h
      split at h
      · rename_i e htake
        cases h
        have hne : e ≠ .endOfStream := ConversationRouter.takeEnvelopeLocked_ne_endOfStream htake
        simp [Section.Unregisters, hne]
      · rename_i envelope router htake
        cases h
        exact .inr (.inr (.inr (.inl ⟨conversationId, requestId, envelope, rfl, rfl, rfl, htake⟩)))
  | waitForEnvelope conversationId requestId =>
      simp only [RouterState.attempt] at h
      split at h
      · rename_i envelope router htake
        cases h
        exact .inr (.inr (.inr (.inl ⟨conversationId, requestId, envelope, rfl, rfl, rfl, htake⟩)))
      · rename_i htake
        split at h
        · rename_i hclosed
          cases h
          have hempty : st.router.queued conversationId requestId = [] := by
            cases hqueued : st.router.queued conversationId requestId with
            | nil => rfl
            | cons envelope more =>
                obtain ⟨router', heq⟩ := ConversationRouter.takeEnvelopeLocked_of_queued hqueued
                rw [heq] at htake
                cases htake
          simp [Section.Unregisters, Section.asksFor, hclosed, hempty]
        · cases h
      · rename_i e hne htake
        cases h
        have hne : e ≠ .endOfStream := ConversationRouter.takeEnvelopeLocked_ne_endOfStream htake
        simp [Section.Unregisters, hne]
  | close =>
      cases h
      exact .inr (.inr (.inr (.inr (.inl ⟨rfl, rfl, rfl, rfl⟩))))
  | currentStatus handle | setCanceled handle | release handle | tryMarkConsumed handle =>
      cases h
      simp [Section.Unregisters, RouterState.onPending]

end Sections

/-! ## What is handed out -/

section Histories

variable {history before : List RouterEvent} {st : RouterState} {c : RouterConfig}

theorem accepted_append (conversationId : Bytes) (requestId : Option UInt64)
    (history more : List RouterEvent) :
    accepted conversationId requestId (history ++ more) =
      accepted conversationId requestId history ++ accepted conversationId requestId more := by
  rw [accepted, List.filterMap_append]
  rfl

theorem handed_append (conversationId : Bytes) (requestId : Option UInt64)
    (history more : List RouterEvent) :
    handed conversationId requestId (history ++ more) =
      handed conversationId requestId history ++ handed conversationId requestId more := by
  rw [handed, List.filterMap_append]
  rfl

/-- A section that is no push accepts nothing. -/
theorem accepted_singleton_of_ne {t : Nat} {o : Section} {r : SectionResult}
    (h : r ≠ .pushed true) (conversationId : Bytes) (requestId : Option UInt64) :
    accepted conversationId requestId [(t, o, r)] = [] := by
  refine List.filterMap_eq_nil_iff.mpr fun event hmem => ?_
  split
  · cases List.mem_singleton.mp hmem
    exact absurd rfl h
  · rfl

/-- A section that returns no envelope hands out nothing. -/
theorem handed_singleton_of_ne {t : Nat} {o : Section} {r : SectionResult}
    (h : ∀ envelope, r ≠ .envelope (.ok envelope)) (conversationId : Bytes)
    (requestId : Option UInt64) : handed conversationId requestId [(t, o, r)] = [] := by
  refine List.filterMap_eq_nil_iff.mpr fun event hmem => ?_
  split
  · cases List.mem_singleton.mp hmem
    exact absurd rfl (h _)
  · rfl

theorem mem_accepted {conversationId : Bytes} {requestId : Option UInt64} {envelope : OwnedEnvelope}
    (h : envelope ∈ accepted conversationId requestId history) :
    envelope.conversationId = conversationId ∧ envelope.requestId = requestId := by
  obtain ⟨event, -, hevent⟩ := List.mem_filterMap.mp h
  split at hevent
  · split at hevent
    · rename_i heq
      cases hevent
      exact heq
    · cases hevent
  · cases hevent

/-- What a history and the router that it leaves agree on. -/
structure Balanced (history : List RouterEvent) (router : ConversationRouter) : Prop where
  distinct : router.Distinct
  balance : ∀ conversationId requestId,
    accepted conversationId requestId (sinceUnregistered conversationId history) =
      handed conversationId requestId (sinceUnregistered conversationId history) ++
        router.queued conversationId requestId
  closed : router.closed = true → ∃ t r, (t, Section.close, r) ∈ history

/-- The envelopes that are queued for a request are envelopes of that request. -/
theorem Balanced.mem_queued {router : ConversationRouter} (h : Balanced history router)
    {conversationId : Bytes} {requestId : Option UInt64} {envelope : OwnedEnvelope}
    (hmem : envelope ∈ router.queued conversationId requestId) :
    envelope.conversationId = conversationId ∧ envelope.requestId = requestId := by
  have hall := h.balance conversationId requestId
  exact mem_accepted (hall ▸ List.mem_append_right _ hmem)

/-- A section that leaves `balance` as it was, for a conversation it does not unregister. -/
theorem Balanced.balance_snoc {router router' : ConversationRouter} (h : Balanced history router)
    {t : Nat} {o : Section} {r : SectionResult} {conversationId : Bytes}
    (hkeep : ¬o.Unregisters conversationId) (requestId : Option UInt64)
    (hqueued : router.queued conversationId requestId ++
        accepted conversationId requestId [(t, o, r)] =
      handed conversationId requestId [(t, o, r)] ++ router'.queued conversationId requestId) :
    accepted conversationId requestId (sinceUnregistered conversationId (history ++ [(t, o, r)])) =
      handed conversationId requestId (sinceUnregistered conversationId (history ++ [(t, o, r)])) ++
        router'.queued conversationId requestId := by
  rw [sinceUnregistered_snoc, if_neg hkeep, accepted_append, handed_append,
    h.balance conversationId requestId, List.append_assoc, List.append_assoc, hqueued]

/-- One section keeps the balance. -/
theorem Balanced.attempt {st' : RouterState} (h : Balanced history st.router) {t : Nat}
    {o : Section} {r : SectionResult} {wake : Wake}
    (hattempt : RouterState.attempt () o st = .returns r st' wake) :
    Balanced (history ++ [(t, o, r)]) st'.router := by
  have hclosed : st.router.closed = true → ∃ u q, (u, Section.close, q) ∈ history ++ [(t, o, r)] := by
    intro hclosed
    obtain ⟨u, q, hmem⟩ := h.closed hclosed
    exact ⟨u, q, List.mem_append_left _ hmem⟩
  rcases attempt_cases hattempt with ⟨registered, rfl, -, rfl, heq⟩ | ⟨gone, rfl, -, rfl, heq⟩ |
    ⟨pushed, rfl, -, rfl, hpush⟩ | ⟨asked, request, taken, hasks, -, rfl, htake⟩ |
    ⟨rfl, -, rfl, heq⟩ | ⟨-, heq, hkeep, hpushed, htaken, -, -⟩
  · rw [heq]
    refine ⟨h.distinct.registerConversation registered, fun conversationId requestId => ?_, ?_⟩
    · refine h.balance_snoc (by simp [Section.Unregisters]) requestId ?_
      rw [accepted_singleton_of_ne (by simp), handed_singleton_of_ne (by simp), List.append_nil,
        List.nil_append]
      refine (ConversationRouter.queued_eq_of_queue ?_ requestId).symm
      rw [ConversationRouter.queue_registerConversation]
      split
      · rename_i hid
        rw [hid, Option.getD_some]
      · rfl
    · unfold ConversationRouter.registerConversation
      split <;> exact hclosed
  · rw [heq]
    refine ⟨h.distinct.unregisterConversation gone, fun conversationId requestId => ?_, ?_⟩
    · have hqueue := ConversationRouter.queue_unregisterConversation h.distinct gone conversationId
      by_cases hid : gone = conversationId
      · subst hid
        rw [sinceUnregistered_snoc, if_pos (by simp [Section.Unregisters]),
          ConversationRouter.queued, hqueue, if_pos rfl]
        rfl
      · refine h.balance_snoc (by simp [Section.Unregisters, hid]) requestId ?_
        rw [accepted_singleton_of_ne (by simp), handed_singleton_of_ne (by simp), List.append_nil,
          List.nil_append]
        refine (ConversationRouter.queued_eq_of_queue ?_ requestId).symm
        rw [hqueue, if_neg (Ne.symm hid)]
    · unfold ConversationRouter.unregisterConversation
      split <;> exact hclosed
  · refine ⟨h.distinct.pushEnvelope hpush, fun conversationId requestId => ?_, ?_⟩
    · refine h.balance_snoc (by simp [Section.Unregisters]) requestId ?_
      rw [handed_singleton_of_ne (by simp), ConversationRouter.queued_pushEnvelope hpush]
      by_cases hmatch : pushed.conversationId = conversationId ∧ pushed.requestId = requestId
      · simp [accepted, hmatch]
      · simp [accepted, hmatch]
    · obtain ⟨index, -, hrouter⟩ := Option.map_eq_some_iff.mp hpush
      rw [← hrouter]
      exact hclosed
  · refine ⟨h.distinct.takeEnvelopeLocked htake, fun conversationId requestId => ?_, ?_⟩
    · refine h.balance_snoc ?_ requestId ?_
      · cases o <;> simp_all [Section.asksFor, Section.Unregisters]
      · rw [accepted_singleton_of_ne (by simp),
          ConversationRouter.queued_takeEnvelopeLocked htake conversationId requestId,
          List.append_nil]
        by_cases hmatch : asked = conversationId ∧ request = requestId
        · simp [handed, hasks, hmatch]
        · simp [handed, hasks, hmatch]
    · rw [ConversationRouter.closed_takeEnvelopeLocked htake]
      exact hclosed
  · rw [heq]
    refine ⟨h.distinct, fun conversationId requestId => ?_, fun _ => ⟨t, .done, by simp⟩⟩
    refine h.balance_snoc (by simp [Section.Unregisters]) requestId ?_
    rw [accepted_singleton_of_ne (by simp), handed_singleton_of_ne (by simp), List.append_nil]
    rfl
  · rw [heq]
    refine ⟨h.distinct, fun conversationId requestId => ?_, hclosed⟩
    refine h.balance_snoc (hkeep conversationId) requestId ?_
    rw [accepted_singleton_of_ne hpushed, handed_singleton_of_ne htaken, List.append_nil,
      List.nil_append]

/-- Every history balances the router that it leaves. -/
theorem balanced_of_replays (h : routerMonitor.Replays .init history st) :
    Balanced history st.router := by
  induction h with
  | nil => exact ⟨ConversationRouter.distinct_init, fun _ _ => rfl, by simp [RouterState.init, ConversationRouter.init]⟩
  | snoc _ hattempt ih => exact ih.attempt hattempt

/-- What is handed out belongs to the request it is handed to. -/
theorem Balanced.asksFor_of_attempt {st' : RouterState} (h : Balanced history st.router) {o : Section}
    {envelope : OwnedEnvelope} {wake : Wake}
    (hattempt : RouterState.attempt () o st = .returns (.envelope (.ok envelope)) st' wake) :
    o.asksFor = some (envelope.conversationId, envelope.requestId) := by
  rcases attempt_cases hattempt with ⟨_, -, -, heq, -⟩ | ⟨_, -, -, heq, -⟩ | ⟨_, -, -, heq, -⟩ |
    ⟨conversationId, requestId, taken, hasks, -, heq, htake⟩ | ⟨-, -, heq, -⟩ | ⟨-, -, -, -, hne, -⟩
  · cases heq
  · cases heq
  · cases heq
  · cases heq
    have hsplit := ConversationRouter.queued_takeEnvelopeLocked htake conversationId requestId
    rw [if_pos ⟨rfl, rfl⟩] at hsplit
    obtain ⟨hid, hrequest⟩ := h.mem_queued (hsplit ▸ List.mem_append_left _ (List.mem_singleton_self _))
    rw [hasks, hid, hrequest]
  · cases heq
  · exact absurd rfl (hne envelope)

/-- A wait that ends with the stream finds the router closed and nothing queued. -/
theorem closed_of_endOfStream {st' : RouterState} {conversationId : Bytes}
    {requestId : Option UInt64} {wake : Wake}
    (h : RouterState.attempt () (.waitForEnvelope conversationId requestId) st =
      .returns (.envelope (.error .endOfStream)) st' wake) :
    st.router.closed = true ∧ st.router.queued conversationId requestId = [] := by
  rcases attempt_cases h with ⟨_, heq, -⟩ | ⟨_, heq, -⟩ | ⟨_, heq, -⟩ | ⟨_, _, _, -, -, heq, -⟩ |
    ⟨heq, -⟩ | ⟨-, -, -, -, -, -, hclosed⟩
  · cases heq
  · cases heq
  · cases heq
  · cases heq
  · cases heq
  · exact ⟨(hclosed rfl).1, (hclosed rfl).2 conversationId requestId rfl⟩

/-- However the calls of any number of threads interleave: of the envelopes accepted for a request
since its conversation was last unregistered, those handed out come first and in that order, and the
others are still queued; what is handed out goes to its own request; a take or a wait gets the
envelope that has been queued for longest; and a wait ends with the stream only on a closed router
that has nothing for it. -/
theorem router_delivery (h : routerMonitor.Reaches Monitor.anyMove RouterConfig.start history c) :
    (∀ conversationId requestId,
      accepted conversationId requestId (sinceUnregistered conversationId history) =
        handed conversationId requestId (sinceUnregistered conversationId history) ++
          c.state.router.queued conversationId requestId) ∧
    (∀ t o envelope, (t, o, .envelope (.ok envelope)) ∈ history →
      o.asksFor = some (envelope.conversationId, envelope.requestId)) ∧
    (∀ o conversationId requestId envelope more,
      o.asksFor = some (conversationId, requestId) →
      c.state.router.queued conversationId requestId = envelope :: more →
      ∃ st', RouterState.attempt () o c.state = .returns (.envelope (.ok envelope)) st' .nobody) ∧
    ∀ conversationId requestId st' wake,
      RouterState.attempt () (.waitForEnvelope conversationId requestId) c.state =
        .returns (.envelope (.error .endOfStream)) st' wake →
      (c.state.router.closed = true ∧ ∃ t r, (t, Section.close, r) ∈ history) ∧
        c.state.router.queued conversationId requestId = [] := by
  have hreplays := h.replays
  have hbalanced : Balanced history c.state.router := balanced_of_replays hreplays
  refine ⟨hbalanced.balance, ?_, ?_, ?_⟩
  · intro t o envelope hmem
    obtain ⟨before, st, st', choice, wake, hbefore, hattempt⟩ := hreplays.attempt_of_mem hmem
    exact (balanced_of_replays hbefore).asksFor_of_attempt hattempt
  · intro o conversationId requestId envelope more hasks hqueued
    obtain ⟨router', htake⟩ := ConversationRouter.takeEnvelopeLocked_of_queued hqueued
    refine ⟨{ c.state with router := router' }, ?_⟩
    cases o with
    | takeEnvelope _ _ | waitForEnvelope _ _ =>
        cases hasks
        simp only [RouterState.attempt, htake]
    | _ => cases hasks
  · intro conversationId requestId st' wake hattempt
    obtain ⟨hclosed, hqueued⟩ := closed_of_endOfStream hattempt
    exact ⟨⟨hclosed, hbalanced.closed hclosed⟩, hqueued⟩

end Histories

/-- The conversation of the examples. -/
def callId : Bytes := [1]

/-- An answer to request 7 of that conversation. -/
def answer : OwnedEnvelope := ⟨callId, some 7, none, .rpc, .bool true, true, none⟩

/-- Two answers are accepted, and another thread takes the first. -/
theorem router_delivery_taken : ∃ history c,
    routerMonitor.Reaches Monitor.anyMove RouterConfig.start history c ∧
      (c.state.router.queued callId (some 7)).length = 1 ∧
      accepted callId (some 7) (sinceUnregistered callId history) =
        handed callId (some 7) (sinceUnregistered callId history) ++
          c.state.router.queued callId (some 7) := by
  obtain ⟨history, c, hreach, htest⟩ := Monitor.Reaches.exists_of_follow
    (M := routerMonitor) Monitor.anyMove RouterConfig.start
    [.start 0 (.registerConversation callId), .enter 0 () 0,
      .start 0 (.pushEnvelope answer), .enter 0 () 0,
      .start 0 (.pushEnvelope answer), .enter 0 () 0,
      .start 1 (.takeEnvelope callId (some 7)), .enter 1 () 0]
    (fun c => (c.state.router.queued callId (some 7)).length == 1) (by decide +kernel)
  exact ⟨history, c, hreach, by simpa using htest, (router_delivery hreach).1 callId (some 7)⟩

/-! ## Who is left asleep -/

section Sleep

variable {history : List RouterEvent} {c c' : RouterConfig} {st st' : RouterState}

/-- Thread `t` waits for an envelope of the conversation. -/
def waitsOn (c : RouterConfig) (t : Nat) (conversationId : Bytes) : Bool :=
  match c.thread t with
  | .waiting (.waitForEnvelope other _) _ => other = conversationId
  | _ => false

/-- The conversation that the move unregisters, if it is such a section. -/
def unregisters (c : RouterConfig) : Move Nat Unit RouterCall → Option Bytes
  | .enter t _ _ =>
    match c.next t with
    | some (.unregisterConversation conversationId, _) => some conversationId
    | _ => none
  | _ => none

/-- No thread is asleep on a conversation while it is unregistered. -/
def KeepsSleepers (c : RouterConfig) (move : Move Nat Unit RouterCall) : Prop :=
  ∀ conversationId ∈ unregisters c move, ∀ t ∈ c.asleep, waitsOn c t conversationId = false

instance (c : RouterConfig) (move : Move Nat Unit RouterCall) :
    Decidable (KeepsSleepers c move) := by
  unfold KeepsSleepers
  infer_instance

/-- Whoever is asleep in `waitForEnvelope` has something to wait for. -/
def NoneForgotten (c : RouterConfig) : Prop :=
  ∀ t conversationId requestId, c.SleepsIn t (.waitForEnvelope conversationId requestId) →
    (c.state.router.queue conversationId).isSome ∧
      c.state.router.queued conversationId requestId = [] ∧ c.state.router.closed = false

/-- A section waits if it is a wait, its conversation is registered with nothing queued for it, and
the router is open. -/
theorem blocked_iff {o : Section} : routerMonitor.Blocked o st ↔
    ∃ conversationId requestId, o = .waitForEnvelope conversationId requestId ∧
      (st.router.queue conversationId).isSome ∧
      st.router.queued conversationId requestId = [] ∧ st.router.closed = false := by
  constructor
  · rintro ⟨_, h⟩
    cases o with
    | waitForEnvelope conversationId requestId =>
        refine ⟨conversationId, requestId, rfl, ?_⟩
        simp only [routerMonitor, RouterState.attempt] at h
        obtain ⟨-, heq⟩ | ⟨envelopes, hqueue, hfind, heq⟩ | ⟨_, _, _, -, -, heq, -⟩ :=
          st.router.takeEnvelopeLocked_cases conversationId requestId
        · rw [heq] at h
          cases h
        · rw [heq] at h
          cases hclosed : st.router.closed with
          | false =>
              refine ⟨by rw [hqueue]; rfl, ?_, rfl⟩
              rw [ConversationRouter.queued, hqueue]
              exact List.filter_eq_nil_iff.mpr (List.find?_eq_none.mp hfind)
          | true => simp [hclosed] at h
        · rw [heq] at h
          cases h
    | pushEnvelope envelope =>
        simp only [routerMonitor, RouterState.attempt] at h
        split at h <;> cases h
    | takeEnvelope conversationId requestId =>
        simp only [routerMonitor, RouterState.attempt] at h
        split at h <;> cases h
    | _ => cases h
  · rintro ⟨conversationId, requestId, rfl, hsome, hqueued, hclosed⟩
    refine ⟨(), ?_⟩
    simp only [routerMonitor, RouterState.attempt]
    obtain ⟨hnone, -⟩ | ⟨_, -, -, heq⟩ | ⟨envelopes, found, _, hqueue, hfind, -⟩ :=
      st.router.takeEnvelopeLocked_cases conversationId requestId
    · rw [hnone] at hsome
      cases hsome
    · rw [heq]
      simp [hclosed]
    · rw [ConversationRouter.queued, hqueue, Option.getD_some, List.filter_eq_nil_iff] at hqueued
      exact absurd (List.find?_some hfind) (hqueued found (List.mem_of_find?_eq_some hfind))

/-- A section that wakes nobody and does not unregister the conversation leaves a wait blocked. -/
theorem blocked_of_attempt {o : Section} {r : SectionResult} {wake : Wake}
    {conversationId : Bytes} {requestId : Option UInt64}
    (hattempt : RouterState.attempt () o st = .returns r st' wake) (hwake : wake ≠ .all)
    (hkeep : ¬o.Unregisters conversationId)
    (hdistinct : st.router.Distinct)
    (hblocked : routerMonitor.Blocked (.waitForEnvelope conversationId requestId) st) :
    routerMonitor.Blocked (.waitForEnvelope conversationId requestId) st' := by
  obtain ⟨_, _, heqo, hsome, hqueued, hclosed⟩ := blocked_iff.mp hblocked
  cases heqo
  refine blocked_iff.mpr ⟨conversationId, requestId, rfl, ?_⟩
  rcases attempt_cases hattempt with ⟨registered, -, -, -, heq⟩ | ⟨gone, rfl, -, -, heq⟩ |
    ⟨_, -, rfl, -⟩ | ⟨asked, request, taken, -, -, -, htake⟩ | ⟨-, rfl, -⟩ | ⟨-, heq, -⟩
  · have hqueue := @ConversationRouter.queue_registerConversation
      st.router registered conversationId
    rw [heq, ConversationRouter.queued, hqueue]
    refine ⟨?_, ?_, ?_⟩
    · split
      · rfl
      · exact hsome
    · split
      · rename_i hid
        rw [← hid]
        exact hqueued
      · exact hqueued
    · unfold ConversationRouter.registerConversation
      split <;> exact hclosed
  · have hqueue := ConversationRouter.queue_unregisterConversation hdistinct gone conversationId
    have hne : conversationId ≠ gone := fun h => hkeep h.symm
    rw [if_neg hne] at hqueue
    rw [heq, ConversationRouter.queued, hqueue]
    refine ⟨hsome, hqueued, ?_⟩
    unfold ConversationRouter.unregisterConversation
    split <;> exact hclosed
  · exact absurd rfl hwake
  · rw [ConversationRouter.queued_takeEnvelopeLocked htake, List.append_eq_nil_iff] at hqueued
    exact ⟨ConversationRouter.isSome_queue_takeEnvelopeLocked htake conversationId ▸ hsome,
      hqueued.2, ConversationRouter.closed_takeEnvelopeLocked htake ▸ hclosed⟩
  · exact absurd rfl hwake
  · rw [heq]
    exact ⟨hsome, hqueued, hclosed⟩

theorem waitsOn_iff {t : Nat} {conversationId : Bytes} : waitsOn c t conversationId = true ↔
    ∃ requestId rest, c.thread t = .waiting (.waitForEnvelope conversationId requestId) rest := by
  unfold waitsOn
  constructor
  · intro h
    split at h
    · rename_i requestId rest hthread
      exact ⟨requestId, rest, of_decide_eq_true h ▸ hthread⟩
    · cases h
  · rintro ⟨requestId, rest, hthread⟩
    rw [hthread]
    exact decide_eq_true rfl

/-- A section that unregisters is the one that `unregisters` sees. -/
theorem unregisters_enter {t : Nat} {choice : Unit} {sleeper : Nat} {o : Section}
    {rest : SectionResult → Task Section SectionResult} {conversationId : Bytes}
    (hnext : c.next t = some (o, rest)) (h : o.Unregisters conversationId) :
    unregisters c (.enter t choice sleeper) = some conversationId := by
  cases o with
  | unregisterConversation other =>
      cases h
      simp only [unregisters, hnext]
  | _ => cases h

/-- On the runs that keep their sleepers, whoever is asleep still has to wait. -/
theorem blocked_of_keepsSleepers
    (h : routerMonitor.Reaches KeepsSleepers RouterConfig.start history c) {t : Nat} {o : Section}
    (hsleeps : c.SleepsIn t o) : routerMonitor.Blocked o c.state := by
  refine h.blocked rfl ?_ t o hsleeps
  intro history c t choice sleeper u o o' rest r s wake hreach hcond hnext hattempt hwake
    hsleeps hblocked
  have hdistinct := (balanced_of_replays hreach.replays).distinct
  obtain ⟨conversationId, requestId, rfl, -⟩ := blocked_iff.mp hblocked
  refine blocked_of_attempt hattempt hwake (fun hunregisters => ?_) hdistinct hblocked
  obtain ⟨hasleep, rest', hthread⟩ := hsleeps
  have hnot := hcond conversationId (unregisters_enter hnext hunregisters) u hasleep
  rw [waitsOn_iff.mpr ⟨requestId, rest', hthread⟩] at hnot
  cases hnot

theorem noneForgotten_of_keepsSleepers
    (h : routerMonitor.Reaches KeepsSleepers RouterConfig.start history c) : NoneForgotten c := by
  intro t conversationId requestId hsleeps
  obtain ⟨_, _, heq, hwaits⟩ := blocked_iff.mp (blocked_of_keepsSleepers h hsleeps)
  cases heq
  exact hwaits

/-- A thread that sleeps on a conversation sleeps on while it is unregistered. -/
theorem keepsSleepers_of_noneForgotten
    (hreach : routerMonitor.Reaches KeepsSleepers RouterConfig.start history c)
    {move : Move Nat Unit RouterCall} {returned : Option RouterEvent}
    (hstep : c.step routerMonitor move = some (returned, c')) (h : NoneForgotten c') :
    KeepsSleepers c move := by
  intro conversationId hunregisters u hasleep
  by_contra hwaits
  obtain ⟨requestId, rest', hwaiting⟩ := waitsOn_iff.mp (by simpa using hwaits)
  cases move with
  | enter t choice sleeper =>
      simp only [unregisters] at hunregisters
      split at hunregisters
      · rename_i gone rest hnext
        cases hunregisters
        have hne : u ≠ t := by
          rintro rfl
          exact Monitor.not_mem_asleep_of_next (hreach.sleepers rfl).2 hnext hasleep
        simp only [Monitor.Config.step, hnext, routerMonitor, RouterState.attempt] at hstep
        cases hstep
        obtain ⟨hsome, -⟩ := h u conversationId requestId ⟨hasleep, rest', by simpa [hne] using hwaiting⟩
        rw [ConversationRouter.queue_unregisterConversation
          (balanced_of_replays hreach.replays).distinct, if_pos rfl] at hsome
        cases hsome
      · cases hunregisters
  | start t m => cases hunregisters
  | spurious t => cases hunregisters

/-- In every run in which no thread is asleep on a conversation while it is unregistered, no wake-up
is lost; and the first step that is otherwise loses one. -/
theorem no_lost_wakeup (h : routerMonitor.Reaches KeepsSleepers RouterConfig.start history c) :
    NoneForgotten c ∧
    ∀ move returned c', c.step routerMonitor move = some (returned, c') →
      (NoneForgotten c' ↔ KeepsSleepers c move) := by
  refine ⟨noneForgotten_of_keepsSleepers h, fun move returned c' hstep => ⟨?_, fun hkeeps => ?_⟩⟩
  · exact keepsSleepers_of_noneForgotten h hstep
  · exact noneForgotten_of_keepsSleepers (h.step hkeeps hstep)

end Sleep

/-- A thread registers a conversation, and another falls asleep on it. -/
theorem no_lost_wakeup_asleep : ∃ history c,
    routerMonitor.Reaches KeepsSleepers RouterConfig.start history c ∧
      c.asleep = [1] ∧ NoneForgotten c := by
  obtain ⟨history, c, hreach, htest⟩ := Monitor.Reaches.exists_of_follow
    (M := routerMonitor) KeepsSleepers RouterConfig.start
    [.start 0 (.registerConversation callId), .enter 0 () 0,
      .start 1 (.wait ⟨0, callId, 7⟩), .enter 1 () 0, .enter 1 () 0]
    (fun c => c.asleep == [1]) (by decide +kernel)
  exact ⟨history, c, hreach, by simpa using htest, (no_lost_wakeup hreach).1⟩

/-- A request is cancelled while another thread waits on it: the waiter sleeps on, in a conversation
that is gone. -/
theorem cancel_leaves_waiter_asleep : ∃ history c,
    routerMonitor.Reaches Monitor.anyMove RouterConfig.start history c ∧
      (c.state.pending 0).currentStatus = .canceled ∧ ¬NoneForgotten c := by
  obtain ⟨history, c, hreach, htest⟩ := Monitor.Reaches.exists_of_follow
    (M := routerMonitor) Monitor.anyMove RouterConfig.start
    [.start 0 (.registerConversation callId), .enter 0 () 0,
      .start 1 (.wait ⟨0, callId, 7⟩), .enter 1 () 0, .enter 1 () 0,
      .start 2 (.cancel ⟨0, callId, 7⟩), .enter 2 () 0, .enter 2 () 0]
    (fun c => decide (1 ∈ c.asleep) && waitsOn c 1 callId &&
      (c.state.router.queue callId).isNone &&
      decide ((c.state.pending 0).currentStatus = .canceled)) (by decide +kernel)
  simp only [Bool.and_eq_true, decide_eq_true_eq, Option.isNone_iff_eq_none] at htest
  obtain ⟨⟨⟨hasleep, hwaits⟩, hgone⟩, hstatus⟩ := htest
  obtain ⟨requestId, rest, hthread⟩ := waitsOn_iff.mp hwaits
  refine ⟨history, c, hreach, hstatus, fun h => ?_⟩
  obtain ⟨hsome, -⟩ := h 1 callId requestId ⟨hasleep, rest, hthread⟩
  rw [hgone] at hsome
  cases hsome

end Muxly.Client
