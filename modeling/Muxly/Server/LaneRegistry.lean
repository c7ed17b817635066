/-
# Muxly.Server.LaneRegistry -- one lane for a key

`Registry` is what `lanes_mutex` protects: the thread that has it is the only one between the search
for a lane and the end of `resolveLane`, so what it did not find is still not there when it appends.
A lane that was made and could not be listed is given up; no work ever reaches it.
-/
import Muxly.Server.Lanes

namespace Muxly.Server.Lanes

open Muxly.Core Muxly.Sync
open Muxly.Conversation (ExecutionLane)

variable {γ ω ρ : Type}

/-! ## Reading the log -/

/-- What an event notes of a lane. -/
def Event.noteOn (l : Nat) : Event ω → Option (WorkQueue.Note ω)
  | .noted lane note => if lane = l then some note else none
  | .abandoned _ => none

/-- All that was noted of a lane. -/
def notesOn (l : Nat) (log : List (Event ω)) : List (WorkQueue.Note ω) :=
  log.filterMap (Event.noteOn l)

@[simp] theorem notesOn_append (l : Nat) (log log' : List (Event ω)) :
    notesOn l (log ++ log') = notesOn l log ++ notesOn l log' := List.filterMap_append

theorem notesOn_noted (l : Nat) (note : Option (WorkQueue.Note ω)) :
    notesOn l (note.map (Event.noted l)).toList = note.toList := by
  cases note <;> simp [notesOn, Event.noteOn]

theorem notesOn_noted_of_ne {l l' : Nat} (h : l ≠ l') (note : Option (WorkQueue.Note ω)) :
    notesOn l' (note.map (Event.noted l)).toList = [] := by
  cases note <;> simp [notesOn, Event.noteOn, h]

theorem abandoned_append_noted {l l' : Nat} {log : List (Event ω)}
    {note : Option (WorkQueue.Note ω)} :
    .abandoned l' ∈ log ++ (note.map (Event.noted l)).toList ↔ .abandoned l' ∈ log := by
  cases note <;> simp

/-! ## Where a caller is -/

namespace Caller

/-- It has `lanes_mutex`. -/
def InRegistry : Caller ω → Prop
  | .searching .. | .creating .. | .appending .. | .leaving .. => True
  | _ => False

/-- It has the mutex of the lane. -/
def Inside (l : Nat) : Caller ω → Prop
  | .inLane _ lane _ | .unlocking lane => lane = l
  | _ => False

end Caller

namespace ServerExecutor

/-- The key of a lane, if there is such a lane. -/
def keyOf (c : ServerExecutor γ ω) (l : Nat) : Option ExecutionLane := c.lanes[l]?.map Lane.key

/-- The executor points to the lane. -/
def Held (c : ServerExecutor γ ω) (l : Nat) : Prop := l = 0 ∨ l ∈ c.documentLanes

/-- What a caller relies on. -/
def Fits (c : ServerExecutor γ ω) (log : List (Event ω)) : Caller ω → Prop
  | .idle | .resolving .. => True
  | .searching laneKey _ => laneKey ≠ .root
  | .creating laneKey _ =>
    laneKey ≠ .root ∧ ∀ l ∈ c.documentLanes, c.keyOf l ≠ some laneKey
  | .appending laneKey l _ =>
    laneKey ≠ .root ∧ (∀ l' ∈ c.documentLanes, c.keyOf l' ≠ some laneKey) ∧
      c.keyOf l = some laneKey ∧ .abandoned l ∉ log
  | .leaving laneKey lane _ => ∀ l ∈ lane, c.Held l ∧ c.keyOf l = some laneKey
  | .calling laneKey l _ | .inLane laneKey l _ => c.Held l ∧ c.keyOf l = some laneKey
  | .unlocking l => c.Held l

/-- What holds of the lanes and of the callers that look for one. -/
structure Registry (c : ServerExecutor γ ω) (log : List (Event ω)) : Prop where
  root : c.keyOf 0 = some .root
  listed : ∀ l ∈ c.documentLanes, ∃ laneKey, c.keyOf l = some laneKey ∧ laneKey ≠ .root
  distinct : c.documentLanes.Pairwise fun l l' => c.keyOf l ≠ c.keyOf l'
  owner : ∀ t, c.lanesMutex = some t ↔ (c.caller t).InRegistry
  fits : ∀ t, c.Fits log (c.caller t)
  made : ∀ l laneKey, c.keyOf l = some laneKey → c.Held l ∨ .abandoned l ∈ log ∨
    ∃ t queued, c.caller t = .appending laneKey l queued
  abandoned : ∀ l, .abandoned l ∈ log → ¬ c.Held l ∧ ∃ laneKey, c.keyOf l = some laneKey
  quiet : ∀ l, ¬ c.Held l → WorkQueue.enqueued (notesOn l log) = []
  noted : ∀ l, c.keyOf l = none → notesOn l log = []

variable {c c' : ServerExecutor γ ω} {log log' : List (Event ω)} {t : γ} {e : Option (Event ω)}

theorem Fits.outside {k : Caller ω} (h : c.Fits log k) (hk : ¬ k.InRegistry)
    (hheld : ∀ l, c.Held l → c'.Held l)
    (hkey : ∀ l laneKey, c.keyOf l = some laneKey → c'.keyOf l = some laneKey) :
    c'.Fits log' k := by
  cases k with
  | idle | resolving _ _ => trivial
  | searching _ _ | creating _ _ | appending _ _ _ | leaving _ _ _ => exact absurd trivial hk
  | calling laneKey l _ | inLane laneKey l _ => exact ⟨hheld l h.1, hkey l _ h.2⟩
  | unlocking l => exact hheld l h

namespace Registry

theorem keyOf_of_held (h : Registry c log) {l : Nat} (hl : c.Held l) :
    ∃ laneKey, c.keyOf l = some laneKey := by
  rcases hl with rfl | hl
  · exact ⟨_, h.root⟩
  · obtain ⟨laneKey, hkey, -⟩ := h.listed l hl
    exact ⟨laneKey, hkey⟩

/-- One thread at a time has `lanes_mutex`. -/
theorem alone (h : Registry c log) (ht : (c.caller t).InRegistry) {u : γ}
    (hu : (c.caller u).InRegistry) : u = t := by
  have hmutex := (h.owner t).mpr ht
  rw [(h.owner u).mpr hu] at hmutex
  exact Option.some.inj hmutex

/-- While a thread has `lanes_mutex`, only that thread may have made a lane it did not append. -/
theorem made_of_inRegistry (h : Registry c log) (ht : (c.caller t).InRegistry) {l : Nat}
    {laneKey : ExecutionLane} (hkey : c.keyOf l = some laneKey) :
    c.Held l ∨ .abandoned l ∈ log ∨ ∃ queued, c.caller t = .appending laneKey l queued := by
  rcases h.made l laneKey hkey with hheld | habandoned | ⟨u, queued, hcaller⟩
  · exact .inl hheld
  · exact .inr (.inl habandoned)
  · obtain rfl : u = t := h.alone ht (by rw [hcaller]; trivial)
    exact .inr (.inr ⟨queued, hcaller⟩)

theorem held_of_inside (h : Registry c log) {l : Nat} (ht : (c.caller t).Inside l) : c.Held l := by
  have hfits := h.fits t
  cases hcaller : c.caller t with
  | inLane laneKey lane queued =>
      rw [hcaller] at hfits ht
      obtain rfl : lane = l := ht
      exact hfits.1
  | unlocking lane =>
      rw [hcaller] at hfits ht
      obtain rfl : lane = l := ht
      exact hfits
  | idle | resolving _ _ | searching _ _ | creating _ _ | appending _ _ _ | leaving _ _ _
  | calling _ _ _ =>
      rw [hcaller] at ht
      cases ht

/-- What the loops of `resolveLane` find. -/
theorem find_spec {laneKey : ExecutionLane} (hroot : laneKey ≠ .root) :
    (∀ l, c.findLane laneKey = some l → l ∈ c.documentLanes ∧ c.keyOf l = some laneKey) ∧
      (c.findLane laneKey = none → ∀ l ∈ c.documentLanes, c.keyOf l ≠ some laneKey) := by
  have hserves : ∀ l, ((c.lanes[l]?).any fun lane => lane.serves laneKey) = true ↔
      c.keyOf l = some laneKey := by
    intro l
    unfold keyOf
    cases c.lanes[l]? with
    | none => simp
    | some lane => simp [Lane.serves_iff hroot]
  constructor
  · intro l hfind
    unfold findLane at hfind
    have hfound := List.find?_some hfind
    exact ⟨List.mem_of_find?_eq_some hfind, (hserves l).mp hfound⟩
  · intro hfind l hl hkey
    exact List.find?_eq_none.mp hfind l hl ((hserves l).mpr hkey)

/-! ### Steps of a caller -/

variable [DecidableEq γ]

/-- How `lanes_mutex` may pass when thread `t` goes on at `k`. -/
def Passes (c : ServerExecutor γ ω) (t : γ) (k : Caller ω) (mutex : Option γ) : Prop :=
  mutex = c.lanesMutex ∧ (k.InRegistry ↔ (c.caller t).InRegistry) ∨
  c.lanesMutex = none ∧ mutex = some t ∧ k.InRegistry ∨
  c.lanesMutex = some t ∧ mutex = none ∧ ¬ k.InRegistry

theorem owner_goto (h : Registry c log) {k : Caller ω} {mutex : Option γ}
    (hpasses : Passes c t k mutex) (u : γ) :
    mutex = some u ↔ (Function.update c.caller t k u).InRegistry := by
  have howner := h.owner
  by_cases hu : u = t
  · subst hu
    rw [Function.update_self]
    rcases hpasses with ⟨rfl, hiff⟩ | ⟨-, rfl, hk⟩ | ⟨-, rfl, hk⟩
    · rw [howner u, hiff]
    · simp [hk]
    · simp [hk]
  · rw [Function.update_of_ne hu, ← howner u]
    rcases hpasses with ⟨rfl, -⟩ | ⟨hfree, rfl, -⟩ | ⟨hmutex, rfl, -⟩
    · rfl
    · simp [hfree, Ne.symm hu]
    · simp [hmutex, Ne.symm hu]

theorem fits_goto {k : Caller ω} (hk : c.Fits log k) (h : ∀ u, u ≠ t → c.Fits log (c.caller u))
    (u : γ) : c.Fits log (Function.update c.caller t k u) := by
  by_cases hu : u = t
  · subst hu
    rwa [Function.update_self]
  · rw [Function.update_of_ne hu]
    exact h u hu

/-- While a thread has `lanes_mutex`, what the others rely on survives its step. -/
theorem fits_goto_of_inRegistry (h : Registry c log) {k : Caller ω}
    (ht : (c.caller t).InRegistry) (hk : c'.Fits log' k) (hheld : ∀ l, c.Held l → c'.Held l)
    (hkey : ∀ l laneKey, c.keyOf l = some laneKey → c'.keyOf l = some laneKey) (u : γ) :
    c'.Fits log' (Function.update c.caller t k u) := by
  by_cases hu : u = t
  · subst hu
    rwa [Function.update_self]
  · rw [Function.update_of_ne hu]
    have hout : ¬ (c.caller u).InRegistry := fun hin => hu (h.alone ht hin)
    exact (h.fits u).outside hout hheld hkey

/-- A caller goes on, perhaps with `lanes_mutex` passing to it or from it. -/
theorem goto (h : Registry c log) {k : Caller ω} {mutex : Option γ} (hk : c.Fits log k)
    (hpasses : Passes c t k mutex) (hold : ∀ laneKey l queued, c.caller t ≠ .appending laneKey l queued) :
    Registry { c.goto t k with lanesMutex := mutex } log where
  root := h.root
  listed := h.listed
  distinct := h.distinct
  owner := h.owner_goto hpasses
  fits := fits_goto hk fun u _ => h.fits u
  made := by
    intro l laneKey hkey
    rcases h.made l laneKey hkey with hheld | habandoned | ⟨u, queued, hcaller⟩
    · exact .inl hheld
    · exact .inr (.inl habandoned)
    · refine .inr (.inr ⟨u, queued, ?_⟩)
      have hu : u ≠ t := by
        rintro rfl
        exact hold _ _ _ hcaller
      show Function.update c.caller t k u = _
      rw [Function.update_of_ne hu, hcaller]
  abandoned := h.abandoned
  quiet := h.quiet
  noted := h.noted

/-- A lane is made. -/
theorem create (h : Registry c log) {laneKey : ExecutionLane} {queued : ω}
    (ht : c.caller t = .creating laneKey queued) :
    Registry { c.goto t (.appending laneKey c.lanes.length queued) with
      lanes := c.lanes ++ [Lane.ofKey laneKey] } log := by
  have hfits := h.fits t
  rw [ht] at hfits
  obtain ⟨hroot, hnone⟩ := hfits
  have hin : (c.caller t).InRegistry := by
    rw [ht]
    trivial
  set c' : ServerExecutor γ ω := { c.goto t (.appending laneKey c.lanes.length queued) with
    lanes := c.lanes ++ [Lane.ofKey laneKey] } with hc'
  have hkeys : ∀ l, c'.keyOf l = if l = c.lanes.length then some laneKey else c.keyOf l := by
    intro l
    show (c.lanes ++ [Lane.ofKey laneKey])[l]?.map Lane.key = _
    split
    · rename_i hl
      rw [hl, List.getElem?_concat_length]
      exact congrArg some (Lane.key_ofKey laneKey)
    · rename_i hl
      by_cases hlt : l < c.lanes.length
      · rw [List.getElem?_append_left hlt]
        rfl
      · rw [List.getElem?_eq_none (by simp; omega), keyOf, List.getElem?_eq_none (by omega)]
  have hfresh : c.keyOf c.lanes.length = none := by
    rw [keyOf, List.getElem?_eq_none (Nat.le_refl _)]
    rfl
  have hkeep : ∀ {l k}, c.keyOf l = some k → c'.keyOf l = some k := by
    intro l k hkey
    rw [hkeys, if_neg]
    · exact hkey
    · rintro rfl
      rw [hfresh] at hkey
      cases hkey
  have hsame : ∀ {l}, c.Held l → c'.keyOf l = c.keyOf l := by
    intro l hl
    obtain ⟨k, hkey⟩ := h.keyOf_of_held hl
    rw [hkey, hkeep hkey]
  have hheld : ∀ l, c'.Held l ↔ c.Held l := fun l => Iff.rfl
  refine ⟨hkeep h.root, ?_, ?_, ?_, ?_, ?_, ?_, ?_, ?_⟩
  · intro l hl
    obtain ⟨k, hkey, hne⟩ := h.listed l hl
    exact ⟨k, hkeep hkey, hne⟩
  · refine h.distinct.imp_of_mem fun {l l'} hl hl' hne => ?_
    rwa [hsame (.inr hl), hsame (.inr hl')]
  · exact h.owner_goto (.inl ⟨rfl, by rw [ht]; exact Iff.rfl⟩)
  · refine h.fits_goto_of_inRegistry hin ?_ (fun l hl => hl) (fun l k hkey => hkeep hkey)
    refine ⟨hroot, fun l hl => ?_, by rw [hkeys, if_pos rfl], fun habandoned => ?_⟩
    · rw [hsame (.inr hl)]
      exact hnone l hl
    · obtain ⟨-, k, hkey⟩ := h.abandoned _ habandoned
      rw [hfresh] at hkey
      cases hkey
  · intro l k hkey
    rw [hkeys] at hkey
    split at hkey
    · rename_i hl
      cases hkey
      refine .inr (.inr ⟨t, queued, ?_⟩)
      show Function.update c.caller t _ t = _
      rw [Function.update_self, hl]
    · rcases h.made_of_inRegistry hin hkey with hl | habandoned | ⟨queued', hcaller⟩
      · exact .inl hl
      · exact .inr (.inl habandoned)
      · rw [ht] at hcaller
        cases hcaller
  · intro l habandoned
    obtain ⟨hnot, k, hkey⟩ := h.abandoned l habandoned
    exact ⟨hnot, k, hkeep hkey⟩
  · exact h.quiet
  · intro l hkey
    refine h.noted l ?_
    rw [hkeys] at hkey
    split at hkey
    · cases hkey
    · exact hkey

/-- The lane that was made is appended to `document_lanes`. -/
theorem append (h : Registry c log) {laneKey : ExecutionLane} {l : Nat} {queued : ω}
    (ht : c.caller t = .appending laneKey l queued) :
    Registry { c.goto t (.leaving laneKey (some l) queued) with
      documentLanes := c.documentLanes ++ [l] } log := by
  have hfits := h.fits t
  rw [ht] at hfits
  obtain ⟨hroot, hnone, hkey, hnot⟩ := hfits
  have hin : (c.caller t).InRegistry := by
    rw [ht]
    trivial
  set c' : ServerExecutor γ ω := { c.goto t (.leaving laneKey (some l) queued) with
    documentLanes := c.documentLanes ++ [l] } with hc'
  have hheld : ∀ l', c'.Held l' ↔ c.Held l' ∨ l' = l := by
    intro l'
    show l' = 0 ∨ l' ∈ c.documentLanes ++ [l] ↔ _
    simp only [Held, List.mem_append, List.mem_singleton, or_assoc]
  refine ⟨h.root, ?_, ?_, ?_, ?_, ?_, ?_, ?_, h.noted⟩
  · intro l' hl'
    rcases List.mem_append.mp hl' with hl' | hl'
    · exact h.listed l' hl'
    · rw [List.mem_singleton.mp hl']
      exact ⟨laneKey, hkey, hroot⟩
  · refine List.pairwise_append.mpr ⟨h.distinct, List.pairwise_singleton _ _, ?_⟩
    intro l' hl' l'' hl'' heq
    rw [List.mem_singleton.mp hl''] at heq
    exact hnone l' hl' (heq.trans hkey)
  · exact h.owner_goto (.inl ⟨rfl, by rw [ht]; exact Iff.rfl⟩)
  · refine h.fits_goto_of_inRegistry hin ?_ (fun l' hl' => (hheld l').mpr (.inl hl'))
      (fun l' k hkey => hkey)
    intro l' hl'
    obtain rfl := Option.some.inj hl'
    exact ⟨(hheld _).mpr (.inr rfl), hkey⟩
  · intro l' k hkey'
    rcases h.made_of_inRegistry hin hkey' with hl' | habandoned | ⟨queued', hcaller⟩
    · exact .inl ((hheld l').mpr (.inl hl'))
    · exact .inr (.inl habandoned)
    · rw [ht] at hcaller
      cases hcaller
      exact .inl ((hheld l).mpr (.inr rfl))
  · intro l' habandoned
    obtain ⟨hl', hexists⟩ := h.abandoned l' habandoned
    refine ⟨fun hin => ?_, hexists⟩
    rcases (hheld l').mp hin with hin | rfl
    · exact hl' hin
    · exact hnot habandoned
  · intro l' hl'
    exact h.quiet l' fun hin => hl' ((hheld l').mpr (.inl hin))

/-- The lane that was made is given up. -/
theorem abandon (h : Registry c log) {laneKey : ExecutionLane} {l : Nat} {queued : ω}
    (ht : c.caller t = .appending laneKey l queued) :
    Registry (c.goto t (.leaving laneKey none queued)) (log ++ [.abandoned l]) := by
  have hfits := h.fits t
  rw [ht] at hfits
  obtain ⟨hroot, hnone, hkey, hnot⟩ := hfits
  have hin : (c.caller t).InRegistry := by
    rw [ht]
    trivial
  have hheld : ¬ c.Held l := by
    rintro (rfl | hl)
    · rw [h.root] at hkey
      exact hroot (Option.some.inj hkey).symm
    · exact hnone l hl hkey
  have hnotes : ∀ l', notesOn l' (log ++ [.abandoned l]) = notesOn l' log := by
    intro l'
    simp [notesOn, Event.noteOn]
  refine ⟨h.root, h.listed, h.distinct, ?_, ?_, ?_, ?_, ?_, ?_⟩
  · exact h.owner_goto (.inl ⟨rfl, by rw [ht]; exact Iff.rfl⟩)
  · refine h.fits_goto_of_inRegistry hin ?_ (fun l' hl' => hl') (fun l' k hkey => hkey)
    intro l' hl'
    cases hl'
  · intro l' k hkey'
    rcases h.made_of_inRegistry hin hkey' with hl' | habandoned | ⟨queued', hcaller⟩
    · exact .inl hl'
    · exact .inr (.inl (List.mem_append_left _ habandoned))
    · rw [ht] at hcaller
      cases hcaller
      exact .inr (.inl (List.mem_append_right _ (List.mem_singleton_self _)))
  · intro l' habandoned
    rcases List.mem_append.mp habandoned with habandoned | heq
    · exact h.abandoned l' habandoned
    · cases List.mem_singleton.mp heq
      exact ⟨hheld, laneKey, hkey⟩
  · intro l' hl'
    rw [hnotes]
    exact h.quiet l' hl'
  · intro l' hl'
    rw [hnotes]
    exact h.noted l' hl'

/-- An action on a lane; only a lane that the executor points to gets work. -/
theorem onLane (h : Registry c log) {l : Nat} {a : WorkQueue.Action γ ω}
    (hact : c.onLane l a = some (e, c')) (happend : ∀ u item, a = .append u item → c.Held l) :
    Registry c' (log ++ e.toList) := by
  obtain ⟨lane, note, work, hlane, hdone, rfl, rfl⟩ := onLane_eq_some.mp hact
  have hkeys : ∀ l', keyOf { c with lanes := c.lanes.set l { lane with work := work } } l'
      = c.keyOf l' := by
    intro l'
    show (c.lanes.set l _)[l']?.map Lane.key = _
    rw [keyOf, List.getElem?_set]
    split
    · rename_i heq
      subst heq
      rw [if_pos (List.getElem?_eq_some_iff.mp hlane).1, hlane]
      rfl
    · rfl
  have hlost : ∀ {l'}, .abandoned l' ∈ log ++ (note.map (Event.noted l)).toList ↔
      .abandoned l' ∈ log := abandoned_append_noted
  have hfits : ∀ k, c.Fits log k →
      Fits { c with lanes := c.lanes.set l { lane with work := work } }
        (log ++ (note.map (Event.noted l)).toList) k := by
    intro k hk
    cases k with
    | idle | resolving _ _ => trivial
    | searching _ _ => exact hk
    | creating _ _ => exact ⟨hk.1, fun l' hl' => by rw [hkeys]; exact hk.2 l' hl'⟩
    | appending _ l₀ _ =>
        refine ⟨hk.1, fun l' hl' => by rw [hkeys]; exact hk.2.1 l' hl', ?_, ?_⟩
        · rw [hkeys]
          exact hk.2.2.1
        · rw [hlost]
          exact hk.2.2.2
    | leaving _ _ _ => exact fun l' hl' => ⟨(hk l' hl').1, by rw [hkeys]; exact (hk l' hl').2⟩
    | calling _ _ _ | inLane _ _ _ => exact ⟨hk.1, by rw [hkeys]; exact hk.2⟩
    | unlocking _ => exact hk
  refine ⟨by rw [hkeys]; exact h.root, ?_, ?_, h.owner, fun t => hfits _ (h.fits t), ?_, ?_, ?_, ?_⟩
  · intro l' hl'
    rw [hkeys]
    exact h.listed l' hl'
  · refine h.distinct.imp fun {l₁ l₂} hne => ?_
    rwa [hkeys, hkeys]
  · intro l' k hkey
    rw [hkeys] at hkey
    rw [hlost]
    exact h.made l' k hkey
  · intro l' habandoned
    rw [hlost] at habandoned
    rw [hkeys]
    exact h.abandoned l' habandoned
  · intro l' hl'
    rw [notesOn_append]
    by_cases heq : l = l'
    · subst heq
      rw [notesOn_noted, WorkQueue.enqueued, List.filterMap_append]
      have hbefore := h.quiet l hl'
      rw [WorkQueue.enqueued] at hbefore
      rw [hbefore, List.nil_append]
      exact WorkQueue.enqueued_of_act hdone fun u item ha => hl' (happend u item ha)
    · rw [notesOn_noted_of_ne heq, List.append_nil]
      exact h.quiet l' hl'
  · intro l' hkey
    rw [hkeys] at hkey
    have hne : l ≠ l' := by
      rintro rfl
      rw [keyOf, hlane] at hkey
      cases hkey
    rw [notesOn_append, notesOn_noted_of_ne hne, List.append_nil]
    exact h.noted l' hkey

/-- A caller goes on and acts on its lane. -/
theorem goto_onLane (h : Registry c log) {k : Caller ω} {l : Nat} {a : WorkQueue.Action γ ω}
    (hact : (c.goto t k).onLane l a = some (e, c')) (hk : c.Fits log k) (hout : ¬ k.InRegistry)
    (hbefore : ¬ (c.caller t).InRegistry)
    (happend : ∀ u item, a = .append u item → c.Held l) : Registry c' (log ++ e.toList) := by
  have hgoto : Registry (c.goto t k) log := by
    refine h.goto hk (.inl ⟨rfl, iff_of_false hout hbefore⟩) fun laneKey l queued hcaller => ?_
    rw [hcaller] at hbefore
    exact hbefore trivial
  exact hgoto.onLane hact happend

theorem resume (h : Registry c log) (hstep : Resumes c t e c') : Registry c' (log ++ e.toList) := by
  have hfits := h.fits t
  cases hstep with
  | root ht =>
      rw [Option.toList_none, List.append_nil]
      exact h.goto ⟨.inl rfl, h.root⟩ (.inl ⟨rfl, by rw [ht]; exact Iff.rfl⟩) (by simp [ht])
  | lock ht hroot hfree =>
      rw [Option.toList_none, List.append_nil]
      exact h.goto hroot (.inr (.inl ⟨hfree, rfl, trivial⟩)) (by simp [ht])
  | found ht hfind =>
      rw [ht] at hfits
      rw [Option.toList_none, List.append_nil]
      refine h.goto (fun l' hl' => ?_) (.inl ⟨rfl, by rw [ht]; exact Iff.rfl⟩) (by simp [ht])
      obtain rfl := Option.some.inj hl'
      obtain ⟨hmem, hkey⟩ := (find_spec hfits).1 _ hfind
      exact ⟨.inr hmem, hkey⟩
  | missing ht hfind =>
      rw [ht] at hfits
      rw [Option.toList_none, List.append_nil]
      exact h.goto ⟨hfits, (find_spec hfits).2 hfind⟩ (.inl ⟨rfl, by rw [ht]; exact Iff.rfl⟩)
        (by simp [ht])
  | created ht =>
      rw [Option.toList_none, List.append_nil]
      exact h.create ht
  | notCreated ht =>
      rw [Option.toList_none, List.append_nil]
      refine h.goto (fun l' hl' => ?_) (.inl ⟨rfl, by rw [ht]; exact Iff.rfl⟩) (by simp [ht])
      cases hl'
  | appended ht =>
      rw [Option.toList_none, List.append_nil]
      exact h.append ht
  | abandoned ht => exact h.abandon ht
  | resolved ht =>
      rw [ht] at hfits
      rw [Option.toList_none, List.append_nil]
      have hmutex := (h.owner t).mpr (by rw [ht]; trivial)
      exact h.goto (hfits _ rfl) (.inr (.inr ⟨hmutex, rfl, not_false⟩)) (by simp [ht])
  | failed ht =>
      rw [Option.toList_none, List.append_nil]
      have hmutex := (h.owner t).mpr (by rw [ht]; trivial)
      exact h.goto (k := .idle) trivial (.inr (.inr ⟨hmutex, rfl, not_false⟩)) (by simp [ht])
  | entered ht hact =>
      rw [ht] at hfits
      exact h.goto_onLane hact hfits not_false (by rw [ht]; exact not_false)
        fun _ _ heq => by cases heq
  | enqueued ht hact =>
      rw [ht] at hfits
      exact h.goto_onLane hact hfits.1 not_false (by rw [ht]; exact not_false) fun _ _ _ => hfits.1
  | notEnqueued ht =>
      rw [ht] at hfits
      rw [Option.toList_none, List.append_nil]
      exact h.goto (k := .unlocking _) hfits.1 (.inl ⟨rfl, by rw [ht]; exact Iff.rfl⟩)
        (by simp [ht])
  | left ht hact =>
      exact h.goto_onLane hact trivial not_false (by rw [ht]; exact not_false)
        fun _ _ heq => by cases heq

end Registry

end ServerExecutor

end Muxly.Server.Lanes
