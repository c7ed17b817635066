/-
# Muxly.Sync.Discipline -- rely/guarantee reasoning for lock programs

A `Discipline` says what the threads of one system promise each other. `inv` holds of every view.
`ok t H v` is what thread `t` publishes while it holds the mutexes `H`. `rely t H v v'` is what a
data step of another thread may do while `t` holds `H`. `cond` restricts the runs considered to
those whose data steps satisfy it.

`wp` walks a program and collects what is left to show: every lock respects `lockOk`, every unlock
gives back a mutex that is held, and every data step keeps `inv`, keeps what the thread publishes,
stays inside its guarantee `guar` and inside what every thread with a disjoint set of mutexes relies
on. A data step may use what the other threads publish (`Peers`). An assertion may be carried from
one step to the next when no permitted step of another thread can falsify it (`Stable`).

`Follows.reaches` turns a proof for every thread into a fact about every reachable state, and
`Follows.guarantees` into a fact about every step between them.
-/
import Mathlib.Data.Set.Lattice
import Mathlib.Order.CompletePartialOrder
import Muxly.Sync.Program

namespace Muxly.Sync

/-- What the threads of a system promise each other. -/
structure Discipline (μ σ ℓ : Type) where
  /-- A thread that holds `H` may wait for `m`. -/
  lockOk : Set μ → μ → Prop
  /-- The invariant of the shared view. -/
  inv : View σ ℓ → Prop
  /-- What thread `t` publishes while it holds `H`. -/
  ok : Nat → Set μ → View σ ℓ → Prop
  /-- What the step of another thread may do while thread `t` holds `H`. -/
  rely : Nat → Set μ → View σ ℓ → View σ ℓ → Prop
  /-- What a data step of thread `t` may do while it holds `H`. -/
  guar : Nat → Set μ → View σ ℓ → View σ ℓ → Prop
  /-- The data steps of the runs considered. -/
  cond : Nat → View σ ℓ → View σ ℓ → Prop
  /-- Holding more mutexes permits less to the others. -/
  rely_mono : ∀ {t H H' v v'}, H ⊆ H' → rely t H' v v' → rely t H v v'
  /-- What a thread publishes survives every permitted step of the others. -/
  ok_stable : ∀ {t H v v'}, inv v → inv v' → ok t H v → rely t H v v' → ok t H v'

namespace Discipline

variable {μ σ ℓ ε α β : Type} (D : Discipline μ σ ℓ)

/-- Facts about the shared view. -/
abbrev Assertion (σ ℓ : Type) := View σ ℓ → Prop

/-- No permitted step of another thread falsifies `A` while `t` holds `H`. -/
def Stable (t : Nat) (H : Set μ) (A : Assertion σ ℓ) : Prop :=
  ∀ v v', D.inv v → D.inv v' → D.ok t H v → A v → D.rely t H v v' → A v'

/-- Every other thread publishes something with mutexes of its own. -/
def Peers (t : Nat) (H : Set μ) (v : View σ ℓ) : Prop :=
  ∀ u, u ≠ t → ∃ H', Disjoint H H' ∧ D.ok u H' v

/-- A data step from `v` to `v'` by thread `t` with `H` is permitted. -/
structure Permitted (t : Nat) (H : Set μ) (v v' : View σ ℓ) : Prop where
  inv : D.inv v'
  ok : D.ok t H v'
  guar : D.guar t H v v'
  others : ∀ u, u ≠ t → ∀ H', Disjoint H H' → D.ok u H' v → D.rely u H' v v'

/-- What must hold for the rest of the program to keep the discipline, ending in `Q`. -/
def wp (t : Nat) : Program μ σ ℓ ε α →
    (Except ε α → Set μ → Assertion σ ℓ → Prop) → Set μ → Assertion σ ℓ → Prop
  | .ret r, Q, H, A => Q r H A
  | .lock m rest, Q, H, A => (∀ v, D.inv v → A v → D.ok t H v → D.lockOk H m) ∧ (m ∉ H →
      ∃ B : Assertion σ ℓ, D.Stable t (insert m H) B ∧
        (∀ v, D.inv v → A v → D.ok t H v → B v ∧ D.ok t (insert m H) v) ∧
        wp t rest Q (insert m H) B)
  | .unlock m rest, Q, H, A => m ∈ H ∧ ∃ B : Assertion σ ℓ, D.Stable t (H \ {m}) B ∧
      (∀ v, D.inv v → A v → D.ok t H v → B v ∧ D.ok t (H \ {m}) v) ∧ wp t rest Q (H \ {m}) B
  | .step update tag rest, Q, H, A => ∀ v, D.inv v → A v → D.ok t H v → D.Peers t H v →
      D.cond t v (Config.stepView v t update tag) →
      D.Permitted t H v (Config.stepView v t update tag) ∧
      ∃ B : Assertion σ ℓ, D.Stable t H B ∧ B (Config.stepView v t update tag) ∧
        wp t (rest v.shared) Q H B

/-- A postcondition that survives stronger assertions. -/
def Closed (Q : Except ε α → Set μ → Assertion σ ℓ → Prop) : Prop :=
  ∀ r H A B, (∀ v, D.inv v → A v → B v) → Q r H B → Q r H A

variable {D}

/-! ## Structural rules -/

theorem stable_of_subset {t : Nat} {H H' : Set μ} {A : Assertion σ ℓ} (hsub : H ⊆ H')
    (hok : ∀ v, D.inv v → A v → D.ok t H' v → D.ok t H v) (h : D.Stable t H A) :
    D.Stable t H' A := by
  intro v v' hv hv' hok' hA hr
  exact h v v' hv hv' (hok v hv hA hok') hA (D.rely_mono hsub hr)

theorem stable_true (t : Nat) (H : Set μ) : D.Stable t H fun _ => True :=
  fun _ _ _ _ _ _ _ => trivial

theorem Stable.and {t : Nat} {H : Set μ} {A B : Assertion σ ℓ} (hA : D.Stable t H A)
    (hB : D.Stable t H B) : D.Stable t H fun v => A v ∧ B v := by
  intro v v' hv hv' hok h hr
  exact ⟨hA v v' hv hv' hok h.1 hr, hB v v' hv hv' hok h.2 hr⟩

theorem wp_mono {t : Nat} {p : Program μ σ ℓ ε α}
    {Q Q' : Except ε α → Set μ → Assertion σ ℓ → Prop} (hQ : ∀ r H A, Q r H A → Q' r H A)
    {H : Set μ} {A : Assertion σ ℓ} (h : D.wp t p Q H A) : D.wp t p Q' H A := by
  induction p generalizing H A with
  | ret r => exact hQ r H A h
  | lock m rest ih =>
      refine ⟨h.1, fun hm => ?_⟩
      obtain ⟨B, hB, hpub, hrest⟩ := h.2 hm
      exact ⟨B, hB, hpub, ih hrest⟩
  | unlock m rest ih =>
      obtain ⟨hm, B, hB, hpub, hrest⟩ := h
      exact ⟨hm, B, hB, hpub, ih hrest⟩
  | step update tag rest ih =>
      intro v hv hA hok hpeers hcond
      obtain ⟨hperm, B, hB, hBv, hrest⟩ := h v hv hA hok hpeers hcond
      exact ⟨hperm, B, hB, hBv, ih v.shared hrest⟩

/-- A proof from a weaker assertion is a proof from a stronger one. -/
theorem wp_pre {t : Nat} {p : Program μ σ ℓ ε α}
    {Q : Except ε α → Set μ → Assertion σ ℓ → Prop} (hQ : D.Closed Q) {H : Set μ}
    {A B : Assertion σ ℓ} (hAB : ∀ v, D.inv v → A v → B v) (h : D.wp t p Q H B) :
    D.wp t p Q H A := by
  cases p with
  | ret r => exact hQ r H A B hAB h
  | lock m rest =>
      refine ⟨fun v hv hA hok => h.1 v hv (hAB v hv hA) hok, fun hm => ?_⟩
      obtain ⟨B', hB', hpub, hrest⟩ := h.2 hm
      exact ⟨B', hB', fun v hv hA hok => hpub v hv (hAB v hv hA) hok, hrest⟩
  | unlock m rest =>
      obtain ⟨hm, B', hB', hpub, hrest⟩ := h
      exact ⟨hm, B', hB', fun v hv hA hok => hpub v hv (hAB v hv hA) hok, hrest⟩
  | step update tag rest =>
      intro v hv hA hok hpeers hcond
      exact h v hv (hAB v hv hA) hok hpeers hcond

theorem wp_bindResult (t : Nat) (p : Program μ σ ℓ ε α)
    (k : Except ε α → Program μ σ ℓ ε β)
    (Q : Except ε β → Set μ → Assertion σ ℓ → Prop) (H : Set μ) (A : Assertion σ ℓ) :
    D.wp t (p.bindResult k) Q H A ↔ D.wp t p (fun r H A => D.wp t (k r) Q H A) H A := by
  induction p generalizing H A with
  | ret r => rfl
  | lock m rest ih => simp only [Program.bindResult, wp, ih]
  | unlock m rest ih => simp only [Program.bindResult, wp, ih]
  | step update tag rest ih => simp only [Program.bindResult, wp, ih]

theorem closed_wp {t : Nat} {k : Except ε α → Program μ σ ℓ ε β}
    {Q : Except ε β → Set μ → Assertion σ ℓ → Prop} (hQ : D.Closed Q) :
    D.Closed fun r H A => D.wp t (k r) Q H A :=
  fun _ _ _ _ hAB h => wp_pre hQ hAB h

/-! ## Code that gives back what it takes -/

/-- `p` ends with the mutexes it started with, and then asserts something about its result. -/
def Ensures (D : Discipline μ σ ℓ) (t : Nat) (H : Set μ) (A : Assertion σ ℓ)
    (p : Program μ σ ℓ ε α) (P : Except ε α → Assertion σ ℓ) : Prop :=
  D.wp t p (fun r H' B => H' = H ∧ ∀ v, D.inv v → B v → P r v) H A

/-- `p` ends with the mutexes it started with, and leads from `A` to `B` whatever it returns. -/
abbrev Leads (D : Discipline μ σ ℓ) (t : Nat) (H : Set μ) (A : Assertion σ ℓ)
    (p : Program μ σ ℓ ε α) (B : Assertion σ ℓ) : Prop := D.Ensures t H A p fun _ => B

/-- `p` ends with the mutexes and the assertion it started with. -/
abbrev Keeps (D : Discipline μ σ ℓ) (t : Nat) (H : Set μ) (A : Assertion σ ℓ)
    (p : Program μ σ ℓ ε α) : Prop := D.Ensures t H A p fun _ => A

section Rules

variable {t : Nat} {H : Set μ} {A : Assertion σ ℓ} {p : Program μ σ ℓ ε α}
  {P : Except ε α → Assertion σ ℓ}

/-- What follows code that gives back what it takes. -/
theorem Ensures.wp_bindResult (h : D.Ensures t H A p P) {k : Except ε α → Program μ σ ℓ ε β}
    {Q : Except ε β → Set μ → Assertion σ ℓ → Prop} (hQ : D.Closed Q)
    (hk : ∀ r, D.wp t (k r) Q H (P r)) : D.wp t (p.bindResult k) Q H A := by
  rw [Discipline.wp_bindResult]
  refine wp_mono (fun r H' B hr => ?_) h
  obtain ⟨rfl, hB⟩ := hr
  exact wp_pre hQ hB (hk r)

theorem closed_ensures (H : Set μ) (P : Except ε α → Assertion σ ℓ) :
    D.Closed fun r H' B => H' = H ∧ ∀ v, D.inv v → B v → P r v :=
  fun _ _ _ _ hAB h => ⟨h.1, fun v hv hA => h.2 v hv (hAB v hv hA)⟩

theorem Ensures.bind {P' : Except ε β → Assertion σ ℓ} (h : D.Ensures t H A p P)
    {k : Except ε α → Program μ σ ℓ ε β} (hk : ∀ r, D.Ensures t H (P r) (k r) P') :
    D.Ensures t H A (p.bindResult k) P' :=
  h.wp_bindResult (closed_ensures H P') hk

theorem Ensures.ret {r : Except ε α} (h : ∀ v, D.inv v → A v → P r v) :
    D.Ensures t H A (.ret r) P := ⟨rfl, h⟩

theorem Ensures.mono {A' : Assertion σ ℓ} {P' : Except ε α → Assertion σ ℓ}
    (h : D.Ensures t H A p P) (hA : ∀ v, D.inv v → A' v → A v)
    (hP : ∀ r v, D.inv v → P r v → P' r v) : D.Ensures t H A' p P' := by
  refine wp_pre (closed_ensures H P') hA (wp_mono (fun r H' B hr => ?_) h)
  exact ⟨hr.1, fun v hv hB => hP r v hv (hr.2 v hv hB)⟩

theorem Ensures.pre {A' : Assertion σ ℓ} (h : D.Ensures t H A p P)
    (hA : ∀ v, D.inv v → A' v → A v) : D.Ensures t H A' p P :=
  h.mono hA fun _ _ _ hP => hP

theorem Ensures.post {P' : Except ε α → Assertion σ ℓ} (h : D.Ensures t H A p P)
    (hP : ∀ r v, D.inv v → P r v → P' r v) : D.Ensures t H A p P' :=
  h.mono (fun _ _ hA => hA) hP

/-- Where the first part fails the second one does not run. -/
theorem Ensures.leads {B : Assertion σ ℓ} (h : D.Ensures t H A p P)
    {k : α → Program μ σ ℓ ε β} (hk : ∀ a, D.Leads t H (P (.ok a)) (k a) B)
    (herror : ∀ e v, D.inv v → P (.error e) v → B v) : D.Leads t H A (p >>= k) B := by
  refine h.bind fun r => ?_
  cases r with
  | ok a => exact hk a
  | error e => exact .ret (herror e)

theorem Ensures.seq (h : D.Keeps t H A p) {k : α → Program μ σ ℓ ε β}
    (hk : ∀ a, D.Keeps t H A (k a)) : D.Keeps t H A (p >>= k) :=
  Ensures.leads h hk fun _ _ _ hA => hA

/-- A data step whose assertion is stable for every result. -/
theorem ensures_actTag {f : σ → Except ε α × σ} {tag : σ → ℓ → ℓ}
    (hstable : ∀ r, D.Stable t H (P r))
    (h : ∀ v, D.inv v → A v → D.ok t H v → D.Peers t H v →
      D.cond t v (Config.stepView v t (fun s => (f s).2) tag) →
      D.Permitted t H v (Config.stepView v t (fun s => (f s).2) tag) ∧
        P (f v.shared).1 (Config.stepView v t (fun s => (f s).2) tag)) :
    D.Ensures t H A (Program.actTag f tag) P := by
  intro v hv hA hok hpeers hcond
  obtain ⟨hperm, hP⟩ := h v hv hA hok hpeers hcond
  exact ⟨hperm, P (f v.shared).1, hstable _, hP, rfl, fun _ _ hB => hB⟩

/-- A critical section whose assertion needs nothing but what was asserted before. A thread that
holds the mutex already never gets past the lock. -/
theorem ensures_withMutex {m : μ} {P' : Except ε α → Assertion σ ℓ}
    (hlock : ∀ v, D.inv v → A v → D.ok t H v → D.lockOk H m)
    (htake : ∀ v, D.inv v → A v → D.ok t H v → D.ok t (insert m H) v)
    (hA : D.Stable t (insert m H) A) (hbody : D.Ensures t (insert m H) A p P)
    (hgive : ∀ r v, D.inv v → P r v → D.ok t (insert m H) v → P' r v ∧ D.ok t H v)
    (hP : ∀ r, D.Stable t H (P' r)) : D.Ensures t H A (Program.withMutex m p) P' := by
  refine ⟨hlock, fun hm => ⟨A, hA, fun v hv hAv hok => ⟨hAv, htake v hv hAv hok⟩, ?_⟩⟩
  have hback : insert m H \ {m} = H := Set.insert_sdiff_self_of_notMem hm
  refine hbody.wp_bindResult (closed_ensures H P') fun r => ?_
  refine ⟨Set.mem_insert m H, P' r, by rw [hback]; exact hP r, fun v hv hB hok => ?_, hback,
    fun v _ hB => hB⟩
  rw [hback]
  exact hgive r v hv hB hok

theorem keeps_forEach {γ : Type} {xs : List γ} {body : γ → Program μ σ ℓ ε Unit}
    (h : ∀ x ∈ xs, D.Keeps t H A (body x)) : D.Keeps t H A (Program.forEach xs body) := by
  induction xs with
  | nil => exact .ret fun _ _ hA => hA
  | cons x rest ih =>
      refine (h x (List.mem_cons_self ..)).bind fun r => ?_
      cases r with
      | ok _ => exact ih fun y hy => h y (List.mem_cons_of_mem _ hy)
      | error e => exact .ret fun _ _ hA => hA

end Rules

/-! ## The whole system -/

/-- Thread `t` of a configuration follows the discipline. -/
def ThreadOk (D : Discipline μ σ ℓ) (c : Config μ σ ℓ ε α) (t : Nat) : Prop :=
  ∃ (H : Set μ) (A : Assertion σ ℓ), (∀ m, c.owner m = some t ↔ m ∈ H) ∧ A c.view ∧
    D.Stable t H A ∧ D.ok t H c.view ∧ D.wp t (c.thread t) (fun _ _ _ => True) H A

/-- Every thread of a configuration follows the discipline, and the invariant holds. -/
structure Follows (D : Discipline μ σ ℓ) (c : Config μ σ ℓ ε α) : Prop where
  inv : D.inv c.view
  thread : ∀ t, D.ThreadOk c t

theorem disjoint_held {c : Config μ σ ℓ ε α} {t u : Nat} (htu : u ≠ t) {H H' : Set μ}
    (hH : ∀ m, c.owner m = some t ↔ m ∈ H) (hH' : ∀ m, c.owner m = some u ↔ m ∈ H') :
    Disjoint H H' := by
  refine Set.disjoint_left.mpr fun m hm hm' => ?_
  have ht := (hH m).mpr hm
  have hu := (hH' m).mpr hm'
  rw [ht] at hu
  exact htu (Option.some.inj hu).symm

theorem Follows.peers {c : Config μ σ ℓ ε α} (h : D.Follows c) {t : Nat} {H : Set μ}
    (hH : ∀ m, c.owner m = some t ↔ m ∈ H) : D.Peers t H c.view := by
  intro u hut
  obtain ⟨H', -, hH', -, -, hok, -⟩ := h.thread u
  exact ⟨H', disjoint_held hut hH hH', hok⟩

/-- A data step of a thread that follows the discipline is permitted. -/
theorem Follows.permitted {c : Config μ σ ℓ ε α} (h : D.Follows c) {t : Nat} {update : σ → σ}
    {tag : σ → ℓ → ℓ} {rest : σ → Program μ σ ℓ ε α} (ht : c.thread t = .step update tag rest)
    (hcond : D.cond t c.view (Config.stepView c.view t update tag)) :
    ∃ H, (∀ m, c.owner m = some t ↔ m ∈ H) ∧ D.ok t H c.view ∧
      D.Permitted t H c.view (Config.stepView c.view t update tag) := by
  obtain ⟨H, A, hH, hA, -, hok, hwp⟩ := h.thread t
  rw [ht] at hwp
  exact ⟨H, hH, hok, (hwp _ h.inv hA hok (h.peers hH) hcond).1⟩

/-- A data step keeps the discipline: the thread by its own proof, the others because what they
assert is stable. -/
theorem Follows.dataStep {c : Config μ σ ℓ ε α} (h : D.Follows c) {t : Nat} {update : σ → σ}
    {tag : σ → ℓ → ℓ} {rest : σ → Program μ σ ℓ ε α} (ht : c.thread t = .step update tag rest)
    (hcond : D.cond t c.view (Config.stepView c.view t update tag)) :
    D.Follows { c with
      view := Config.stepView c.view t update tag
      thread := Function.update c.thread t (rest c.view.shared) } := by
  obtain ⟨H, A, hH, hA, -, hok, hwp⟩ := h.thread t
  rw [ht] at hwp
  obtain ⟨hperm, B, hB, hBv, hrest⟩ := hwp _ h.inv hA hok (h.peers hH) hcond
  refine ⟨hperm.inv, fun u => ?_⟩
  by_cases hut : u = t
  · subst hut
    exact ⟨H, B, hH, hBv, hB, hperm.ok, by simpa using hrest⟩
  · obtain ⟨H', A', hH', hA', hst', hok', hwp'⟩ := h.thread u
    have hrely := hperm.others u hut H' (disjoint_held hut hH hH') hok'
    refine ⟨H', A', hH', hst' _ _ h.inv hperm.inv hok' hA' hrely, hst',
      D.ok_stable h.inv hperm.inv hok' hrely, ?_⟩
    simpa [Function.update_of_ne hut] using hwp'

section Runs

variable [DecidableEq μ]

/-- A lock or unlock of thread `t` leaves every other thread as it was. -/
theorem ThreadOk.frame_owner {c : Config μ σ ℓ ε α} {t u : Nat} (hut : u ≠ t) {m : μ}
    {o : Option Nat} {rest : Program μ σ ℓ ε α} (ho : o ≠ some u) (hm : c.owner m ≠ some u)
    (h : D.ThreadOk c u) :
    D.ThreadOk { c with
      owner := Function.update c.owner m o
      thread := Function.update c.thread t rest } u := by
  obtain ⟨H, A, hH, hA, hst, hok, hwp⟩ := h
  refine ⟨H, A, fun m' => ?_, hA, hst, hok, ?_⟩
  · by_cases hmm : m' = m
    · subst hmm
      simp only [Function.update_self]
      exact ⟨fun h => absurd h ho, fun h => absurd ((hH m').mpr h) hm⟩
    · simpa only [Function.update_of_ne hmm] using hH m'
  · simpa only [Function.update_of_ne hut] using hwp

/-- Taking a free mutex keeps the discipline. -/
theorem Follows.lock {c : Config μ σ ℓ ε α} (h : D.Follows c) {t : Nat} {m : μ}
    {rest : Program μ σ ℓ ε α} (ht : c.thread t = .lock m rest) (hfree : c.owner m = none) :
    D.Follows { c with
      owner := Function.update c.owner m (some t)
      thread := Function.update c.thread t rest } := by
  refine ⟨h.inv, fun u => ?_⟩
  by_cases hut : u = t
  · subst hut
    obtain ⟨H, A, hH, hA, -, hok, hwp⟩ := h.thread u
    rw [ht] at hwp
    have hmH : m ∉ H := fun hm => by simpa [hfree] using (hH m).mpr hm
    obtain ⟨B, hB, hpub, hrest⟩ := hwp.2 hmH
    obtain ⟨hBv, hok'⟩ := hpub _ h.inv hA hok
    refine ⟨insert m H, B, fun m' => ?_, hBv, hB, hok', by simpa using hrest⟩
    by_cases hmm : m' = m
    · simp [hmm]
    · simp [hH m', hmm]
  · exact (h.thread u).frame_owner hut (by simpa using fun h => hut h.symm) (by simp [hfree])

/-- Giving a mutex back keeps the discipline. -/
theorem Follows.unlock {c : Config μ σ ℓ ε α} (h : D.Follows c) {t : Nat} {m : μ}
    {rest : Program μ σ ℓ ε α} (ht : c.thread t = .unlock m rest)
    (hown : c.owner m = some t) :
    D.Follows { c with
      owner := Function.update c.owner m none
      thread := Function.update c.thread t rest } := by
  refine ⟨h.inv, fun u => ?_⟩
  by_cases hut : u = t
  · subst hut
    obtain ⟨H, A, hH, hA, -, hok, hwp⟩ := h.thread u
    rw [ht] at hwp
    obtain ⟨-, B, hB, hpub, hrest⟩ := hwp
    obtain ⟨hBv, hok'⟩ := hpub _ h.inv hA hok
    refine ⟨H \ {m}, B, fun m' => ?_, hBv, hB, hok', by simpa using hrest⟩
    by_cases hmm : m' = m
    · simp [hmm]
    · simp [hH m', hmm]
  · refine (h.thread u).frame_owner hut (by simp) ?_
    rw [hown]
    exact fun h => hut (Option.some.inj h).symm

/-- One step of any thread keeps the discipline. -/
theorem Follows.next {c c' : Config μ σ ℓ ε α} (h : D.Follows c) {t : Nat}
    (hstep : c.next t = some c') (hcond : D.cond t c.view c'.view) : D.Follows c' := by
  unfold Config.next at hstep
  split at hstep
  · cases hstep
  · rename_i m rest heq
    split at hstep
    · rename_i hfree
      cases hstep
      exact h.lock heq hfree
    · cases hstep
  · rename_i m rest heq
    split at hstep
    · rename_i hown
      cases hstep
      exact h.unlock heq hown
    · cases hstep
  · rename_i update tag rest heq
    cases hstep
    exact h.dataStep heq hcond

/-- Every step of a system that follows the discipline leaves the view alone or stays inside the
guarantee of its thread. -/
theorem Follows.guarantees {c c' : Config μ σ ℓ ε α} (h : D.Follows c) {t : Nat}
    (hstep : c.next t = some c') (hcond : D.cond t c.view c'.view) :
    c'.view = c.view ∨ ∃ H, D.ok t H c.view ∧ D.guar t H c.view c'.view := by
  unfold Config.next at hstep
  split at hstep
  · cases hstep
  · split at hstep
    · cases hstep
      exact .inl rfl
    · cases hstep
  · split at hstep
    · cases hstep
      exact .inl rfl
    · cases hstep
  · rename_i update tag rest heq
    cases hstep
    obtain ⟨H, -, hok, hperm⟩ := h.permitted heq hcond
    exact .inr ⟨H, hok, hperm.guar⟩

/-- Every state that a run reaches keeps the discipline. -/
theorem Follows.reaches {start c : Config μ σ ℓ ε α} (h : D.Follows start)
    (hc : Config.Reaches D.cond start c) : D.Follows c := by
  induction hc with
  | refl => exact h
  | step t _ hstep hcond ih => exact ih.next hstep hcond

end Runs

end Discipline

end Muxly.Sync
