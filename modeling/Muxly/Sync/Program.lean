/-
# Muxly.Sync.Program -- lock-structured programs and their two readings

A `Program` is the code of one thread that shares a state `σ` with other threads and protects it
with mutexes named by `μ`. It is a tree: take a mutex, give a mutex back, do one data step on the
shared state, or stop with a result. Everything a thread does between two lock operations is one
or more data steps, so the granularity of a run is the lock level.

A thread also carries a tag in `ℓ`. Tags never influence control flow; they are auxiliary variables
that let a statement speak about the phase a thread is in.

The same tree is read twice. `Program.solo` runs it alone, remembering the mutexes it holds, and
stops when it asks for one it already holds. `Config.next` runs one step of one thread among many.
-/
import Mathlib.Logic.Function.Basic

namespace Muxly.Sync

/-- The code of one thread. -/
inductive Program (μ σ ℓ ε α : Type) where
  /-- Stop with a value or an error. -/
  | ret (result : Except ε α)
  /-- Wait until `m` is free and take it. -/
  | lock (m : μ) (rest : Program μ σ ℓ ε α)
  /-- Give `m` back. -/
  | unlock (m : μ) (rest : Program μ σ ℓ ε α)
  /-- One data step: `rest` sees the state before the update. -/
  | step (update : σ → σ) (tag : σ → ℓ → ℓ) (rest : σ → Program μ σ ℓ ε α)

namespace Program

variable {μ σ ℓ ε α β γ : Type}

/-! ## Sequencing -/

/-- Continue with the result of `p`, whatever it is. -/
def bindResult : Program μ σ ℓ ε α → (Except ε α → Program μ σ ℓ ε β) → Program μ σ ℓ ε β
  | .ret r, k => k r
  | .lock m rest, k => .lock m (bindResult rest k)
  | .unlock m rest, k => .unlock m (bindResult rest k)
  | .step update tag rest, k => .step update tag fun s => bindResult (rest s) k

/-- Continue with the value of `p`; an error skips the continuation. -/
def onOk (k : α → Program μ σ ℓ ε β) : Except ε α → Program μ σ ℓ ε β
  | .ok a => k a
  | .error e => .ret (.error e)

instance : Monad (Program μ σ ℓ ε) where
  pure a := .ret (.ok a)
  bind p k := bindResult p (onOk k)

instance : MonadExcept ε (Program μ σ ℓ ε) where
  throw e := .ret (.error e)
  tryCatch p handler := bindResult p fun
    | .ok a => .ret (.ok a)
    | .error e => handler e

/-- `cleanup` runs after `body`, on success and on failure; the result is the one of `body`. -/
def ensure (body : Program μ σ ℓ ε α) (cleanup : Program μ σ ℓ ε Unit) : Program μ σ ℓ ε α :=
  bindResult body fun r => bindResult cleanup fun _ => .ret r

/-- `cleanup` runs after `body` only when `body` fails. -/
def onError (body : Program μ σ ℓ ε α) (cleanup : Program μ σ ℓ ε Unit) : Program μ σ ℓ ε α :=
  bindResult body fun
    | .ok a => .ret (.ok a)
    | .error e => bindResult cleanup fun _ => .ret (.error e)

/-- Run `body` for every element of a list, in order. -/
def forEach (xs : List α) (body : α → Program μ σ ℓ ε Unit) : Program μ σ ℓ ε Unit :=
  match xs with
  | [] => .ret (.ok ())
  | x :: rest => bindResult (body x) (onOk fun _ => forEach rest body)

/-! ## Single operations -/

/-- Take one mutex. -/
def acquire (m : μ) : Program μ σ ℓ ε Unit := .lock m (.ret (.ok ()))

/-- Give one mutex back. -/
def release (m : μ) : Program μ σ ℓ ε Unit := .unlock m (.ret (.ok ()))

/-- One data step that may fail, and that moves the tag of the thread. -/
def actTag (f : σ → Except ε α × σ) (tag : σ → ℓ → ℓ) : Program μ σ ℓ ε α :=
  .step (fun s => (f s).2) tag fun s => .ret (f s).1

/-- One data step that may fail. -/
def act (f : σ → Except ε α × σ) : Program μ σ ℓ ε α := actTag f fun _ l => l

/-- One data step that only reads. -/
def read (f : σ → Except ε α) : Program μ σ ℓ ε α := act fun s => (f s, s)

/-- One step that only moves the tag of the thread. -/
def mark (tag : σ → ℓ → ℓ) : Program μ σ ℓ ε Unit := actTag (fun s => (.ok (), s)) tag

/-- Hold `m` while `body` runs, on every exit of `body`. -/
def withMutex (m : μ) (body : Program μ σ ℓ ε α) : Program μ σ ℓ ε α :=
  .lock m (ensure body (release m))

@[simp] theorem bind_eq (p : Program μ σ ℓ ε α) (k : α → Program μ σ ℓ ε β) :
    (p >>= k) = bindResult p (onOk k) := rfl

@[simp] theorem pure_eq (a : α) : (pure a : Program μ σ ℓ ε α) = .ret (.ok a) := rfl

@[simp] theorem throw_eq (e : ε) : (throw e : Program μ σ ℓ ε α) = .ret (.error e) := rfl

theorem bindResult_assoc (p : Program μ σ ℓ ε α) (k : Except ε α → Program μ σ ℓ ε β)
    (h : Except ε β → Program μ σ ℓ ε γ) :
    bindResult (bindResult p k) h = bindResult p fun r => bindResult (k r) h := by
  induction p with
  | ret r => rfl
  | lock m rest ih => simp only [bindResult, ih]
  | unlock m rest ih => simp only [bindResult, ih]
  | step update tag rest ih => simp only [bindResult, ih]

theorem bind_assoc (p : Program μ σ ℓ ε α) (k : α → Program μ σ ℓ ε β)
    (h : β → Program μ σ ℓ ε γ) :
    (p >>= k >>= h) = (p >>= fun a => k a >>= h) := by
  simp only [bind_eq, bindResult_assoc]
  congr 1
  funext r
  cases r <;> rfl

/-! ## Running alone -/

/-- How a program that runs alone stops. -/
inductive Stop (μ ε α : Type) where
  /-- It returned. -/
  | done (result : Except ε α)
  /-- It asked for a mutex it holds itself: with a non-recursive mutex it waits for ever. -/
  | selfLock (m : μ)

variable [DecidableEq μ]

/-- Run a program with no other thread, from the mutexes it holds and the shared state. -/
def solo : Program μ σ ℓ ε α → List μ → σ → Stop μ ε α × List μ × σ
  | .ret r, held, s => (.done r, held, s)
  | .lock m rest, held, s => if m ∈ held then (.selfLock m, held, s) else solo rest (m :: held) s
  | .unlock m rest, held, s => solo rest (held.erase m) s
  | .step update _ rest, held, s => solo (rest s) held (update s)

/-- What a solo run does after the first part has stopped. -/
def soloNext (k : Except ε α → Program μ σ ℓ ε β) :
    Stop μ ε α × List μ × σ → Stop μ ε β × List μ × σ
  | (.done r, held, s) => solo (k r) held s
  | (.selfLock m, held, s) => (.selfLock m, held, s)

theorem solo_bindResult (p : Program μ σ ℓ ε α) (k : Except ε α → Program μ σ ℓ ε β)
    (held : List μ) (s : σ) :
    solo (bindResult p k) held s = soloNext k (solo p held s) := by
  induction p generalizing held s with
  | ret r => rfl
  | lock m rest ih =>
      simp only [bindResult, solo]
      split
      · rfl
      · exact ih _ _
  | unlock m rest ih => simp only [bindResult, solo, ih]
  | step update tag rest ih => simp only [bindResult, solo, ih]

end Program

/-! ## Threads side by side -/

/-- The auxiliary view of a run: the shared state and the tag of every thread. -/
structure View (σ ℓ : Type) where
  shared : σ
  tag : Nat → ℓ

/-- A state of a run: the view, the owner of every mutex, and what is left of every thread. -/
structure Config (μ σ ℓ ε α : Type) where
  view : View σ ℓ
  owner : μ → Option Nat
  thread : Nat → Program μ σ ℓ ε α

namespace Config

variable {μ σ ℓ ε α : Type} [DecidableEq μ]

/-- The view after a data step of thread `t`. -/
def stepView (v : View σ ℓ) (t : Nat) (update : σ → σ) (tag : σ → ℓ → ℓ) : View σ ℓ where
  shared := update v.shared
  tag := Function.update v.tag t (tag v.shared (v.tag t))

@[simp] theorem stepView_shared (v : View σ ℓ) (t : Nat) (update : σ → σ) (tag : σ → ℓ → ℓ) :
    (stepView v t update tag).shared = update v.shared := rfl

@[simp] theorem stepView_tag_self (v : View σ ℓ) (t : Nat) (update : σ → σ) (tag : σ → ℓ → ℓ) :
    (stepView v t update tag).tag t = tag v.shared (v.tag t) := Function.update_self ..

theorem stepView_tag_of_ne (v : View σ ℓ) {t u : Nat} (h : u ≠ t) (update : σ → σ)
    (tag : σ → ℓ → ℓ) : (stepView v t update tag).tag u = v.tag u := Function.update_of_ne h ..

/-- A data step that changes neither the state nor the tag. -/
theorem stepView_eq_self {v : View σ ℓ} {t : Nat} {update : σ → σ} {tag : σ → ℓ → ℓ}
    (hupdate : update v.shared = v.shared) (htag : tag v.shared (v.tag t) = v.tag t) :
    stepView v t update tag = v := by
  rw [stepView, hupdate, htag, Function.update_eq_self]

/-- One step of thread `t`, if it has one: a stopped thread and a thread that waits for a taken
mutex have none. -/
def next (c : Config μ σ ℓ ε α) (t : Nat) : Option (Config μ σ ℓ ε α) :=
  match c.thread t with
  | .ret _ => none
  | .lock m rest =>
    if c.owner m = none then
      some { c with
        owner := Function.update c.owner m (some t)
        thread := Function.update c.thread t rest }
    else none
  | .unlock m rest =>
    if c.owner m = some t then
      some { c with
        owner := Function.update c.owner m none
        thread := Function.update c.thread t rest }
    else none
  | .step update tag rest =>
    some { c with
      view := stepView c.view t update tag
      thread := Function.update c.thread t (rest c.view.shared) }

/-- Follow a schedule: the thread that moves at each step. -/
def follow (c : Config μ σ ℓ ε α) : List Nat → Option (Config μ σ ℓ ε α)
  | [] => some c
  | t :: schedule => (c.next t).bind fun c' => c'.follow schedule

/-- The states that the runs from `start` reach, over the steps that satisfy `cond`. -/
inductive Reaches (cond : Nat → View σ ℓ → View σ ℓ → Prop) (start : Config μ σ ℓ ε α) :
    Config μ σ ℓ ε α → Prop
  | refl : Reaches cond start start
  | step {c c' : Config μ σ ℓ ε α} (t : Nat) :
      Reaches cond start c → c.next t = some c' → cond t c.view c'.view →
      Reaches cond start c'

/-- The condition that admits every step. -/
def anyStep : Nat → View σ ℓ → View σ ℓ → Prop := fun _ _ _ => True

theorem Reaches.mono {cond cond' : Nat → View σ ℓ → View σ ℓ → Prop}
    (h : ∀ t v v', cond t v v' → cond' t v v') {start c : Config μ σ ℓ ε α}
    (hc : Reaches cond start c) : Reaches cond' start c := by
  induction hc with
  | refl => exact .refl
  | step t _ hstep hcond ih => exact .step t ih hstep (h _ _ _ hcond)

/-- A schedule that can be followed to its end reaches the state it ends in. -/
theorem Reaches.of_follow {start c c' : Config μ σ ℓ ε α} (schedule : List Nat)
    (hc : Reaches anyStep start c) (h : c.follow schedule = some c') :
    Reaches anyStep start c' := by
  induction schedule generalizing c with
  | nil =>
      simp only [follow, Option.some.injEq] at h
      exact h ▸ hc
  | cons t schedule ih =>
      simp only [follow, Option.bind_eq_some_iff] at h
      obtain ⟨c₁, h₁, h₂⟩ := h
      exact ih (.step t hc h₁ trivial) h₂

/-- What is found at the end of a schedule is found in a state that a run reaches. -/
theorem Reaches.exists_of_follow {start : Config μ σ ℓ ε α} (schedule : List Nat)
    (test : Config μ σ ℓ ε α → Bool) (h : (start.follow schedule).any test = true) :
    ∃ c, Reaches anyStep start c ∧ test c = true := by
  obtain ⟨c, hc, htest⟩ := (Option.any_eq_true _ _).mp h
  exact ⟨c, .of_follow schedule .refl hc, htest⟩

/-- Follow a schedule as long as every step passes a check. -/
def followIf (check : Nat → View σ ℓ → View σ ℓ → Bool) (c : Config μ σ ℓ ε α) :
    List Nat → Option (Config μ σ ℓ ε α)
  | [] => some c
  | t :: schedule => (c.next t).bind fun c' =>
      if check t c.view c'.view then c'.followIf check schedule else none

/-- So does a schedule whose steps pass a check that is enough for the condition. -/
theorem Reaches.of_followIf {cond : Nat → View σ ℓ → View σ ℓ → Prop}
    {check : Nat → View σ ℓ → View σ ℓ → Bool} (hcheck : ∀ t v v', check t v v' = true → cond t v v')
    {start c c' : Config μ σ ℓ ε α} (schedule : List Nat) (hc : Reaches cond start c)
    (h : c.followIf check schedule = some c') : Reaches cond start c' := by
  induction schedule generalizing c with
  | nil =>
      simp only [followIf, Option.some.injEq] at h
      exact h ▸ hc
  | cons t schedule ih =>
      simp only [followIf, Option.bind_eq_some_iff] at h
      obtain ⟨c₁, h₁, h₂⟩ := h
      split at h₂
      · rename_i hpass
        exact ih (.step t hc h₁ (hcheck _ _ _ hpass)) h₂
      · cases h₂

theorem Reaches.exists_of_followIf {cond : Nat → View σ ℓ → View σ ℓ → Prop}
    {check : Nat → View σ ℓ → View σ ℓ → Bool} (hcheck : ∀ t v v', check t v v' = true → cond t v v')
    {start : Config μ σ ℓ ε α} (schedule : List Nat) (test : Config μ σ ℓ ε α → Bool)
    (h : (start.followIf check schedule).any test = true) :
    ∃ c, Reaches cond start c ∧ test c = true := by
  obtain ⟨c, hc, htest⟩ := (Option.any_eq_true _ _).mp h
  exact ⟨c, .of_followIf hcheck schedule .refl hc, htest⟩

end Config

end Muxly.Sync
